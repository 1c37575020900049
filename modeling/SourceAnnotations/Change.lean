import SourceAnnotations.Tree.Parsed

/-!
# Following an edited text

A host tells how its text has changed by a list of edits. The edits are applied to the text by bytes
and to its line index by characters; a change that does not fit the text is refused. A parsed text
follows a change that fits and leads to the text the host has now, and otherwise starts anew from
that text.
-/

namespace SourceAnnotations

/-- One edit: at the character `start` the text `deleted` is replaced by `inserted`. The offset is
one of the text to which the edits before have been applied. -/
structure TextEdit where
  start : Nat
  deleted : Text
  inserted : Text
deriving DecidableEq, Repr

def TextEdit.insertion (start : Nat) (inserted : Text) : TextEdit :=
  ⟨start, [], inserted⟩

/-- Edits to be applied in order, and the numbers of characters before and after them. -/
structure TextChange where
  charsBefore : Nat
  charsAfter : Nat
  edits : List TextEdit
deriving DecidableEq, Repr

structure IndexedText where
  text : Text
  index : LineIndex
deriving DecidableEq, Repr

namespace TextEdit

/-- The text and its index after an edit, if the edit fits: it lies within the text, and the text
has there what the edit deletes. -/
def applyTo? (edit : TextEdit) (source : IndexedText) : Option IndexedText := do
  guard (edit.start ≤ source.index.charCount)
  let startByte := source.index.byteOfChar edit.start
  let endByte := startByte + edit.deleted.byteSize
  guard (source.text.slice? startByte endByte = some edit.deleted)
  let text ← source.text.replaceBytes? startByte endByte edit.inserted
  let index := source.index.delete edit.start edit.deleted.length
  return ⟨text, index.insert edit.start edit.inserted⟩

end TextEdit

/-- The text and its index after edits that are applied in order. -/
def applyEdits? : List TextEdit → IndexedText → Option IndexedText
  | [], source => some source
  | edit :: rest, source => (edit.applyTo? source).bind (applyEdits? rest)

namespace TextChange

/-- The text and its index after a change, if every edit fits and the numbers of characters are
right. -/
def applyTo? (change : TextChange) (source : IndexedText) : Option IndexedText := do
  guard (source.index.charCount = change.charsBefore)
  let edited ← applyEdits? change.edits source
  guard (edited.index.charCount = change.charsAfter)
  return edited

end TextChange

/-- How a parsed text came to its successor. -/
inductive UpdateMode
  | incremental
  | fullReparse
deriving DecidableEq, Repr

namespace SyntaxTree

def indexedText (tree : SyntaxTree) : IndexedText :=
  ⟨tree.text, tree.index⟩

/-- The successor of a parsed text after a change to `fullText`, and how it was reached. `root` is
the tree that the parser makes of the new text. -/
def reparse (old : SyntaxTree) (change : TextChange) (fullText : Text) (root : Node) :
    SyntaxTree × UpdateMode :=
  match (change.applyTo? old.indexedText).filter fun edited => edited.text = fullText with
  | some edited => (⟨edited.text, edited.index, root⟩, .incremental)
  | none => (.ofText fullText root, .fullReparse)

end SyntaxTree

end SourceAnnotations
