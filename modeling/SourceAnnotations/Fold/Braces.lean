import SourceAnnotations.Fold.Basic
import SourceAnnotations.Tree.Cursor
import SourceAnnotations.Tree.Parsed

/-!
# Folds between braces

A namespace, a type or a block folds from the end of the token before its opening brace up to its
closing brace, when these lie on different lines.
-/

namespace SourceAnnotations

def braceFoldKind? (kind : String) : Option FoldKind :=
  if kind = Kinds.namespaceDeclaration then some .namespaceBody
  else if kind = Kinds.block then some .member
  else if Kinds.typeDeclarations.contains kind then some .typeBody
  else none

namespace Cursor

def isBody (cursor : Cursor) : Bool :=
  Kinds.bodies.contains cursor.kind

/-- The body of a declaration: the child that is called so, or the first named one that is one. -/
def body? (cursor : Cursor) : Option Cursor :=
  match (cursor.childByField? "body").filter isBody with
  | some body => some body
  | none => cursor.namedChildren.find? isBody

/-- The row that holds the braces: a block itself, or the body of a declaration. -/
def braceHolder? (cursor : Cursor) : Option Cursor :=
  if cursor.kind = Kinds.block then some cursor else cursor.body?

/-- The first opening brace of a row and its last closing brace that the text has. -/
def braces? (holder : Cursor) : Option (Cursor × Cursor) := do
  let opening ← holder.children.find? fun child => child.kind = Kinds.openBrace
  let closing ← holder.children.reverse.find? fun child =>
    child.kind = Kinds.closeBrace && !child.row.isMissing
  return (opening, closing)

/-- Where the fold of an opening brace begins: where the token before it ends. -/
def foldStart (opening : Cursor) : Nat :=
  match opening.previousToken? with
  | some token => token.row.endByte
  | none => opening.row.startByte

end Cursor

namespace SyntaxTree

def braceRegion? (tree : SyntaxTree) (cursor : Cursor) : Option Region := do
  let holder ← cursor.braceHolder?
  let (opening, closing) ← holder.braces?
  return tree.index.region opening.foldStart closing.row.endByte

/-- The fold between the braces of a row, if it has a kind of its own and spans lines. -/
def braceFold? (tree : SyntaxTree) (cursor : Cursor) : Option Fold := do
  let kind ← braceFoldKind? cursor.kind
  let region ← tree.braceRegion? cursor
  guard (region.start.line ≠ region.stop.line)
  return .plain region kind

end SyntaxTree

end SourceAnnotations
