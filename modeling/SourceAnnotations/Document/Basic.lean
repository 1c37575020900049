import SourceAnnotations.Annotate
import SourceAnnotations.Cache.Slot

/-!
# Documents

A document is a parsed text with a configuration, perhaps a model of its meaning, and a slot for
each of its five lists of annotations. Four of the lists depend on the tree and the configuration
alone; each is computed when it is first asked for and kept until one of these is replaced. The list
of errors depends on the model too.
-/

namespace SourceAnnotations

structure Document where
  fileName : String
  config : AnnotationConfig
  tree : Shared SyntaxTree
  /-- The number of the model, if there is one. -/
  model : Option Nat
  comments : Slot (List Comment)
  tags : Slot (List Tag)
  commentTags : Slot (List Tag)
  foldings : Slot (List Fold)
  errors : SlotHistory (List ReportedError)
  /-- The identity of the next instance. -/
  nextInstance : Nat

namespace Document

/-- A document without a model, with the default configuration. -/
def ofTree (fileName : String) (tree : Shared SyntaxTree) : Document :=
  ⟨fileName, .default, tree, none, .empty, .empty, .empty, .empty, .empty, 0⟩

def withEmptySlots (document : Document) : Document :=
  { document with
    comments := .empty
    tags := .empty
    commentTags := .empty
    foldings := .empty
    errors := document.errors.renew }

/-- A new tree. Nothing computed from the old one stays, and neither does the model, which was one
of the old tree. -/
def setTree (document : Document) (tree : Shared SyntaxTree) : Document :=
  { document.withEmptySlots with tree := tree, model := none }

/-- Another model or none. Only the errors depend on it. -/
def setModel (document : Document) (model : Option Nat) : Document :=
  { document with model := model, errors := document.errors.renew }

/-- Another configuration. Nothing computed with the old one stays. -/
def withConfig (document : Document) (config : AnnotationConfig) : Document :=
  { document.withEmptySlots with config := config }

def share {α : Type} (value : α) (document : Document) : Shared α × Document :=
  (⟨document.nextInstance, value⟩, { document with nextInstance := document.nextInstance + 1 })

/-! ## The places of the slots -/

def commentsPlace : Place Document (List Comment) :=
  ⟨Document.comments, fun slot document => { document with comments := slot }, share⟩

def tagsPlace : Place Document (List Tag) :=
  ⟨Document.tags, fun slot document => { document with tags := slot }, share⟩

def commentTagsPlace : Place Document (List Tag) :=
  ⟨Document.commentTags, fun slot document => { document with commentTags := slot }, share⟩

def foldingsPlace : Place Document (List Fold) :=
  ⟨Document.foldings, fun slot document => { document with foldings := slot }, share⟩

/-! ## The lists that depend on the tree -/

/-- The outcome of asking for a list, and the document after it. -/
abbrev Listed (α : Type) := Except DocumentError (Shared (List α)) × Document

/-- The list at a place, computed on a miss. -/
def list {α : Type} (place : Place Document (List α))
    (compute : Document → Except DocumentError (List α) × Document) (document : Document) :
    Listed α :=
  let (result, _, document) :=
    place.getOrTry
      (fun document =>
        let (result, document) := compute document
        (result, (), document))
      document
  (result, document)

def listComments (cancellation : Cancellation) : Document → Listed Comment :=
  list commentsPlace fun document =>
    (document.tree.value.comments document.config cancellation, document)

/-- The tags of thrown not-implemented exceptions. -/
def listTags (cancellation : Cancellation) : Document → Listed Tag :=
  list tagsPlace fun document =>
    (document.tree.value.throwTags document.config cancellation, document)

def fromComments {α : Type} (cancellation : Cancellation)
    (compute : Document → List Comment → Except DocumentError (List α)) (document : Document) :
    Except DocumentError (List α) × Document :=
  match document.listComments cancellation with
  | (.error failure, document) => (.error failure, document)
  | (.ok comments, document) => (compute document comments.value, document)

/-- The tags of the comments that begin with a tag word. -/
def listCommentTags (cancellation : Cancellation) : Document → Listed Tag :=
  list commentTagsPlace <|
    fromComments cancellation fun document comments =>
      .ok (SourceAnnotations.commentTags comments document.config.tagWords)

def listFoldings (cancellation : Cancellation) : Document → Listed Fold :=
  list foldingsPlace <|
    fromComments cancellation fun document comments =>
      document.tree.value.foldings comments document.config cancellation

def describe (document : Document) : String :=
  "ParsedDocument \x7b file_name: " ++ String.ofList (Text.quoted document.fileName.toList) ++
    ", syntax: " ++ document.tree.value.describe ++
    ", has_semantic_model: " ++ toString document.model.isSome ++ " \x7d"

end Document

end SourceAnnotations
