import SourceAnnotations.Document.Basic
import SourceAnnotations.Document.Model

/-!
# Sessions

A session is a document with the models that may be attached to it, and a history of operations is
run on it. A model is asked for diagnostics while the errors of the document are computed, and on
its first call it may itself operate on the document, to any depth. The errors then computed belong
to the model that was attached when they were asked for, even when it has been replaced meanwhile.
-/

namespace SourceAnnotations

/-! ## Operations and their outcomes -/

/-- The lists of annotations that depend on the tree alone. -/
inductive Listing
  | comments
  | tags
  | commentTags
  | foldings
deriving DecidableEq, Repr

inductive Operation
  | list (listing : Listing) (cancellation : Cancellation)
  | errors (cancellation : Cancellation)
  | setTree (tree : Shared SyntaxTree)
  | setModel (model : Nat)
  | clearModel
  | withConfig (config : AnnotationConfig)
  /-- Replaces the configuration by one that is read from a JSON text. -/
  | loadConfig (json : Text)
  /-- Asks how often a model has been called. -/
  | countCalls (model : Nat)
  | inspect

/-- What can be seen of a document without computing anything. -/
structure DocumentSummary where
  fileName : String
  config : AnnotationConfig
  hasModel : Bool
  /-- The identity of the tree. -/
  tree : Nat
  description : String

inductive Outcome
  | comments (result : Except DocumentError (Shared (List Comment)))
  | tags (result : Except DocumentError (Shared (List Tag)))
  | commentTags (result : Except DocumentError (Shared (List Tag)))
  | foldings (result : Except DocumentError (Shared (List Fold)))
  /-- The errors, and the outcomes of the operations that the model ran meanwhile. -/
  | errors (result : Except DocumentError (Shared (List ReportedError))) (during : List Outcome)
  | done
  | refused (failure : DocumentError)
  | calls (count : Nat)
  | summary (summary : DocumentSummary)

/-! ## Sessions -/

/-- A model that may be attached, what it does on its first call, and how often it has been
called. -/
structure ModelState where
  model : Model
  onFirstCall : List Operation
  calls : Nat

namespace ModelState

def silent : ModelState := ⟨.fixed false (.ok []), [], 0⟩

def called (state : ModelState) : ModelState :=
  { state with calls := state.calls + 1 }

end ModelState

structure Session where
  document : Document
  models : List ModelState

namespace Session

/-- The model with a number. A number that no model has stands for one that reports nothing. -/
def model (session : Session) (number : Nat) : ModelState :=
  session.models.getD number .silent

/-- How a list of operations is run while a model is asked. -/
abbrev Runner := List Operation → Session → List Outcome × Session

def errorsPlace (number : Nat) : Place Session (List ReportedError) where
  slot session := session.document.errors.slot number
  store slot session :=
    { session with
      document :=
        { session.document with errors := session.document.errors.store number slot } }
  share value session :=
    let (fresh, document) := session.document.share value
    (fresh, { session with document := document })

/-- Asks a model for the errors. The call counts before the model does anything. -/
def consult (run : Runner) (number : Nat) (cancellation : Cancellation) (session : Session) :
    Except DocumentError (List ReportedError) × List Outcome × Session :=
  let asked := session.model number
  let session := { session with models := session.models.modify number ModelState.called }
  let (outcomes, session) :=
    if asked.calls = 0 then run asked.onFirstCall session else ([], session)
  ((asked.model asked.calls cancellation).map reportedErrors, outcomes, session)

/-- The errors of the document. Without a model there are none, and that is not kept. -/
def listErrors (run : Runner) (cancellation : Cancellation) (session : Session) :
    Except DocumentError (Shared (List ReportedError)) × List Outcome × Session :=
  match session.document.model with
  | none =>
      let (fresh, document) := session.document.share []
      (.ok fresh, [], { session with document := document })
  | some number =>
      let (result, report, session) :=
        (errorsPlace session.document.errors.generation).getOrTry
          (consult run number cancellation) session
      (result, report.getD [], session)

def listAnnotations (listing : Listing) (cancellation : Cancellation) (document : Document) :
    Outcome × Document :=
  match listing with
  | .comments =>
      let (result, document) := document.listComments cancellation
      (.comments result, document)
  | .tags =>
      let (result, document) := document.listTags cancellation
      (.tags result, document)
  | .commentTags =>
      let (result, document) := document.listCommentTags cancellation
      (.commentTags result, document)
  | .foldings =>
      let (result, document) := document.listFoldings cancellation
      (.foldings result, document)

def summary (session : Session) : DocumentSummary :=
  let document := session.document
  ⟨document.fileName, document.config, document.model.isSome, document.tree.id,
    document.describe⟩

/-- The outcome of an operation when `run` runs the operations of models. -/
def performWith (run : Runner) (operation : Operation) (session : Session) : Outcome × Session :=
  match operation with
  | .list listing cancellation =>
      let (outcome, document) := listAnnotations listing cancellation session.document
      (outcome, { session with document := document })
  | .errors cancellation =>
      let (result, outcomes, session) := session.listErrors run cancellation
      (.errors result outcomes, session)
  | .setTree tree => (.done, { session with document := session.document.setTree tree })
  | .setModel number =>
      (.done, { session with document := session.document.setModel (some number) })
  | .clearModel => (.done, { session with document := session.document.setModel none })
  | .withConfig config =>
      (.done, { session with document := session.document.withConfig config })
  | .loadConfig json =>
      match AnnotationConfig.ofJson json with
      | .ok config => (.done, { session with document := session.document.withConfig config })
      | .error failure => (.refused failure, session)
  | .countCalls number => (.calls (session.model number).calls, session)
  | .inspect => (.summary session.summary, session)

def performAll (perform : Operation → Session → Outcome × Session) : Runner
  | [], session => ([], session)
  | operation :: rest, session =>
      let (outcome, session) := perform operation session
      let (outcomes, session) := performAll perform rest session
      (outcome :: outcomes, session)

/-- The outcome of an operation within which models run operations to a given depth at most. -/
def perform : Nat → Operation → Session → Outcome × Session
  | 0 => performWith fun _ session => ([], session)
  | depth + 1 => performWith (performAll (perform depth))

/-- The outcomes of a history of operations, and the session after it. Each level at which a model
runs operations is the first call of another model, so there are no more levels than models. -/
def run (session : Session) (operations : List Operation) : List Outcome × Session :=
  performAll (perform session.models.length) operations session

end Session

end SourceAnnotations
