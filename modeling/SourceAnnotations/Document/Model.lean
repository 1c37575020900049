import SourceAnnotations.Diagnostic.Recovery

/-!
# Semantic models

A model answers with the diagnostics of a document. Its answer may depend on how often it has been
asked and on whether the caller has cancelled.
-/

namespace SourceAnnotations

/-- How a model answers: from the number of earlier calls and the caller's cancellation. -/
abbrev Model := Nat → Cancellation → Except DocumentError (List Diagnostic)

namespace Model

/-- The model that reports the recovery rows of a tree and nothing else. -/
def recovery (tree : SyntaxTree) : Model :=
  fun _ cancellation => tree.recoveryDiagnostics cancellation

/-- A model that always answers the same. One that polls looks at the cancellation first. -/
def fixed (polls : Bool) (answer : Except DocumentError (List Diagnostic)) : Model :=
  fun _ cancellation => do
    if polls then
      cancellation.check
    answer

end Model

end SourceAnnotations
