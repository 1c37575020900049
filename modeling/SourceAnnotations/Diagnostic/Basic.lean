import SourceAnnotations.Region.Basic

/-!
# Diagnostics

A front end reports diagnostics of every severity; a host is shown the errors and the warnings.
-/

namespace SourceAnnotations

inductive Severity
  | hidden
  | info
  | warning
  | error
deriving DecidableEq, Repr, Inhabited

structure Diagnostic where
  id : String
  severity : Severity
  message : String
  region : Region
deriving DecidableEq, Repr, Inhabited

inductive ErrorKind
  | error
  | warning
  | unknown
deriving DecidableEq, Repr, Inhabited

structure ReportedError where
  kind : ErrorKind
  id : String
  message : String
  region : Region
deriving DecidableEq, Repr, Inhabited

namespace Severity

def kind : Severity → ErrorKind
  | error => .error
  | warning => .warning
  | hidden | info => .unknown

/-- Whether a host is shown diagnostics of this severity. -/
def isReported : Severity → Bool
  | error | warning => true
  | hidden | info => false

end Severity

def Diagnostic.report (diagnostic : Diagnostic) : ReportedError :=
  ⟨diagnostic.severity.kind, diagnostic.id, diagnostic.message, diagnostic.region⟩

/-- The errors and warnings among the diagnostics, as reported and in their order. -/
def reportedErrors (diagnostics : List Diagnostic) : List ReportedError :=
  (diagnostics.filter (·.severity.isReported)).map Diagnostic.report

end SourceAnnotations
