import SourceAnnotations.Error

/-!
# Cancellation

A caller may cancel what it has asked for. Whoever computes for it looks at that before going on.
-/

namespace SourceAnnotations

/-- Whether a caller still wants the result. -/
inductive Cancellation
  | live
  | cancelled
deriving DecidableEq, Repr

def Cancellation.check : Cancellation → Except DocumentError Unit
  | live => .ok ()
  | cancelled => .error .cancelled

end SourceAnnotations
