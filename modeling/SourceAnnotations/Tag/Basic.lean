import SourceAnnotations.Region.Basic

/-!
# Task tags

A task tag reminds of work to be done at a place of the text.
-/

namespace SourceAnnotations

/-- A label, a message and the region they are about. -/
structure Tag where
  tag : String
  message : String
  region : Region
deriving DecidableEq, Repr, Inhabited

namespace Tag

/-- The label of a place whose implementation is missing. -/
def notImplementedLabel : String := "High"

/-- The tag of a thrown not-implemented exception. Its message quotes the argument, if there is
one. -/
def notImplemented (argument : Option String) (region : Region) : Tag :=
  { tag := notImplementedLabel
    message :=
      match argument with
      | some text => "NotImplementedException(" ++ text ++ ") thrown."
      | none => "NotImplementedException thrown."
    region := region }

end Tag

end SourceAnnotations
