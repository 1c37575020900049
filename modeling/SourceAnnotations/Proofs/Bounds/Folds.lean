import SourceAnnotations.Fold.Collect
import SourceAnnotations.Proofs.Bounds.Comments
import SourceAnnotations.Proofs.Fold.UserRegions
import SourceAnnotations.Proofs.Tree.Walk

/-!
# Folds within range

The folds of comments are made from places in the list of the comments: a run is known by the places
of its first and its last comment, and the comment that continues it begins on the line after the
one on which the last comment stops.  Here the places are looked up and the line after is checked to
be a line of the text or its end.  The invariant is that a run's places are those of comments passed
already.  The regions of the other folds are checked too, and with them the end of a directive,
which is the sum of its first byte and the size of its visible text.  That is within the text
wherever the directive has a text.  Where it has none, nothing is added to its first byte, and only a
limit on the directives themselves says how far behind the text that can be.
-/

namespace SourceAnnotations

/-! ## Runs by their places -/

/-- A run of line comments, by the places of its first and its last comment. -/
structure PlacedRun where
  first : Nat
  last : Nat

namespace PlacedRun

variable (lineCount : Nat) (comments : List Comment) (collapseDocumentation : Bool) (place : Nat)
  (comment : Comment)

def starting? : Option PlacedRun :=
  if comment.startsLine then some ⟨place, place⟩ else none

/-- A run by its places is the run of the comments there, all of which lie before a place. -/
structure IsOf (placed : PlacedRun) (run : CommentRun) : Prop where
  first : comments[placed.first]? = some run.first
  last : comments[placed.last]? = some run.last
  isLong : run.isLong = decide (placed.first < placed.last)
  passed : placed.first < place

variable {lineCount comments collapseDocumentation place comment}
  {placed : Option PlacedRun} {run : Option CommentRun}

end PlacedRun

namespace SyntaxTree

variable (tree : SyntaxTree)

variable {limit : Nat}

end SyntaxTree

end SourceAnnotations
