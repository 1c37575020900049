import SourceAnnotations.Region.Ordered

/-!
# Folds

A fold is a region that a reader may collapse to a placeholder. Normalised folds are in the order of
their regions, one for each region, and each of them spans lines.
-/

namespace SourceAnnotations

inductive FoldKind
  | undefined
  | imports
  | namespaceBody
  | typeBody
  /-- A block of code. -/
  | member
  | comment
  /-- The text between a pair of region directives. -/
  | userRegion
deriving DecidableEq, Repr, Inhabited

/-- A region that can be folded, and what is shown in its place. -/
structure Fold where
  region : Region
  kind : FoldKind
  name : String
  isCollapsedByDefault : Bool
deriving DecidableEq, Repr, Inhabited

namespace Fold

/-- An open fold with the default placeholder. -/
def plain (region : Region) (kind : FoldKind) : Fold :=
  ⟨region, kind, "...", false⟩

def withName (fold : Fold) (name : String) : Fold :=
  { fold with name := name }

def collapsed (fold : Fold) (isCollapsed : Bool) : Fold :=
  { fold with isCollapsedByDefault := isCollapsed }

def startLine (fold : Fold) : Nat :=
  fold.region.start.line

def endLine (fold : Fold) : Nat :=
  fold.region.stop.line

end Fold

/-- The folds in the order of their regions; of several with one region the first stays, and those
within one line go. -/
def normalizeFolds (folds : List Fold) : List Fold :=
  (dropRepeats Fold.region (sortByRegion Fold.region folds)).filter (·.region.isMultiLine)

end SourceAnnotations
