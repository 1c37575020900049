import SourceAnnotations.Fold.Basic
import SourceAnnotations.Text.WhiteSpace
import SourceAnnotations.Tree.Parsed

/-!
# Folds of region directives

A directive that begins a region and the one that ends it fold with all that lies between them. They
match like brackets; a directive without a partner does nothing.
-/

namespace SourceAnnotations

/-- A region that has begun: its first byte and its name. -/
structure OpenRegion where
  startByte : Nat
  name : String
deriving DecidableEq, Repr

def dropRegionWords : Text → Text
  | 'r' :: 'e' :: 'g' :: 'i' :: 'o' :: 'n' :: rest => dropRegionWords rest
  | text => text

/-- The name that a directive gives to its region: what follows its word, or the word itself. -/
def regionName (directive : Text) : String :=
  let afterMark := Text.trimStart (directive.trim.dropWhile (· = '#'))
  match Text.trim (dropRegionWords afterMark) with
  | [] => "#region"
  | name => String.ofList name

namespace SyntaxTree

def openRegion (tree : SyntaxTree) (directive : Node) : OpenRegion :=
  ⟨directive.row.startByte, regionName (tree.nodeText directive)⟩

/-- Where the visible text of a directive ends; some rows include the line end. -/
def directiveEnd (tree : SyntaxTree) (directive : Node) : Nat :=
  directive.row.startByte + Text.byteSize (tree.nodeText directive).trimEnd

end SyntaxTree

def OpenRegion.fold (tree : SyntaxTree) (region : OpenRegion) (directive : Node) : Fold :=
  let span := tree.index.region region.startByte (tree.directiveEnd directive)
  (Fold.plain span .userRegion).withName region.name

end SourceAnnotations
