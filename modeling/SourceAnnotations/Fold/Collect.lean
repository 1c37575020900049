import SourceAnnotations.Fold.Braces
import SourceAnnotations.Fold.Comments
import SourceAnnotations.Fold.Imports
import SourceAnnotations.Fold.UserRegions
import SourceAnnotations.Tree.Walk

/-!
# Collecting folds

One walk through the tree finds the folds of using directives, of braces and of region directives,
the last of which need the directives still open. The folds of the comments are added, and all are
normalised together.
-/

namespace SourceAnnotations

structure FoldScan where
  folds : List Fold
  /-- The regions that have begun and not ended, the latest first. -/
  openRegions : List OpenRegion

namespace FoldScan

def empty : FoldScan := ⟨[], []⟩

def add (scan : FoldScan) (folds : List Fold) : FoldScan :=
  { scan with folds := scan.folds ++ folds }

def beginRegion (scan : FoldScan) (region : OpenRegion) : FoldScan :=
  { scan with openRegions := region :: scan.openRegions }

/-- A directive ends the latest region that has begun, if there is one. -/
def endRegion (tree : SyntaxTree) (scan : FoldScan) (directive : Node) : FoldScan :=
  match scan.openRegions with
  | [] => scan
  | region :: others => ⟨scan.folds ++ [region.fold tree directive], others⟩

end FoldScan

namespace SyntaxTree

/-- The folds of the using directives of the scope that a row is or has as its body. -/
def scopeFolds (tree : SyntaxTree) (cursor : Cursor) : List Fold :=
  if cursor.kind = Kinds.compilationUnit || cursor.kind = Kinds.fileScopedNamespace then
    tree.usingFolds cursor.focus
  else if cursor.kind = Kinds.namespaceDeclaration then
    match cursor.body? with
    | some body => tree.usingFolds body.focus
    | none => []
  else
    []

/-- What a row adds to the folds, and whether the rows below it are looked at. -/
def visitFolds (tree : SyntaxTree) (config : AnnotationConfig) (scan : FoldScan)
    (cursor : Cursor) : FoldScan × Visit :=
  if config.foldUserRegions && Kinds.regionDirectives.contains cursor.kind then
    (scan.beginRegion (tree.openRegion cursor.focus), .skip)
  else if config.foldUserRegions && Kinds.endRegionDirectives.contains cursor.kind then
    (scan.endRegion tree cursor.focus, .skip)
  else
    (scan.add (tree.scopeFolds cursor ++ (tree.braceFold? cursor).toList), .descend)

def foldings (tree : SyntaxTree) (comments : List Comment) (config : AnnotationConfig)
    (cancellation : Cancellation) : Except DocumentError (List Fold) := do
  let scan ← walkTree cancellation (tree.visitFolds config) .empty tree.root
  let commentFolds :=
    if config.foldComments then commentFolds comments config.collapseDocComments else []
  return normalizeFolds (scan.folds ++ commentFolds)

end SyntaxTree

end SourceAnnotations
