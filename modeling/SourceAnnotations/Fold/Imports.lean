import SourceAnnotations.Fold.Basic
import SourceAnnotations.Tree.Parsed

/-!
# Folds of using directives

A scope folds its first run of using directives, when the run has at least two. Anything else ends
the run, except for trivia and the scope's own name; a file-scoped namespace among the members
begins a scope of its own, with a first run of its own.
-/

namespace SourceAnnotations

structure UsingRun where
  first : Node
  last : Node
  isLong : Bool

namespace UsingRun

/-- A run with one more directive, or a new run of it. -/
def extend (run : Option UsingRun) (directive : Node) : UsingRun :=
  match run with
  | some run => ⟨run.first, directive, true⟩
  | none => ⟨directive, directive, false⟩

/-- The fold of a run; a run of one directive has none. -/
def fold? (tree : SyntaxTree) (run : UsingRun) : Option Fold :=
  if run.isLong then
    let region := tree.index.region run.first.row.startByte run.last.row.endByte
    some ((Fold.plain region .imports).withName "using ...")
  else
    none

end UsingRun

/-- The members of a scope that count for its runs. -/
def Node.scopeMembers (scope : Node) : List Node :=
  (scope.children.eraseP (hasField "name")).filter fun child =>
    child.row.isNamed && !child.isTrivia

/-- Whether a member makes names known. -/
def Node.isUsing (member : Node) : Bool :=
  Kinds.usings.contains member.kind

/-- The first runs among members, after a run that is still open. Once a run has been ended by
another member nothing is looked for up to the next file-scoped namespace. -/
def usingRuns (run : Option UsingRun) (isLooking : Bool) : List Node → List UsingRun
  | [] => run.toList
  | member :: rest =>
      if member.kind = Kinds.fileScopedNamespace then
        run.toList ++ usingRuns none true rest
      else if !isLooking then
        usingRuns run false rest
      else if member.isUsing then
        usingRuns (some (.extend run member)) true rest
      else
        run.toList ++ usingRuns none false rest

def SyntaxTree.usingFolds (tree : SyntaxTree) (scope : Node) : List Fold :=
  (usingRuns none true scope.scopeMembers).filterMap (UsingRun.fold? tree)

end SourceAnnotations
