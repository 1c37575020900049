import SourceAnnotations.Comment.Basic
import SourceAnnotations.Fold.Basic

/-!
# Folds of comments

A comment between delimiters folds when it spans lines. Line comments fold in runs: two or more of
one kind, each the first thing on its line, on consecutive lines.
-/

namespace SourceAnnotations

/-- A run of line comments that may still grow. -/
structure CommentRun where
  first : Comment
  last : Comment
  isLong : Bool
deriving DecidableEq, Repr

namespace CommentRun

/-- The run that begins with a comment, if the comment starts its line. -/
def starting? (comment : Comment) : Option CommentRun :=
  if comment.startsLine then some ⟨comment, comment, false⟩ else none

def isContinuedBy (run : CommentRun) (comment : Comment) : Bool :=
  comment.startsLine && run.last.kind = comment.kind &&
    comment.region.start.line = run.last.region.stop.line + 1

def extend (run : CommentRun) (comment : Comment) : CommentRun :=
  { run with last := comment, isLong := true }

end CommentRun

/-- The fold of a comment's place in the text, shown and collapsed as the comment asks. -/
def commentFold
    (collapseDocumentation : Bool) (head : Comment) (region : Region) : Fold :=
  ((Fold.plain region .comment).withName head.placeholder).collapsed
    (collapseDocumentation && head.isDocumentation)

/-- The fold of a run that has ended; a run of one comment has none. -/
def runFold (collapseDocumentation : Bool) : Option CommentRun → List Fold
  | none => []
  | some run =>
      if run.isLong then
        [commentFold collapseDocumentation run.first (run.first.region.cover run.last.region)]
      else
        []

/-- The fold of a comment between delimiters, if it spans lines. -/
def blockFold (collapseDocumentation : Bool) (comment : Comment) : List Fold :=
  if comment.region.isMultiLine then
    [commentFold collapseDocumentation comment comment.region]
  else
    []

/-- The folds of the comments after an open run. -/
def commentFoldsAfter (collapseDocumentation : Bool) :
    Option CommentRun → List Comment → List Fold
  | run, [] => runFold collapseDocumentation run
  | run, comment :: rest =>
      if comment.isBlockDelimited then
        runFold collapseDocumentation run ++ blockFold collapseDocumentation comment ++
          commentFoldsAfter collapseDocumentation none rest
      else
        match run.filter (·.isContinuedBy comment) with
        | some run => commentFoldsAfter collapseDocumentation (some (run.extend comment)) rest
        | none =>
            runFold collapseDocumentation run ++
              commentFoldsAfter collapseDocumentation (CommentRun.starting? comment) rest

/-- The folds of comments that are given in the order of the text. -/
def commentFolds (comments : List Comment) (collapseDocumentation : Bool) : List Fold :=
  commentFoldsAfter collapseDocumentation none comments

end SourceAnnotations
