import SourceAnnotations.Comment.Collect
import SourceAnnotations.Diagnostic.Recovery
import SourceAnnotations.Fold.Collect
import SourceAnnotations.Tag.Throws

/-!
# All annotations of a text

The five lists of annotations of a parsed text, each computed on its own. Tags and folds of comments
are made from the comments collected unless others are given.
-/

namespace SourceAnnotations

structure Annotations where
  comments : Except DocumentError (List Comment)
  tags : Except DocumentError (List Tag)
  commentTags : List Tag
  foldings : Except DocumentError (List Fold)
  diagnostics : Except DocumentError (List Diagnostic)

/-- The annotations of a parsed text. Comments that could not be collected count as none. -/
def SyntaxTree.annotate (tree : SyntaxTree) (config : AnnotationConfig)
    (cancellation : Cancellation) (given : Option (List Comment)) : Annotations :=
  let collected := tree.comments config cancellation
  let comments := given.getD (collected.toOption.getD [])
  { comments := collected
    tags := tree.throwTags config cancellation
    commentTags := commentTags comments config.tagWords
    foldings := tree.foldings comments config cancellation
    diagnostics := tree.recoveryDiagnostics cancellation }

end SourceAnnotations
