import SourceAnnotations.Region.Basic

/-!
# Comments

A comment of a source text, split into its delimiters and its body.
-/

namespace SourceAnnotations

inductive CommentKind
  | singleLine
  | block
  /-- A documentation comment of either form. -/
  | documentation
deriving DecidableEq, Repr, Inhabited

/-- A comment: `openTag`, then `text`, then `closingTag`, which a line comment leaves empty. -/
structure Comment where
  kind : CommentKind
  openTag : String
  closingTag : String
  text : String
  region : Region
  /-- Whether only white space stands before the comment on its line. -/
  startsLine : Bool
deriving DecidableEq, Repr, Inhabited

namespace Comment

def isBlockDelimited (comment : Comment) : Bool :=
  comment.closingTag ≠ ""

def isDocumentation (comment : Comment) : Bool :=
  comment.kind = .documentation

/-- What stands for the comment when it is folded. -/
def placeholder (comment : Comment) : String :=
  if comment.isBlockDelimited then
    comment.openTag ++ " ... " ++ comment.closingTag
  else
    comment.openTag ++ " ..."

end Comment

end SourceAnnotations
