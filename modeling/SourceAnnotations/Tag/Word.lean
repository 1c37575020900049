import SourceAnnotations.Comment.Basic
import SourceAnnotations.Tag.Basic
import SourceAnnotations.Text.WhiteSpace

/-!
# Tag words

A tag word at the start of a comment turns the comment into a task tag. Only the first line of a
comment is looked at, documentation is not looked at, and of several words that match the first of
the table counts.
-/

namespace SourceAnnotations

/-- A word that makes a task tag; it is the label of the tag too. -/
structure TagWord where
  name : String
deriving DecidableEq, Repr, Inhabited

namespace TagWord

def defaults : List TagWord :=
  [⟨"TODO"⟩, ⟨"FIXME"⟩, ⟨"HACK"⟩, ⟨"UNDONE"⟩]

/-- What follows the tag word in `text`, when the text begins with the word as a whole: the word
ends the text, or a colon or white space comes next. The colon and the white space around are left
out. -/
def message? (word : TagWord) (text : Text) : Option Text :=
  if word.name = "" then
    none
  else
    match word.name.toList.isPrefixOf? text.trimStart with
    | none => none
    | some [] => some []
    | some (next :: rest) =>
        if next = ':' then some (Text.trim rest)
        else if isWhiteSpace next then some (Text.trim (next :: rest))
        else none

end TagWord

namespace Comment

/-- The line of the comment in which a tag word may stand, from its first character that is neither
white space nor a star. -/
def tagLine (comment : Comment) : Text :=
  (Text.firstLine comment.text.toList).dropWhile fun c => c = '*' || isWhiteSpace c

/-- The tag that the comment makes by the first word of the table that matches. -/
def tag? (words : List TagWord) (comment : Comment) : Option Tag :=
  if comment.isDocumentation then
    none
  else
    words.findSome? fun word =>
      (word.message? comment.tagLine).map fun message =>
        ⟨word.name, String.ofList message, comment.region⟩

end Comment

def commentTags (comments : List Comment) (words : List TagWord) : List Tag :=
  comments.filterMap (Comment.tag? words)

end SourceAnnotations
