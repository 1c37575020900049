import SourceAnnotations.Comment.Basic
import SourceAnnotations.Cancellation
import SourceAnnotations.Region.Ordered
import SourceAnnotations.Tree.Parsed

/-!
# Collecting comments

The comments of a parsed text are read off the rows of comments. The tokens of the language decide
what kind of comment a row is and where its body lies; a row that opens with none of them is no
comment.
-/

namespace SourceAnnotations

/-- What a comment is and what it stands between. -/
structure CommentForm where
  kind : CommentKind
  openTag : String
  closingTag : String
deriving DecidableEq, Repr

namespace CommentTokens

def blockForm? (tokens : CommentTokens) (text : Text) : Option CommentForm :=
  match tokens.blockStart, tokens.blockEnd with
  | some start, some stop =>
      if tokens.hasBlock && start.toList.isPrefixOf text then
        match tokens.docBlockStart with
        | some docStart =>
            if tokens.isDocBlock text then
              some ⟨.documentation, docStart, stop⟩
            else
              some ⟨.block, start, stop⟩
        | none => some ⟨.block, start, stop⟩
      else
        none
  | _, _ => none

def docLineForm? (tokens : CommentTokens) (text : Text) : Option CommentForm :=
  match tokens.docLine with
  | some token => if tokens.isDocLine text then some ⟨.documentation, token, ""⟩ else none
  | none => none

def lineForm? (tokens : CommentTokens) (text : Text) : Option CommentForm :=
  match tokens.line with
  | some token =>
      if tokens.hasLine && token.toList.isPrefixOf text then
        some ⟨.singleLine, token, ""⟩
      else
        none
  | none => none

/-- The form of a comment: delimiters are looked for first, then documentation, then a plain
line. -/
def form? (tokens : CommentTokens) (text : Text) : Option CommentForm :=
  match tokens.blockForm? text with
  | some form => some form
  | none =>
      match tokens.docLineForm? text with
      | some form => some form
      | none => tokens.lineForm? text

end CommentTokens

/-- The body of a comment. A closing delimiter that the text lacks is not taken off. -/
def CommentForm.body (form : CommentForm) (text : Text) : Text :=
  let body := (form.openTag.toList.isPrefixOf? text).getD text
  if form.closingTag = "" then
    body
  else
    (form.closingTag.toList.isSuffixOf? body).getD body

/-- Whether only white space stands before a byte on its line. -/
def Text.startsLineAt (text : Text) (byte : Nat) : Bool :=
  (Text.lastLine ((text.takeBytes? byte).getD [])).all isWhiteSpace

namespace SyntaxTree

/-- The comment of a row. The line end that some rows include is no part of it. -/
def comment? (tree : SyntaxTree) (tokens : CommentTokens) (node : Node) : Option Comment :=
  let text := (tree.nodeText node).withoutLineEnd
  if text = [] then
    none
  else
    (tokens.form? text).map fun form =>
      { kind := form.kind
        openTag := form.openTag
        closingTag := form.closingTag
        text := String.ofList (form.body text)
        region := tree.index.region node.row.startByte (node.row.startByte + text.byteSize)
        startsLine := tree.text.startsLineAt node.row.startByte }

/-- The comments of a parsed text in the order of the text, one for each region. -/
def comments (tree : SyntaxTree) (config : AnnotationConfig) (cancellation : Cancellation) :
    Except DocumentError (List Comment) := do
  cancellation.check
  let found := (tree.namedRows [Kinds.comment]).filterMap (tree.comment? config.comment)
  return dropRepeats Comment.region (sortByRegion Comment.region found)

end SyntaxTree

end SourceAnnotations
