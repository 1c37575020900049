import SourceAnnotations.Text.Basic

/-!
# Comment tokens

The tokens that open and close the comments of a language, and the tests by which a text is told to
be documentation. A token that is absent or empty opens nothing.
-/

namespace SourceAnnotations

/-- The tokens of a language's comments; a form of comment that the language lacks has no token. -/
structure CommentTokens where
  line : Option String
  docLine : Option String
  blockStart : Option String
  docBlockStart : Option String
  blockEnd : Option String
deriving DecidableEq, Repr, Inhabited

namespace CommentTokens

def empty : CommentTokens := ⟨none, none, none, none, none⟩

def lineOnly (line : String) : CommentTokens :=
  { empty with line := some line }

def lineAndBlock (line blockStart blockEnd : String) : CommentTokens :=
  { empty with line := some line, blockStart := some blockStart, blockEnd := some blockEnd }

def withDocTokens
    (tokens : CommentTokens) (docLine docBlockStart : String) : CommentTokens :=
  { tokens with docLine := some docLine, docBlockStart := some docBlockStart }

def csharp : CommentTokens :=
  (lineAndBlock "//" "/*" "*/").withDocTokens "///" "/**"

/-- Whether a token can open or close anything. -/
def isUsable (token : Option String) : Bool :=
  match token with
  | some text => text ≠ ""
  | none => false

def hasLine (tokens : CommentTokens) : Bool :=
  isUsable tokens.line

/-- Whether there are block comments, which need both of their tokens. -/
def hasBlock (tokens : CommentTokens) : Bool :=
  isUsable tokens.blockStart && isUsable tokens.blockEnd

/-- Whether `text` opens with the token of a documentation line. One more slash after the token
makes it an ordinary comment. -/
def isDocLine (tokens : CommentTokens) (text : Text) : Bool :=
  match tokens.docLine with
  | none => false
  | some token =>
      token ≠ "" &&
        match token.toList.isPrefixOf? text with
        | some rest => rest.head? ≠ some '/'
        | none => false

/-- Whether `text` opens with the token of a documentation block. The four characters of an empty
block comment are no documentation. -/
def isDocBlock (tokens : CommentTokens) (text : Text) : Bool :=
  match tokens.docBlockStart with
  | none => false
  | some token =>
      token ≠ "" && token.toList.isPrefixOf text && text ≠ "/**/".toList

end CommentTokens

end SourceAnnotations
