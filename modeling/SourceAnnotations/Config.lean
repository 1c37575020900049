import SourceAnnotations.Comment.Tokens
import SourceAnnotations.Tag.Word

/-!
# Configuration

What the annotations of a text depend on besides the text and its tree.
-/

namespace SourceAnnotations

structure AnnotationConfig where
  comment : CommentTokens
  /-- The words that turn a comment into a tag. -/
  tagWords : List TagWord
  /-- The names, without white space, of the exceptions whose throwing makes a tag. -/
  notImplementedTypeNames : List String
  /-- Whether thrown expressions make tags as thrown statements do. -/
  tagThrowExpressions : Bool
  foldComments : Bool
  foldUserRegions : Bool
  /-- Whether the folds of documentation comments start collapsed. -/
  collapseDocComments : Bool
deriving DecidableEq, Repr

namespace AnnotationConfig

def default : AnnotationConfig :=
  { comment := .csharp
    tagWords := TagWord.defaults
    notImplementedTypeNames :=
      ["NotImplementedException", "System.NotImplementedException",
        "global::System.NotImplementedException"]
    tagThrowExpressions := false
    foldComments := true
    foldUserRegions := true
    collapseDocComments := false }

instance : Inhabited AnnotationConfig := ⟨default⟩

def setFoldComments (config : AnnotationConfig) (fold : Bool) : AnnotationConfig :=
  { config with foldComments := fold }

def setFoldUserRegions (config : AnnotationConfig) (fold : Bool) : AnnotationConfig :=
  { config with foldUserRegions := fold }

def setTagThrowExpressions (config : AnnotationConfig) (scan : Bool) : AnnotationConfig :=
  { config with tagThrowExpressions := scan }

/-- Whether a text names one of the not-implemented exceptions; white space in it does not
matter. -/
def isNotImplementedType (config : AnnotationConfig) (typeText : Text) : Bool :=
  let compact := typeText.filter fun c => !isWhiteSpace c
  config.notImplementedTypeNames.any fun name => name.toList = compact

end AnnotationConfig

end SourceAnnotations
