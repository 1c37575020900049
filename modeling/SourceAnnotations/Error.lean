import SourceAnnotations.Forms.Config

/-!
# Errors

Why annotating a document fails.
-/

namespace SourceAnnotations

inductive DocumentError
  | language (reason : String)
  /-- No tree was made from the text. -/
  | parse
  | cancelled
  | config (error : Json.DecodeError)
deriving DecidableEq, Repr

def DocumentError.message : DocumentError → String
  | language reason => "language error: " ++ reason
  | parse => "the parser produced no syntax tree"
  | cancelled => "operation cancelled"
  | config error => "invalid configuration: " ++ error.message

def AnnotationConfig.ofJson (json : Text) : Except DocumentError AnnotationConfig :=
  (AnnotationConfig.codec.decode json).mapError .config

end SourceAnnotations
