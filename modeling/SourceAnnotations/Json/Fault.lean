import SourceAnnotations.Text.Quoted

/-!
# What is wrong with a JSON text

Two kinds of things can be wrong. A fault is a place at which the text stops being JSON. A decode
error is a fault, or a value of the text that is not the value wanted there. Each has a message, and
a category that tells an early end from other faults and both from unwanted values.
-/

namespace SourceAnnotations.Json

/-! ## Faults -/

/-- The ways in which a text stops being JSON. -/
inductive Fault
  | endInValue
  | endInObject
  | endInList
  | endInString
  | expectedValue
  | expectedWord
  | expectedColon
  | expectedCommaOrBrace
  | expectedCommaOrBracket
  | keyNotString
  | trailingComma
  | trailingCharacters
  | invalidNumber
  | numberOutOfRange
  | invalidEscape
  | controlCharacter
  | unfinishedSurrogate
  | loneSurrogate
deriving DecidableEq, Repr

inductive Category
  /-- The text is not JSON. -/
  | malformed
  /-- The text ends too early. -/
  | ended
  /-- The text holds another value than the one wanted. -/
  | unwanted
deriving DecidableEq, Repr

def Category.name : Category → String
  | malformed => "syntax"
  | ended => "eof"
  | unwanted => "data"

namespace Fault

def category : Fault → Category
  | endInValue | endInObject | endInList | endInString => .ended
  | _ => .malformed

def message : Fault → String
  | endInValue => "EOF while parsing a value"
  | endInObject => "EOF while parsing an object"
  | endInList => "EOF while parsing a list"
  | endInString => "EOF while parsing a string"
  | expectedValue => "expected value"
  | expectedWord => "expected ident"
  | expectedColon => "expected `:`"
  | expectedCommaOrBrace => "expected `,` or `\x7d`"
  | expectedCommaOrBracket => "expected `,` or `]`"
  | keyNotString => "key must be a string"
  | trailingComma => "trailing comma"
  | trailingCharacters => "trailing characters"
  | invalidNumber => "invalid number"
  | numberOutOfRange => "number out of range"
  | invalidEscape => "invalid escape"
  | controlCharacter => "control character (\\u0000-\\u001F) found while parsing a string"
  | unfinishedSurrogate => "unexpected end of hex escape"
  | loneSurrogate => "lone leading surrogate in hex escape"

end Fault

/-! ## Decode errors -/

/-- What is said to have been found in place of the value wanted. -/
inductive Found
  | null
  | boolean (value : Bool)
  | integer (value : Int)
  | floating (text : Text)
  | text (value : String)
  | list
  | object
deriving DecidableEq, Repr

def backquoted (text : String) : String :=
  "`" ++ text ++ "`"

def Found.describe : Found → String
  | null => "null"
  | boolean value => "boolean " ++ backquoted (if value then "true" else "false")
  | integer value => "integer " ++ backquoted (toString value)
  | floating digits => "floating point " ++ backquoted (String.ofList digits)
  | text value => "string " ++ String.ofList (Text.quoted value.toList)
  | list => "sequence"
  | object => "map"

/-- The ways in which reading a wanted value from a JSON text fails. -/
inductive DecodeError
  | malformed (fault : Fault)
  | wrongType (found : Found) (wanted : String)
  | wrongValue (found : Found) (wanted : String)
  | wrongLength (length : Nat) (wanted : String)
  | missingField (name : String)
  | duplicateField (name : String)
  | unknownVariant (name : String) (known : List String)
deriving DecidableEq, Repr

namespace DecodeError

def category : DecodeError → Category
  | malformed fault => fault.category
  | _ => .unwanted

/-- The names that may stand in a place, in words. -/
def oneOf (names : List String) : String :=
  match names.map backquoted with
  | [] => "there are no variants"
  | [only] => "expected " ++ only
  | [first, second] => "expected " ++ first ++ " or " ++ second
  | all => "expected one of " ++ String.intercalate ", " all

def message : DecodeError → String
  | malformed fault => fault.message
  | wrongType found wanted => "invalid type: " ++ found.describe ++ ", expected " ++ wanted
  | wrongValue found wanted => "invalid value: " ++ found.describe ++ ", expected " ++ wanted
  | wrongLength length wanted =>
      "invalid length " ++ toString length ++ ", expected " ++ wanted
  | missingField name => "missing field " ++ backquoted name
  | duplicateField name => "duplicate field " ++ backquoted name
  | unknownVariant name known =>
      "unknown variant " ++ backquoted name ++ ", " ++ oneOf known

end DecodeError

end SourceAnnotations.Json
