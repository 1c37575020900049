import SourceAnnotations.Json.Number

/-!
# JSON values

A JSON value and its text. The text has no blanks; a string is written with its quotes, backslashes
and control characters escaped and every other character as it is.
-/

namespace SourceAnnotations.Json

/-- A JSON value. The members of an object keep the order in which they are given. -/
inductive Value
  | null
  | boolean (value : Bool)
  | number (value : Number)
  | text (value : String)
  | list (items : List Value)
  | object (members : List (String × Value))
deriving Inhabited

/-- A control character as an escape by four hexadecimal digits. -/
def unitEscape (c : Char) : Text :=
  ['\\', 'u', '0', '0', Nat.digitChar (c.toNat / 16), Nat.digitChar (c.toNat % 16)]

def escapedChar (c : Char) : Text :=
  if c = '"' then ['\\', '"']
  else if c = '\\' then ['\\', '\\']
  else if c = '\x08' then ['\\', 'b']
  else if c = '\x0c' then ['\\', 'f']
  else if c = '\n' then ['\\', 'n']
  else if c = '\r' then ['\\', 'r']
  else if c = '\t' then ['\\', 't']
  else if c.toNat < 0x20 then unitEscape c
  else [c]

def renderString (value : String) : Text :=
  '"' :: value.toList.flatMap escapedChar ++ ['"']

mutual

def Value.render : Value → Text
  | .null => "null".toList
  | .boolean true => "true".toList
  | .boolean false => "false".toList
  | .number value => value.toText
  | .text value => renderString value
  | .list items => '[' :: renderItems items
  | .object members => '\x7b' :: renderMembers members

/-- The items of a list, with commas between them, and the closing bracket. -/
def renderItems : List Value → Text
  | [] => [']']
  | [item] => item.render ++ [']']
  | item :: next :: rest => item.render ++ ',' :: renderItems (next :: rest)

/-- The members of an object, with commas between them, and the closing brace. -/
def renderMembers : List (String × Value) → Text
  | [] => ['\x7d']
  | [(key, value)] => renderString key ++ ':' :: (value.render ++ ['\x7d'])
  | (key, value) :: next :: rest =>
      renderString key ++ ':' :: (value.render ++ ',' :: renderMembers (next :: rest))

end

def Value.natural (value : Nat) : Value :=
  .number (.natural value)

end SourceAnnotations.Json
