import SourceAnnotations.Text.Visible

/-!
# Quoted texts

A text between double quotes as it stands in a message. The quote, the backslash and the four named
control characters are escaped by a backslash and a letter, every other hidden character by its code
point; a single quote stays as it is.
-/

namespace SourceAnnotations.Text

def quotedChar (c : Char) : Text :=
  if c = '\x00' then ['\\', '0']
  else if c = '\t' then ['\\', 't']
  else if c = '\n' then ['\\', 'n']
  else if c = '\r' then ['\\', 'r']
  else if c = '"' then ['\\', '"']
  else if c = '\\' then ['\\', '\\']
  else if isVisible c then [c]
  else ['\\', 'u', '\x7b'] ++ Nat.toDigits 16 c.toNat ++ ['\x7d']

def quoted (text : Text) : Text :=
  '"' :: text.flatMap quotedChar ++ ['"']

end SourceAnnotations.Text
