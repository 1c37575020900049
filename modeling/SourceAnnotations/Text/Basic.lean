/-!
# Texts

A text is the list of its characters. Offsets into a text come in two units: characters, counted by
`List.length`, and bytes, counted by `Text.byteSize` as the UTF-8 encoding has them. A cut at a byte
offset exists only on a character boundary, so every cut by bytes is an `Option`.
-/

namespace SourceAnnotations

abbrev Text := List Char

namespace Text

/-! ## Bytes -/

/-- The number of bytes of the UTF-8 encoding. -/
def byteSize : Text → Nat
  | [] => 0
  | head :: tail => head.utf8Size + byteSize tail

/-- The text without its first `bytes` bytes, if a character boundary lies there. -/
def dropBytes? : Text → Nat → Option Text
  | text, 0 => some text
  | [], _ + 1 => none
  | head :: tail, bytes =>
      if head.utf8Size ≤ bytes then dropBytes? tail (bytes - head.utf8Size) else none

/-- The first `bytes` bytes of the text, if a character boundary lies there. -/
def takeBytes? : Text → Nat → Option Text
  | _, 0 => some []
  | [], _ + 1 => none
  | head :: tail, bytes =>
      if head.utf8Size ≤ bytes then
        (takeBytes? tail (bytes - head.utf8Size)).map (head :: ·)
      else
        none

/-- The bytes from `start` up to `stop`. There are none when the range is reversed, passes the end
or has an end inside a character. -/
def slice? (text : Text) (start stop : Nat) : Option Text :=
  if start ≤ stop then
    (dropBytes? text start).bind (takeBytes? · (stop - start))
  else
    none

/-- The text with the bytes from `start` up to `stop` replaced by `inserted`. -/
def replaceBytes? (text : Text) (start stop : Nat) (inserted : Text) : Option Text :=
  match takeBytes? text start, dropBytes? text stop with
  | some before, some after => some (before ++ inserted ++ after)
  | _, _ => none

/-- The number of characters that end at or before byte `byte`. An offset inside a character thus
counts as the start of that character, and an offset past the end as the end. -/
def charsBefore : Text → Nat → Nat
  | [], _ => 0
  | head :: tail, byte =>
      if head.utf8Size ≤ byte then charsBefore tail (byte - head.utf8Size) + 1 else 0

/-! ## Lines -/

/-- The character offset at which line `line` starts; a line past the last starts at the end. -/
def lineStart : Text → Nat → Nat
  | _, 0 => 0
  | [], _ + 1 => 0
  | head :: tail, line + 1 =>
      (if head = '\n' then lineStart tail line else lineStart tail (line + 1)) + 1

/-- The part of the text after its last line feed. -/
def lastLine (text : Text) : Text :=
  (text.reverse.takeWhile (· ≠ '\n')).reverse

/-- The text up to its first line end. A carriage return belongs to the line end only when the
line feed follows it directly. -/
def firstLine (text : Text) : Text :=
  let line := text.takeWhile (· ≠ '\n')
  match text.dropWhile (· ≠ '\n') with
  | [] => line
  | _ :: _ => if line.getLast? = some '\r' then line.dropLast else line

/-! ## Trimming -/

/-- The text without the longest ending whose characters all satisfy `unwanted`. -/
def dropEndWhile (unwanted : Char → Bool) (text : Text) : Text :=
  (text.reverse.dropWhile unwanted).reverse

/-- The text without the line feeds and carriage returns at its end. -/
def withoutLineEnd (text : Text) : Text :=
  dropEndWhile (fun c => c = '\r' || c = '\n') text

end Text

end SourceAnnotations
