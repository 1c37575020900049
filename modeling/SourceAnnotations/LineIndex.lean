import SourceAnnotations.Region.Basic
import SourceAnnotations.Text.Basic

/-!
# Line index

The index of a text answers where a byte or a character lies: on which line, and in which column of
it. Only a line feed ends a line, so a carriage return before it is the last character of its line.
Every offset past the end counts as the end, and a byte offset inside a character counts as the
start of that character wherever characters are counted. The index follows edits of its text.
-/

namespace SourceAnnotations

structure LineIndex where
  text : Text
deriving DecidableEq, Repr

namespace LineIndex

def ofText (text : Text) : LineIndex := ⟨text⟩

/-! ## Sizes -/

/-- The number of lines; a text that ends in a line feed has an empty last line. -/
def lineCount (index : LineIndex) : Nat :=
  index.text.count '\n' + 1

def charCount (index : LineIndex) : Nat :=
  index.text.length

def byteCount (index : LineIndex) : Nat :=
  index.text.byteSize

/-! ## Conversions -/

/-- The byte at which the character `offset` starts. -/
def byteOfChar (index : LineIndex) (offset : Nat) : Nat :=
  Text.byteSize (index.text.take offset)

/-- The number of characters before byte `byte`. -/
def charOfByte (index : LineIndex) (byte : Nat) : Nat :=
  index.text.charsBefore byte

/-- The line on which byte `byte` lies. -/
def lineOfByte (index : LineIndex) (byte : Nat) : Nat :=
  (index.text.take (index.charOfByte byte)).count '\n'

/-- The character at which line `line` starts. -/
def charOfLine (index : LineIndex) (line : Nat) : Nat :=
  index.text.lineStart line

/-- The byte at which line `line` starts. -/
def byteOfLine (index : LineIndex) (line : Nat) : Nat :=
  index.byteOfChar (index.charOfLine line)

/-! ## Lines and columns -/

/-- The line of byte `byte`, and the number of bytes between the start of the line and it. -/
def byteColumn (index : LineIndex) (byte : Nat) : Nat × Nat :=
  let byte := min byte index.byteCount
  let line := index.lineOfByte byte
  (line, byte - index.byteOfLine line)

/-- The line of the character `offset`, and the number of bytes between the start of the line and
it. -/
def charByteColumn (index : LineIndex) (offset : Nat) : Nat × Nat :=
  index.byteColumn (index.byteOfChar offset)

/-- The line of byte `byte`, and the number of characters between the start of the line and it. -/
def locationAt (index : LineIndex) (byte : Nat) : Location :=
  let line := index.lineOfByte byte
  ⟨line, index.charOfByte byte - index.charOfLine line⟩

/-- The region of the bytes from `start` up to `stop`; a reversed range is the empty one at
`start`. -/
def region (index : LineIndex) (start stop : Nat) : Region :=
  let stop := max stop start
  ⟨index.locationAt start, index.locationAt stop,
    min start index.byteCount, min stop index.byteCount⟩

/-! ## Edits -/

/-- The index of the text with `inserted` put before the character `offset`. -/
def insert (index : LineIndex) (offset : Nat) (inserted : Text) : LineIndex :=
  ⟨index.text.take offset ++ inserted ++ index.text.drop offset⟩

/-- The index of the text without the `count` characters from `start` on. -/
def delete (index : LineIndex) (start count : Nat) : LineIndex :=
  ⟨index.text.take start ++ index.text.drop (start + count)⟩

end LineIndex

end SourceAnnotations
