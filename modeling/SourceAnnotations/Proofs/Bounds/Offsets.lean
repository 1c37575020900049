import SourceAnnotations.Proofs.Text.Coordinates

/-!
# Offsets within their range

A cut is made at a character boundary, a conversion is asked for what lies in the text, a difference
takes the smaller number from the greater, and a part ends within its text.  The steps here are
checked: each gives nothing where it is out of its range.  Checked locations and regions are there
for all offsets, because offsets past the end are brought back to it first, and because no line
starts behind a character that is on it.
-/

namespace SourceAnnotations

/-- The difference of two numbers of which the second is not the greater. -/
def difference? (high low : Nat) : Option Nat :=
  if low ≤ high then some (high - low) else none

/-- The number after one that lies below a bound. -/
def successor? (bound number : Nat) : Option Nat :=
  if number < bound then some (number + 1) else none

/-- The end of a part that begins at an offset and ends within the text. -/
def Text.endOfPart? (text : Text) (start : Nat) (part : Text) : Option Nat :=
  if start + part.byteSize ≤ text.byteSize then some (start + part.byteSize) else none

theorem Text.endOfPart?_of_slice? {text slice part : Text} {start stop : Nat}
    (sliced : text.slice? start stop = some slice) (within : part.byteSize ≤ slice.byteSize) :
    text.endOfPart? start part = some (start + part.byteSize) := by
  obtain ⟨front, rest, split, atStart, _⟩ := Text.slice?_eq_some_iff.mp sliced
  apply if_pos
  rw [split, byteSize_append, byteSize_append, atStart]
  omega

namespace LineIndex

/-! ## Checked conversions -/

/-- The line of a byte of the text or of its end. -/
def checkedLineOfByte? (index : LineIndex) (byte : Nat) : Option Nat :=
  if byte ≤ index.byteCount then some (index.lineOfByte byte) else none

/-- The number of characters before a byte of the text or its end. -/
def checkedCharOfByte? (index : LineIndex) (byte : Nat) : Option Nat :=
  if byte ≤ index.byteCount then some (index.charOfByte byte) else none

/-- The first character of a line of the text, or the end behind the last line. -/
def checkedCharOfLine? (index : LineIndex) (line : Nat) : Option Nat :=
  if line ≤ index.lineCount then some (index.charOfLine line) else none

def checkedLocationAt? (index : LineIndex) (byte : Nat) : Option Location := do
  let byte := min byte index.byteCount
  let line ← index.checkedLineOfByte? byte
  let char ← index.checkedCharOfByte? byte
  let start ← index.checkedCharOfLine? line
  let column ← difference? char start
  return ⟨line, column⟩

def checkedRegion? (index : LineIndex) (start stop : Nat) : Option Region := do
  let stop := max stop start
  let first ← index.checkedLocationAt? start
  let last ← index.checkedLocationAt? stop
  return ⟨first, last, min start index.byteCount, min stop index.byteCount⟩

/-! ## No conversion is out of range -/

variable (index : LineIndex) (byte : Nat)

theorem lineOfByte_lt_lineCount : index.lineOfByte byte < index.lineCount := by
  apply Nat.lt_succ_of_le
  exact (List.take_sublist _ _).count_le '\n'

/-- The line of a byte does not start behind the character that the byte is in. -/
theorem charOfLine_lineOfByte_le :
    index.charOfLine (index.lineOfByte byte) ≤ index.charOfByte byte := by
  have within : index.charOfByte byte ≤ index.text.length := Text.charsBefore_le_length _ _
  obtain ⟨before, split, start⟩ :=
    Text.exists_before_lastLine (index.text.take (index.charOfByte byte))
      (index.text.drop (index.charOfByte byte))
  rw [List.take_append_drop] at start
  have shorter := congrArg List.length split
  rw [List.length_take_of_le within, List.length_append] at shorter
  rw [charOfLine, lineOfByte, start]
  omega

@[simp]
theorem checkedLocationAt?_eq : index.checkedLocationAt? byte = some (index.locationAt byte) := by
  have within : min byte index.byteCount ≤ index.byteCount := Nat.min_le_right _ _
  have isLine := Nat.le_of_lt (index.lineOfByte_lt_lineCount (min byte index.byteCount))
  have started := index.charOfLine_lineOfByte_le (min byte index.byteCount)
  rw [← index.locationAt_min byte]
  simp only [checkedLocationAt?, checkedLineOfByte?, checkedCharOfByte?, checkedCharOfLine?,
    difference?, if_pos within, if_pos isLine, if_pos started, Option.bind_eq_bind,
    Option.bind_some, Option.pure_def, locationAt]

@[simp]
theorem checkedRegion?_eq (start stop : Nat) :
    index.checkedRegion? start stop = some (index.region start stop) := by
  simp [checkedRegion?, region]

end LineIndex

end SourceAnnotations
