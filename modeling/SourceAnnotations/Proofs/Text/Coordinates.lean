import Mathlib.Data.List.Induction
import SourceAnnotations.Proofs.Text.Lines
import SourceAnnotations.Proofs.Text.Locations

/-!
# Coordinates

A cut between two characters of a text has an offset in characters, an offset in bytes, and a line
with a column in either unit.  The part of the text before the cut tells them all: its length, its
size in bytes, the number of its line feeds, and the length and the size of its last line.  A byte
inside a character has the location at which the character starts, and what lies past the end has
the coordinates of the end.  So locations are in the order of the bytes, and the cuts of a text have
locations of their own.
-/

namespace SourceAnnotations

/-! ## Starts of lines -/

namespace Text

/-- Behind a line feed a line starts. -/
theorem lineStart_append_cons (body rest : Text) :
    lineStart (body ++ '\n' :: rest) (body.count '\n' + 1) = body.length + 1 := by
  induction body with
  | nil =>
      rw [List.nil_append, List.count_nil, lineStart, if_pos rfl, lineStart]
      rfl
  | cons head tail inductionHypothesis =>
      rw [List.cons_append, List.length_cons]
      by_cases isBreak : head = '\n'
      · rw [isBreak, List.count_cons_self, lineStart, if_pos rfl, inductionHypothesis]
      · rw [List.count_cons_of_ne isBreak, lineStart, if_neg isBreak, inductionHypothesis]

/-- The line of a cut starts where the last line of the part before the cut does. -/
theorem exists_before_lastLine (front rest : Text) :
    ∃ before, front = before ++ lastLine front ∧
      lineStart (front ++ rest) (front.count '\n') = before.length := by
  induction front using List.reverseRecOn generalizing rest with
  | nil => exact ⟨[], rfl, by rw [List.count_nil, lineStart, List.length_nil]⟩
  | append_singleton front c inductionHypothesis =>
      rw [List.append_assoc, List.singleton_append, List.count_append]
      by_cases isBreak : c = '\n'
      · have empty : lastLine (front ++ [c]) = [] := by
          rw [lastLine, List.reverse_concat, isBreak]
          rfl
        refine ⟨front ++ [c], by rw [empty, List.append_nil], ?_⟩
        rw [isBreak, List.count_singleton_self, lineStart_append_cons, List.length_append,
          List.length_singleton]
      · have inLine : '\n' ∉ [c] := fun member => isBreak (List.mem_singleton.mp member).symm
        obtain ⟨before, split, start⟩ := inductionHypothesis (c :: rest)
        refine ⟨before, ?_, ?_⟩
        · rw [lastLine_append inLine, ← List.append_assoc, ← split]
        · rw [List.count_eq_zero_of_not_mem inLine, Nat.add_zero, start]

end Text

namespace Location

/-- One location comes before another. -/
def IsBefore (left right : Location) : Prop :=
  compare left right = .lt

theorem isBefore_iff {left right : Location} :
    left.IsBefore right ↔
      left.line < right.line ∨ left.line = right.line ∧ left.column < right.column := by
  change (compare left.line right.line).then (compare left.column right.column) = .lt ↔ _
  rw [Ordering.then_eq_lt, Nat.compare_eq_lt, Nat.compare_eq_eq, Nat.compare_eq_lt]

theorem IsBefore.ne {left right : Location} (before : left.IsBefore right) : left ≠ right := by
  rintro rfl
  rcases isBefore_iff.mp before with line | ⟨_, column⟩
  · exact Nat.lt_irrefl _ line
  · exact Nat.lt_irrefl _ column

end Location

namespace LineIndex

variable {front rest : Text} {byte : Nat}

/-- The location of a byte of the character behind a cut. -/
theorem locationAt_of_charsBefore
    (chars : Text.charsBefore (front ++ rest) byte = front.length) :
    (ofText (front ++ rest)).locationAt byte =
      ⟨front.count '\n', (Text.lastLine front).length⟩ := by
  obtain ⟨before, split, start⟩ := Text.exists_before_lastLine front rest
  have column : front.length - before.length = (Text.lastLine front).length := by
    have size := congrArg List.length split
    rw [List.length_append] at size
    omega
  rw [locationAt, Text.lineOfByte_of_charsBefore chars, ← column, ← start, ← chars]
  rfl

theorem byteColumn_byteSize (front rest : Text) :
    (ofText (front ++ rest)).byteColumn front.byteSize =
      (front.count '\n', (Text.lastLine front).byteSize) := by
  obtain ⟨before, split, start⟩ := Text.exists_before_lastLine front rest
  have within : min front.byteSize (ofText (front ++ rest)).byteCount = front.byteSize := by
    refine Nat.min_eq_left ?_
    change front.byteSize ≤ (front ++ rest).byteSize
    rw [Text.byteSize_append]
    exact Nat.le_add_right _ _
  have lineByte : (ofText (front ++ rest)).byteOfLine (front.count '\n') = before.byteSize := by
    change Text.byteSize ((front ++ rest).take ((front ++ rest).lineStart (front.count '\n'))) = _
    rw [start, split, List.append_assoc, List.take_left]
  have column : front.byteSize - before.byteSize = (Text.lastLine front).byteSize := by
    have size := congrArg Text.byteSize split
    rw [Text.byteSize_append] at size
    omega
  rw [byteColumn, within, Text.lineOfByte_of_charsBefore (Text.charsBefore_byteSize_append _ _),
    lineByte, column]

/-- A byte of the character behind a cut has the location of the cut. -/
theorem locationAt_within {c : Char} (behind : front.byteSize ≤ byte)
    (before : byte < (front ++ [c]).byteSize) :
    (ofText (front ++ c :: rest)).locationAt byte =
      (ofText (front ++ c :: rest)).locationAt front.byteSize := by
  obtain ⟨inside, rfl⟩ := Nat.exists_eq_add_of_le behind
  rw [Text.byteSize_append, Nat.add_lt_add_iff_left] at before
  have chars : Text.charsBefore (front ++ c :: rest) (front.byteSize + inside) = front.length := by
    rw [Text.charsBefore_byteSize_add, Text.charsBefore_cons_of_lt before, Nat.add_zero]
  rw [locationAt_of_charsBefore chars,
    locationAt_of_charsBefore (Text.charsBefore_byteSize_append _ _)]

/-- A later cut has a later location: it has more line feeds before it, or it is on the same line
and more of that line lies before it. -/
theorem locationAt_isBefore {middle : Text} (nonempty : middle ≠ []) :
    ((ofText (front ++ (middle ++ rest))).locationAt front.byteSize).IsBefore
      ((ofText (front ++ (middle ++ rest))).locationAt (front ++ middle).byteSize) := by
  have here := locationAt_of_charsBefore
    (Text.charsBefore_byteSize_append front (middle ++ rest))
  have later := locationAt_of_charsBefore
    (Text.charsBefore_byteSize_append (front ++ middle) rest)
  rw [List.append_assoc] at later
  rw [here, later, Location.isBefore_iff]
  by_cases broken : '\n' ∈ middle
  · left
    rw [List.count_append]
    exact Nat.lt_add_of_pos_right (List.count_pos_iff.mpr broken)
  · right
    rw [Text.lastLine_append broken, List.length_append]
    exact ⟨Text.count_eq_count_append_iff.mpr broken,
      Nat.lt_add_of_pos_right (List.length_pos_iff.mpr nonempty)⟩

/-! ## Offsets in characters -/

variable {text : Text} {offset later : Nat}

theorem locationAt_byteOfChar (within : offset ≤ text.length) :
    (ofText text).locationAt ((ofText text).byteOfChar offset) =
      ⟨(text.take offset).count '\n', (Text.lastLine (text.take offset)).length⟩ := by
  obtain ⟨front, rest, rfl, size⟩ := Text.exists_split_of_le within
  rw [byteOfChar_append rest size, ← size, List.take_left]
  exact locationAt_of_charsBefore (Text.charsBefore_byteSize_append front rest)

theorem charByteColumn_eq (within : offset ≤ text.length) :
    (ofText text).charByteColumn offset =
      ((text.take offset).count '\n', (Text.lastLine (text.take offset)).byteSize) := by
  obtain ⟨front, rest, rfl, size⟩ := Text.exists_split_of_le within
  rw [charByteColumn, byteOfChar_append rest size, ← size, List.take_left]
  exact byteColumn_byteSize front rest

/-- The bytes from the start of a character up to that of the next one have its location. -/
theorem locationAt_of_inside (behind : (ofText text).byteOfChar offset ≤ byte)
    (before : byte < (ofText text).byteOfChar (offset + 1)) :
    (ofText text).locationAt byte =
      (ofText text).locationAt ((ofText text).byteOfChar offset) := by
  have within : offset < text.length := by
    by_contra beyond
    rw [Nat.not_lt] at beyond
    have atEnd : (ofText text).byteOfChar (offset + 1) = (ofText text).byteOfChar offset := by
      rw [byteOfChar, byteOfChar, ofText, List.take_of_length_le beyond,
        List.take_of_length_le (Nat.le_succ_of_le beyond)]
    rw [atEnd] at before
    exact Nat.not_lt_of_le behind before
  obtain ⟨front, middle, rest, rfl, _, size, sizeNext⟩ :=
    Text.exists_split_of_lt (Nat.lt_succ_self offset) within
  obtain ⟨c, rfl⟩ : ∃ c, middle = [c] := by
    rw [List.length_append, size] at sizeNext
    exact List.length_eq_one_iff.mp (Nat.add_left_cancel sizeNext)
  rw [byteOfChar_append _ size] at behind ⊢
  rw [← List.append_assoc, byteOfChar_append rest sizeNext] at before
  exact locationAt_within behind before

theorem byteOfChar_lt (ordered : offset < later) (within : later ≤ text.length) :
    (ofText text).byteOfChar offset < (ofText text).byteOfChar later := by
  obtain ⟨front, middle, rest, rfl, nonempty, size, sizeLater⟩ :=
    Text.exists_split_of_lt ordered within
  rw [byteOfChar_append _ size, ← List.append_assoc, byteOfChar_append rest sizeLater,
    Text.byteSize_append]
  exact Nat.lt_add_of_pos_right (Text.byteSize_pos nonempty)

theorem locationAt_byteOfChar_isBefore (ordered : offset < later) (within : later ≤ text.length) :
    ((ofText text).locationAt ((ofText text).byteOfChar offset)).IsBefore
      ((ofText text).locationAt ((ofText text).byteOfChar later)) := by
  obtain ⟨front, middle, rest, rfl, nonempty, size, sizeLater⟩ :=
    Text.exists_split_of_lt ordered within
  have laterByte : (ofText (front ++ (middle ++ rest))).byteOfChar later =
      (front ++ middle).byteSize := by
    rw [← List.append_assoc]
    exact byteOfChar_append rest sizeLater
  rw [byteOfChar_append _ size, laterByte]
  exact locationAt_isBefore nonempty

/-! ## Past the end -/

theorem byteOfChar_of_length_le (beyond : text.length ≤ offset) :
    (ofText text).byteOfChar offset = (ofText text).byteCount :=
  congrArg Text.byteSize (List.take_of_length_le beyond)

theorem charByteColumn_of_length_le (beyond : text.length ≤ offset) :
    (ofText text).charByteColumn offset = (ofText text).charByteColumn text.length := by
  have atEnd : (ofText text).byteOfChar text.length = (ofText text).byteCount :=
    byteOfChar_of_length_le (Nat.le_refl _)
  rw [charByteColumn, charByteColumn, byteOfChar_of_length_le beyond, atEnd]

theorem locationAt_of_byteCount_le {index : LineIndex} (beyond : index.byteCount ≤ byte) :
    index.locationAt byte = index.locationAt index.byteCount := by
  rw [← locationAt_min, Nat.min_eq_right beyond]

theorem byteColumn_of_byteCount_le {index : LineIndex} (beyond : index.byteCount ≤ byte) :
    index.byteColumn byte = index.byteColumn index.byteCount := by
  rw [byteColumn, byteColumn, Nat.min_eq_right beyond, Nat.min_self]

/-! ## Agreement -/

/-- A text tells the coordinates of its cuts by the parts before them, of other bytes by the
characters that they lie in, and of what lies past the end by the end.  Bytes, characters and
locations thus go up together. -/
theorem coordinates_agree (text : Text) :
    let index := ofText text
    (∀ offset ≤ index.charCount,
      index.locationAt (index.byteOfChar offset) =
          ⟨(text.take offset).count '\n', (Text.lastLine (text.take offset)).length⟩ ∧
        index.charByteColumn offset =
          ((text.take offset).count '\n', (Text.lastLine (text.take offset)).byteSize) ∧
        ∀ byte, index.byteOfChar offset ≤ byte → byte < index.byteOfChar (offset + 1) →
          index.locationAt byte = index.locationAt (index.byteOfChar offset)) ∧
    (∀ offset ≥ index.charCount,
      index.byteOfChar offset = index.byteCount ∧
        index.charByteColumn offset = index.charByteColumn index.charCount) ∧
    (∀ byte ≥ index.byteCount,
      index.locationAt byte = index.locationAt index.byteCount ∧
        index.byteColumn byte = index.byteColumn index.byteCount) ∧
    (∀ offset later, offset < later → later ≤ index.charCount →
      index.byteOfChar offset < index.byteOfChar later ∧
        (index.locationAt (index.byteOfChar offset)).IsBefore
          (index.locationAt (index.byteOfChar later))) ∧
    (∀ low high, low ≤ high → (index.locationAt low).isAtOrBefore (index.locationAt high)) ∧
    ∀ offset ≤ index.charCount, ∀ other ≤ index.charCount,
      index.locationAt (index.byteOfChar offset) = index.locationAt (index.byteOfChar other) →
        offset = other := by
  intro index
  refine ⟨fun offset within => ⟨locationAt_byteOfChar within, charByteColumn_eq within,
      fun byte behind before => locationAt_of_inside behind before⟩,
    fun offset beyond => ⟨byteOfChar_of_length_le beyond, charByteColumn_of_length_le beyond⟩,
    fun byte beyond => ⟨locationAt_of_byteCount_le beyond, byteColumn_of_byteCount_le beyond⟩,
    fun offset later ordered within => ⟨byteOfChar_lt ordered within,
      locationAt_byteOfChar_isBefore ordered within⟩,
    fun low high ordered => locationAt_mono ordered, ?_⟩
  intro offset within other within' same
  rcases Nat.lt_trichotomy offset other with before | equal | behind
  · have isBefore := locationAt_byteOfChar_isBefore before within'
    exact absurd same isBefore.ne
  · exact equal
  · have isBefore := locationAt_byteOfChar_isBefore behind within
    exact absurd same.symm isBefore.ne

/-- A carriage return is a character of its line, and the seventh byte lies in a character of four
bytes. -/
theorem coordinates_agree_two_lines :
    let index := ofText ['a', 'é', '\r', '\n', '😀', 'b']
    (index.locationAt (index.byteOfChar 3) = ⟨0, 3⟩ ∧ index.charByteColumn 3 = (0, 4)) ∧
      index.locationAt 7 = index.locationAt (index.byteOfChar 4) ∧
      index.charByteColumn 9 = index.charByteColumn 6 ∧
      index.locationAt 40 = index.locationAt 10 ∧
      (index.locationAt (index.byteOfChar 3)).IsBefore (index.locationAt (index.byteOfChar 4)) ∧
      (index.locationAt 2).isAtOrBefore (index.locationAt 3) := by
  obtain ⟨cuts, pastEnd, pastLastByte, ordered, mono, _⟩ :=
    coordinates_agree ['a', 'é', '\r', '\n', '😀', 'b']
  obtain ⟨location, column, _⟩ := cuts 3 (by decide)
  obtain ⟨_, _, inside⟩ := cuts 4 (by decide)
  exact ⟨⟨location, column⟩, inside 7 (by decide) (by decide), (pastEnd 9 (by decide)).2,
    (pastLastByte 40 (by decide)).1, (ordered 3 4 (by decide) (by decide)).2,
    mono 2 3 (by decide)⟩

end LineIndex

end SourceAnnotations
