import SourceAnnotations.Proofs.Text.Coordinates

/-!
# Insertions

What is inserted into a text leaves the locations up to its place and shifts those behind it.  The
lines that follow go down by the line feeds inserted.  The rest of the line of the place goes along
behind the last line inserted: further to the right when nothing but this line is inserted, and
otherwise down to the line that begins with it.  Deleting as many characters at the place gives back
the index from before.
-/

namespace SourceAnnotations

/-! ## Shifted locations -/

namespace Location

/-- Where a location at or behind `place` comes to lie when a text is inserted at `place`. -/
def shifted (location place : Location) (inserted : Text) : Location where
  line := location.line + inserted.count '\n'
  column :=
    if place.line < location.line then
      location.column
    else if '\n' ∈ inserted then
      (Text.lastLine inserted).length + (location.column - place.column)
    else
      location.column + inserted.length

/-- The three ways in which a part inserted before `middle` moves the end of `middle`. -/
theorem shifted_append (front inserted middle : Text) :
    shifted ⟨(front ++ middle).count '\n', (Text.lastLine (front ++ middle)).length⟩
        ⟨front.count '\n', (Text.lastLine front).length⟩ inserted =
      ⟨(front ++ inserted ++ middle).count '\n',
        (Text.lastLine (front ++ inserted ++ middle)).length⟩ := by
  have lines : (front ++ middle).count '\n' + inserted.count '\n' =
      (front ++ inserted ++ middle).count '\n' := by
    simp only [List.count_append]
    omega
  rw [shifted, lines, Location.mk.injEq]
  refine ⟨rfl, ?_⟩
  dsimp only
  by_cases onLaterLine : '\n' ∈ middle
  · have later : front.count '\n' < (front ++ middle).count '\n' := by
      simpa using onLaterLine
    rw [if_pos later, Text.lastLine_append_of_mem onLaterLine,
      Text.lastLine_append_of_mem onLaterLine]
  · have sameLine : ¬ front.count '\n' < (front ++ middle).count '\n' := by
      simpa using onLaterLine
    rw [if_neg sameLine, Text.lastLine_append onLaterLine, Text.lastLine_append onLaterLine]
    by_cases broken : '\n' ∈ inserted
    · rw [if_pos broken, Text.lastLine_append_of_mem broken]
      simp only [List.length_append]
      omega
    · rw [if_neg broken, Text.lastLine_append broken]
      simp only [List.length_append]
      omega

end Location

namespace LineIndex

/-! ## Locations by parts -/

/-- The characters before a byte tell its location. -/
theorem locationAt_eq (text : Text) (byte : Nat) :
    (ofText text).locationAt byte =
      ⟨(text.take (text.charsBefore byte)).count '\n',
        (Text.lastLine (text.take (text.charsBefore byte))).length⟩ := by
  have chars : Text.charsBefore
      (text.take (text.charsBefore byte) ++ text.drop (text.charsBefore byte)) byte =
        (text.take (text.charsBefore byte)).length := by
    rw [List.take_append_drop, List.length_take_of_le (text.charsBefore_le_length byte)]
  have location := locationAt_of_charsBefore chars
  rwa [List.take_append_drop] at location

/-- Up to the end of a part of the text, locations do not depend on what follows the part. -/
theorem locationAt_append_of_le {front : Text} {byte : Nat} (within : byte ≤ front.byteSize)
    (rest rest' : Text) :
    (ofText (front ++ rest)).locationAt byte = (ofText (front ++ rest')).locationAt byte := by
  have chars : front.charsBefore byte ≤ front.length := front.charsBefore_le_length byte
  rw [locationAt_eq, locationAt_eq, Text.charsBefore_append_of_le within,
    Text.charsBefore_append_of_le within, List.take_append_of_le_length chars,
    List.take_append_of_le_length chars]

/-- Behind a part of the text, the part and what follows it before the byte tell the location. -/
theorem locationAt_byteSize_add (front rest : Text) (byte : Nat) :
    (ofText (front ++ rest)).locationAt (front.byteSize + byte) =
      ⟨(front ++ rest.take (rest.charsBefore byte)).count '\n',
        (Text.lastLine (front ++ rest.take (rest.charsBefore byte))).length⟩ := by
  rw [locationAt_eq, Text.charsBefore_byteSize_add, List.take_length_add_append]

/-! ## Locations behind an insertion -/

theorem locationAt_insert_behind (front inserted rest : Text) (byte : Nat) :
    (ofText (front ++ inserted ++ rest)).locationAt (front.byteSize + byte + inserted.byteSize) =
      ((ofText (front ++ rest)).locationAt (front.byteSize + byte)).shifted
        ((ofText (front ++ rest)).locationAt front.byteSize) inserted := by
  have place : (ofText (front ++ rest)).locationAt front.byteSize =
      ⟨front.count '\n', (Text.lastLine front).length⟩ :=
    locationAt_of_charsBefore (Text.charsBefore_byteSize_append front rest)
  have size : front.byteSize + byte + inserted.byteSize = (front ++ inserted).byteSize + byte := by
    rw [Text.byteSize_append]
    omega
  rw [size, place, locationAt_byteSize_add, locationAt_byteSize_add, Location.shifted_append]

/-! ## Undoing an insertion -/

theorem delete_insert (index : LineIndex) {offset : Nat} (within : offset ≤ index.charCount)
    (inserted : Text) : (index.insert offset inserted).delete offset inserted.length = index := by
  obtain ⟨text⟩ := index
  obtain ⟨front, rest, rfl, rfl⟩ := Text.exists_split_of_le within
  have kept : (front ++ inserted ++ rest).take front.length = front := by
    rw [List.append_assoc, List.take_left]
  have behind : (front ++ inserted ++ rest).drop (front.length + inserted.length) = rest := by
    rw [← List.length_append, List.drop_left]
  simp only [insert, delete, List.take_left, List.drop_left, kept, behind]

/-- An offset past the end counts as the end. -/
theorem insert_min (index : LineIndex) (offset : Nat) (inserted : Text) :
    index.insert (min offset index.charCount) inserted = index.insert offset inserted := by
  rcases Nat.le_total offset index.charCount with within | beyond
  · rw [Nat.min_eq_left within]
  · rw [Nat.min_eq_right beyond, insert, insert, charCount, List.take_length, List.drop_length,
      List.take_of_length_le beyond, List.drop_of_length_le beyond]

/-! ## What an insertion does -/

/-- An insertion leaves the locations up to its place and shifts those behind it, and deleting what
has been inserted undoes it. -/
theorem insertions_shift_what_is_behind (index : LineIndex) (offset : Nat) (inserted : Text) :
    let place := index.byteOfChar offset
    let edited := index.insert offset inserted
    (∀ byte ≤ place, edited.locationAt byte = index.locationAt byte) ∧
      (∀ byte ≥ place,
        (index.locationAt place).isAtOrBefore (index.locationAt byte) ∧
          edited.locationAt (byte + inserted.byteSize) =
            (index.locationAt byte).shifted (index.locationAt place) inserted) ∧
      edited.delete (min offset index.charCount) inserted.length = index := by
  intro place edited
  obtain ⟨text⟩ := index
  have split : text.take offset ++ text.drop offset = text := List.take_append_drop offset text
  refine ⟨fun byte within => ?_, fun byte behind => ⟨locationAt_mono behind, ?_⟩, ?_⟩
  · have frame := locationAt_append_of_le within (inserted ++ text.drop offset) (text.drop offset)
    rwa [split, ← List.append_assoc] at frame
  · obtain ⟨extra, rfl⟩ := Nat.exists_eq_add_of_le behind
    have shift := locationAt_insert_behind (text.take offset) inserted (text.drop offset) extra
    rwa [split] at shift
  · have restored := delete_insert ⟨text⟩ (Nat.min_le_right offset (charCount ⟨text⟩)) inserted
    rwa [insert_min] at restored

/-- The carriage return goes along behind the last line inserted, the letters of the next line only
go down, and the first character, of two bytes, stays. -/
theorem insertions_shift_what_is_behind_two_lines :
    let index := ofText ['é', '\r', '\n', 'a', 'b']
    let edited := index.insert 1 ['x', '\n', '😀']
    edited.locationAt 1 = index.locationAt 1 ∧
      edited.locationAt 8 = ⟨1, 1⟩ ∧
      edited.locationAt 11 = ⟨2, 1⟩ ∧
      edited.delete 1 3 = index := by
  intro index edited
  obtain ⟨kept, shifted, restored⟩ :=
    insertions_shift_what_is_behind index 1 ['x', '\n', '😀']
  refine ⟨kept 1 (by decide), ?_, ?_, restored⟩
  · exact (shifted 2 (by decide)).2.trans (by decide)
  · exact (shifted 5 (by decide)).2.trans (by decide)

end LineIndex

end SourceAnnotations
