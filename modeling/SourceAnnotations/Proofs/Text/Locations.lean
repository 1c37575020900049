import SourceAnnotations.LineIndex

/-!
# Locations of bytes

The location of a byte does not come before that of an earlier byte.  Past the end of the text all
bytes have the location of the end.
-/

namespace SourceAnnotations

/-! ## Characters before a byte -/

namespace Text

theorem charsBefore_mono {low high : Nat} (text : Text) (ordered : low ≤ high) :
    text.charsBefore low ≤ text.charsBefore high := by
  induction text generalizing low high with
  | nil => exact Nat.le_refl _
  | cons head tail inductionHypothesis =>
      rw [charsBefore, charsBefore]
      by_cases fits : head.utf8Size ≤ low
      · rw [if_pos fits, if_pos (Nat.le_trans fits ordered)]
        exact Nat.succ_le_succ (inductionHypothesis (Nat.sub_le_sub_right ordered _))
      · rw [if_neg fits]
        exact Nat.zero_le _

/-- An offset past the end counts as the end. -/
theorem charsBefore_min (text : Text) (byte : Nat) :
    text.charsBefore (min byte text.byteSize) = text.charsBefore byte := by
  induction text generalizing byte with
  | nil => rfl
  | cons head tail inductionHypothesis =>
      rw [charsBefore, charsBefore, byteSize]
      by_cases fits : head.utf8Size ≤ byte
      · have fitsMin : head.utf8Size ≤ min byte (head.utf8Size + byteSize tail) := by omega
        have rest :
            min byte (head.utf8Size + byteSize tail) - head.utf8Size =
              min (byte - head.utf8Size) (byteSize tail) := by
          omega
        rw [if_pos fits, if_pos fitsMin, rest, inductionHypothesis]
      · have fitsNot : ¬ head.utf8Size ≤ min byte (head.utf8Size + byteSize tail) := by omega
        rw [if_neg fits, if_neg fitsNot]

end Text

/-! ## The order of locations -/

namespace Location

theorem isAtOrBefore_iff {left right : Location} :
    left.isAtOrBefore right ↔
      left.line < right.line ∨ left.line = right.line ∧ left.column ≤ right.column := by
  change ((compare left.line right.line).then (compare left.column right.column)).isLE ↔ _
  rw [Nat.compare_eq_ite_lt, Nat.compare_eq_ite_lt]
  grind [Ordering.then, Ordering.isLE]

end Location

namespace LineIndex

theorem byteOfChar_append {front : Text} {offset : Nat} (rest : Text)
    (size : front.length = offset) :
    (ofText (front ++ rest)).byteOfChar offset = front.byteSize := by
  rw [byteOfChar, ofText, ← size, List.take_left]

variable (index : LineIndex)

theorem locationAt_min (byte : Nat) :
    index.locationAt (min byte index.byteCount) = index.locationAt byte := by
  have chars : index.charOfByte (min byte index.byteCount) = index.charOfByte byte :=
    Text.charsBefore_min index.text byte
  rw [locationAt, locationAt, lineOfByte, lineOfByte, chars]

variable {index}

theorem locationAt_mono {low high : Nat} (ordered : low ≤ high) :
    (index.locationAt low).isAtOrBefore (index.locationAt high) := by
  have chars : index.charOfByte low ≤ index.charOfByte high :=
    Text.charsBefore_mono index.text ordered
  have lines : index.lineOfByte low ≤ index.lineOfByte high :=
    (List.take_sublist_take_left chars).count_le '\n'
  rw [Location.isAtOrBefore_iff]
  rcases Nat.lt_or_eq_of_le lines with before | same
  · exact .inl before
  · refine .inr ⟨same, ?_⟩
    rw [locationAt, locationAt, same]
    exact Nat.sub_le_sub_right chars _

/-- A byte with a location before another's comes before the other. -/
theorem lt_of_not_isAtOrBefore {low high : Nat}
    (before : ¬ (index.locationAt low).isAtOrBefore (index.locationAt high)) : high < low :=
  Nat.lt_of_not_le fun ordered => before (locationAt_mono ordered)

end LineIndex

end SourceAnnotations
