import Mathlib.Data.List.DropRight
import SourceAnnotations.Comment.Collect
import SourceAnnotations.Proofs.Text.Bytes
import SourceAnnotations.Proofs.Tree.Coverage

/-!
# Lines of bytes

A byte lies in the character at which the text splits, and on the line that the line feeds before
the split count.  So the characters of a last line are those over the bytes that lie on the line of
the end, and nothing but white space stands before a byte on its line when all of these are blank.
-/

namespace SourceAnnotations

namespace Text

/-! ## Characters over bytes -/

theorem charsBefore_byteSize_add (front rest : Text) (byte : Nat) :
    charsBefore (front ++ rest) (byteSize front + byte) = front.length + charsBefore rest byte := by
  induction front with
  | nil => rw [List.nil_append, byteSize_nil, List.length_nil, Nat.zero_add, Nat.zero_add]
  | cons head tail inductionHypothesis =>
      rw [byteSize_cons, List.cons_append, Nat.add_assoc, charsBefore,
        if_pos (Nat.le_add_right _ _), Nat.add_sub_cancel_left, inductionHypothesis,
        List.length_cons, Nat.add_right_comm]

/-- Up to a byte of a character there are the characters before it. -/
theorem charsBefore_cons_of_lt {head : Char} {byte : Nat} (inside : byte < head.utf8Size)
    (tail : Text) : charsBefore (head :: tail) byte = 0 :=
  if_neg (Nat.not_le.mpr inside)

/-- Up to a cut there are the characters of the part before it. -/
theorem charsBefore_byteSize_append (front rest : Text) :
    charsBefore (front ++ rest) (byteSize front) = front.length := by
  have none : charsBefore rest 0 = 0 := by
    cases rest with
    | nil => rfl
    | cons head tail => exact charsBefore_cons_of_lt head.utf8Size_pos tail
  have chars := charsBefore_byteSize_add front rest 0
  rwa [Nat.add_zero, none, Nat.add_zero] at chars

theorem charsBefore_le_length (text : Text) (byte : Nat) : charsBefore text byte ≤ text.length := by
  induction text generalizing byte with
  | nil => simp [charsBefore]
  | cons head tail inductionHypothesis =>
      rw [charsBefore, List.length_cons]
      split
      · exact Nat.succ_le_succ (inductionHypothesis _)
      · exact Nat.zero_le _

/-- Up to a byte within a part of the text there are the characters of that part alone. -/
theorem charsBefore_append_of_le {front : Text} {byte : Nat} (within : byte ≤ byteSize front)
    (rest : Text) : charsBefore (front ++ rest) byte = charsBefore front byte := by
  induction front generalizing byte with
  | nil =>
      obtain rfl : byte = 0 := Nat.le_zero.mp within
      exact charsBefore_byteSize_append [] rest
  | cons head tail inductionHypothesis =>
      rw [byteSize_cons] at within
      rw [List.cons_append, charsBefore, charsBefore]
      by_cases fits : head.utf8Size ≤ byte
      · rw [if_pos fits, if_pos fits, inductionHypothesis (by omega)]
      · rw [if_neg fits, if_neg fits]

/-- A part of the text that a byte lies in splits at the character over the byte. -/
theorem exists_split_of_lt_byteSize {front : Text} {byte : Nat} (inside : byte < byteSize front)
    (rest : Text) :
    ∃ before c after, front = before ++ c :: after ∧
      charsBefore (front ++ rest) byte = before.length := by
  induction front generalizing byte with
  | nil => cases inside
  | cons head tail inductionHypothesis =>
      by_cases fits : head.utf8Size ≤ byte
      · rw [byteSize_cons] at inside
        obtain ⟨before, c, after, rfl, chars⟩ :=
          inductionHypothesis (Nat.sub_lt_left_of_lt_add fits inside)
        refine ⟨head :: before, c, after, rfl, ?_⟩
        rw [List.cons_append, charsBefore, if_pos fits, chars, List.length_cons]
      · exact ⟨[], head, tail, rfl, if_neg fits⟩

theorem lineOfByte_of_charsBefore {front rest : Text} {byte : Nat}
    (chars : charsBefore (front ++ rest) byte = front.length) :
    (LineIndex.ofText (front ++ rest)).lineOfByte byte = front.count '\n' := by
  change ((front ++ rest).take (charsBefore (front ++ rest) byte)).count '\n' = _
  rw [chars, List.take_left]

theorem isSpaceByte_of_charsBefore {before after : Text} {c : Char} {byte : Nat}
    (chars : charsBefore (before ++ c :: after) byte = before.length) :
    isSpaceByte (before ++ c :: after) byte = isWhiteSpace c := by
  have found : (before ++ c :: after)[before.length]? = some c := by simp
  rw [isSpaceByte, charOver?, chars, found, Option.any_some]

/-! ## Last lines -/

theorem lastLine_append {line : Text} (inLine : '\n' ∉ line) (text : Text) :
    lastLine (text ++ line) = lastLine text ++ line := by
  have unbroken : ∀ c ∈ line.reverse, (c ≠ '\n' : Bool) := by
    intro c member
    refine decide_eq_true fun isBreak => inLine ?_
    rw [← isBreak]
    exact List.mem_reverse.mp member
  rw [lastLine, List.reverse_append, List.takeWhile_append_of_pos unbroken, List.reverse_append,
    List.reverse_reverse, lastLine]

/-- A text with a line feed has its own last line, whatever stands before it. -/
theorem lastLine_append_of_mem {line : Text} (broken : '\n' ∈ line) (text : Text) :
    lastLine (text ++ line) = lastLine line := by
  have stopsEarly :
      ¬ (line.reverse.takeWhile (· ≠ '\n')).length = line.reverse.length := by
    intro whole
    have unbroken := List.takeWhile_eq_self_iff.mp
      ((List.takeWhile_prefix _).eq_of_length whole)
    simpa using unbroken '\n' (List.mem_reverse.mpr broken)
  rw [lastLine, List.reverse_append, List.takeWhile_append, if_neg stopsEarly, lastLine]

/-- The last line has the characters behind which no line feed comes. -/
theorem mem_lastLine_iff {text : Text} {c : Char} :
    c ∈ lastLine text ↔ ∃ before after, text = before ++ c :: after ∧ '\n' ∉ c :: after := by
  constructor
  · intro member
    have whole : text.rdropWhile (· ≠ '\n') ++ lastLine text = text :=
      List.rdropWhile_append_rtakeWhile
    obtain ⟨before, after, split⟩ := List.append_of_mem member
    refine ⟨text.rdropWhile (· ≠ '\n') ++ before, after, ?_, fun isBreak => ?_⟩
    · rw [List.append_assoc, ← split]
      exact whole.symm
    · have isLast : '\n' ∈ lastLine text := by
        rw [split]
        exact List.mem_append_right before isBreak
      simpa using List.mem_rtakeWhile_imp isLast
  · rintro ⟨before, after, rfl, inLine⟩
    rw [lastLine_append inLine]
    exact List.mem_append_right _ List.mem_cons_self

/-- Two cuts are on one line when no line feed comes between them. -/
theorem count_eq_count_append_iff {front rest : Text} :
    front.count '\n' = (front ++ rest).count '\n' ↔ '\n' ∉ rest := by
  rw [List.count_append, Nat.left_eq_add, List.count_eq_zero]

/-- A cut stands first on its line when every byte before it on its line is blank. -/
theorem startsLineAt_byteSize_iff (front rest : Text) :
    startsLineAt (front ++ rest) (byteSize front) = true ↔
      ∀ earlier < byteSize front,
        (LineIndex.ofText (front ++ rest)).lineOfByte earlier =
          (LineIndex.ofText (front ++ rest)).lineOfByte (byteSize front) →
        isSpaceByte (front ++ rest) earlier = true := by
  rw [startsLineAt, takeBytes?_byteSize_append, Option.getD_some, List.all_eq_true,
    lineOfByte_of_charsBefore (charsBefore_byteSize_append front rest)]
  constructor
  · intro blank earlier isEarlier sameLine
    obtain ⟨before, c, after, rfl, chars⟩ := exists_split_of_lt_byteSize isEarlier rest
    rw [List.append_assoc, List.cons_append] at sameLine chars ⊢
    rw [lineOfByte_of_charsBefore chars, count_eq_count_append_iff] at sameLine
    rw [isSpaceByte_of_charsBefore chars]
    exact blank c (mem_lastLine_iff.mpr ⟨before, after, rfl, sameLine⟩)
  · intro blank c member
    obtain ⟨before, after, rfl, inLine⟩ := mem_lastLine_iff.mp member
    have isEarlier : byteSize before < byteSize (before ++ c :: after) := by
      rw [byteSize_append]
      exact Nat.lt_add_of_pos_right (byteSize_pos (List.cons_ne_nil c after))
    have chars := charsBefore_byteSize_append before (c :: (after ++ rest))
    have space := blank (byteSize before) isEarlier
    rw [List.append_assoc, List.cons_append, lineOfByte_of_charsBefore chars,
      isSpaceByte_of_charsBefore chars] at space
    exact space (count_eq_count_append_iff.mpr inLine)

end Text

end SourceAnnotations
