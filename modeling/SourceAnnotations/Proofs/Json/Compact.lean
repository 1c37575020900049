import Mathlib.Data.List.Forall2
import SourceAnnotations.Json.Value
import SourceAnnotations.Proofs.Json.Document

/-!
# Written values as documents

What is written for a value is the text of a document without blanks.  Each character of a string is
one piece of it, a natural number is its decimal digits, and lists and objects are written item by
item and member by member.
-/

namespace SourceAnnotations.Json

/-! ## Strings -/

theorem hexDigit?_digitChar : ∀ value < 16, hexDigit? (Nat.digitChar value) = some value := by
  decide

/-- The lower-case hexadecimal digit of a number below sixteen. -/
def HexDigit.ofNat (value : Nat) (isSmall : value < 16) : HexDigit :=
  ⟨Nat.digitChar value, value, hexDigit?_digitChar value isSmall⟩

/-- What is written for a character is one piece, which means the character. -/
theorem exists_piece (c : Char) :
    ∃ piece : Piece, piece.text = escapedChar c ∧
      ∀ rest : Literal, Literal.reading (piece :: rest) = (Literal.reading rest).map (c :: ·) := by
  have short {letter : Char} (means : shortEscape? letter = some c) :
      ∃ piece : Piece, piece.text = ['\\', letter] ∧
        ∀ rest : Literal, Literal.reading (piece :: rest) = (Literal.reading rest).map (c :: ·) :=
    ⟨.short letter c means, rfl, fun _ => rfl⟩
  rw [escapedChar]
  split_ifs with isQuote isBackslash isBackspace isFormFeed isLineFeed isReturn isTab isControl
  · exact short (by rw [isQuote]; rfl)
  · exact short (by rw [isBackslash]; rfl)
  · exact short (by rw [isBackspace]; rfl)
  · exact short (by rw [isFormFeed]; rfl)
  · exact short (by rw [isLineFeed]; rfl)
  · exact short (by rw [isReturn]; rfl)
  · exact short (by rw [isTab]; rfl)
  · let zero := HexDigit.ofNat 0 (by decide)
    let tens := HexDigit.ofNat (c.toNat / 16) (by omega)
    let ones := HexDigit.ofNat (c.toNat % 16) (by omega)
    refine ⟨.unit zero zero tens ones, rfl, fun rest => ?_⟩
    have unit : unitOf zero zero tens ones = c.toNat := by
      change 16 * (16 * (16 * 0 + 0) + c.toNat / 16) + c.toNat % 16 = c.toNat
      omega
    have notLow : ¬ isLowSurrogate c.toNat := by
      simp only [isLowSurrogate, Bool.and_eq_true, decide_eq_true_eq]
      omega
    have notHigh : ¬ isHighSurrogate c.toNat := by
      simp only [isHighSurrogate, Bool.and_eq_true, decide_eq_true_eq]
      omega
    rw [Literal.reading.eq_def]
    dsimp only
    rw [unit, if_neg notLow, if_neg notHigh, Char.ofNat_toNat]
  · exact ⟨.plain c ⟨isQuote, isBackslash, by omega⟩, rfl, fun _ => rfl⟩

/-- What is written for a string between its quotes is a literal that means the string. -/
theorem exists_literal (value : String) :
    ∃ literal : Literal, literal.Means value ∧
      literal.text = value.toList.flatMap escapedChar := by
  obtain ⟨characters, rfl⟩ : ∃ characters, value = String.ofList characters :=
    ⟨value.toList, String.ofList_toList.symm⟩
  induction characters with
  | nil => exact ⟨[], rfl, rfl⟩
  | cons c rest inductionHypothesis =>
      obtain ⟨piece, pieceText, pieceReading⟩ := exists_piece c
      obtain ⟨literal, means, literalText⟩ := inductionHypothesis
      simp only [Literal.Means, String.toList_ofList] at means literalText ⊢
      refine ⟨piece :: literal, by rw [pieceReading, means]; rfl, ?_⟩
      rw [Literal.text, List.flatMap_cons, pieceText, ← Literal.text, literalText]
      rfl

theorem renderString_eq {value : String} {literal : Literal}
    (written : literal.text = value.toList.flatMap escapedChar) :
    renderString value = (Lexeme.quoted literal).text := by
  rw [renderString, ← written]
  rfl

/-! ## Natural numbers -/

theorem head?_toDigits_ne_zero {value : Nat} (isPositive : 0 < value) :
    (Nat.toDigits 10 value).head? ≠ some '0' := by
  induction value using Nat.strongRecOn with
  | ind value inductionHypothesis =>
      by_cases isDigit : value < 10
      · rw [Nat.toDigits_of_lt_base isDigit, List.head?_singleton, ne_eq, Option.some_inj,
          Nat.digitChar_eq_zero]
        exact Nat.ne_of_gt isPositive
      · rw [Nat.toDigits_of_base_le (by decide) (Nat.le_of_not_lt isDigit),
          List.head?_append_of_ne_nil _ Nat.toDigits_ne_nil]
        exact inductionHypothesis (value / 10) (by omega) (by omega)

theorem hasLeadingZero_toDigits (value : Nat) :
    hasLeadingZero (Nat.toDigits 10 value) = false := by
  rcases Nat.eq_zero_or_pos value with rfl | isPositive
  · rfl
  · rw [hasLeadingZero, decide_eq_false (head?_toDigits_ne_zero isPositive), Bool.false_and]

/-- A natural number as it is written. -/
def WrittenNumber.ofNat (value : Nat) : WrittenNumber where
  isNegative := false
  whole := Nat.toDigits 10 value
  fraction := []
  exponent := none
  areDigits := ⟨Nat.toDigits_ne_nil, fun _ => Nat.isDigit_of_mem_toDigits (by decide) (by decide)⟩
  noLeadingZero := hasLeadingZero_toDigits value
  areFractionDigits := nofun

theorem le_ofDigitChars (digits : Text) (significand : Nat) :
    significand ≤ Nat.ofDigitChars 10 digits significand := by
  induction digits generalizing significand with
  | nil => exact Nat.le_refl _
  | cons digit rest inductionHypothesis =>
      rw [Nat.ofDigitChars_cons]
      exact Nat.le_trans (by omega) (inductionHypothesis _)

/-- Digits that fit are absorbed to the last one. -/
theorem absorbDigits_eq {digits : Text} {significand : Nat}
    (fits : Nat.ofDigitChars 10 digits significand < wordBound) :
    absorbDigits significand digits = (Nat.ofDigitChars 10 digits significand, 0) := by
  induction digits generalizing significand with
  | nil => rfl
  | cons digit rest inductionHypothesis =>
      rw [Nat.ofDigitChars_cons] at fits ⊢
      rw [absorbDigits, if_pos (Nat.lt_of_le_of_lt (le_ofDigitChars rest _) fits),
        inductionHypothesis fits]

/-- A numeral without sign, point and exponent whose digits are all absorbed is a natural number. -/
theorem value_of_absorbed {numeral : Numeral} {value : Nat} (noSign : numeral.isNegative = false)
    (noFraction : numeral.fraction = []) (noExponent : numeral.exponent = none)
    (absorbed : absorbDigits 0 numeral.whole = (value, 0)) :
    numeral.value = .ok (.natural value) := by
  have whole : numeral.wholeNumber? value = some (.natural value) := by
    rw [Numeral.wholeNumber?, noSign]
    rfl
  rw [Numeral.value, absorbed]
  split
  next significand wholeLeft split =>
    obtain ⟨rfl, rfl⟩ := Prod.mk.inj split
    extract_lets isPlain
    have plain : isPlain = true := by
      simp only [isPlain, noFraction, noExponent]
      rfl
    rw [if_pos plain, whole]

/-- The numeral of a natural number has the number as its value, if it fits sixty-four bits. -/
theorem value_natural {value : Nat} (fits : value < wordBound) :
    Numeral.value ⟨false, Nat.toDigits 10 value, [], none⟩ = .ok (.natural value) := by
  refine value_of_absorbed rfl rfl rfl ?_
  have whole : Nat.ofDigitChars 10 (Nat.toDigits 10 value) 0 = value :=
    Nat.ofDigitChars_ten_toDigits
  rw [absorbDigits_eq (by rwa [whole]), whole]

/-! ## Containers -/

theorem renderItems_eq {values : List Value} {items : List Document}
    (same : List.Forall₂ (fun value item => value.render = item.compact) values items) :
    renderItems values = (itemLexemes items).flatMap Lexeme.text := by
  induction same with
  | nil => rfl
  | cons here others inductionHypothesis =>
      cases others with
      | nil =>
          rw [renderItems, here, itemLexemes, List.flatMap_append]
          rfl
      | cons next rest =>
          rw [renderItems, here, inductionHypothesis, itemLexemes, List.flatMap_append]
          rfl

/-- A member of an object is written as a key and a document. -/
def IsWrittenMember (member : String × Value) (entry : Literal × Document) : Prop :=
  renderString member.1 = (Lexeme.quoted entry.1).text ∧ member.2.render = entry.2.compact

theorem renderMembers_eq {members : List (String × Value)} {entries : List (Literal × Document)}
    (same : List.Forall₂ IsWrittenMember members entries) :
    renderMembers members = (memberLexemes entries).flatMap Lexeme.text := by
  induction same with
  | nil => rfl
  | @cons member entry members entries here others inductionHypothesis =>
      obtain ⟨name, value⟩ := member
      obtain ⟨key, document⟩ := entry
      obtain ⟨sameKey, sameValue⟩ := here
      cases others with
      | nil =>
          rw [renderMembers, sameKey, sameValue, memberLexemes, List.flatMap_cons,
            List.flatMap_cons, List.flatMap_append]
          rfl
      | cons next rest =>
          rw [renderMembers, sameKey, sameValue, inductionHypothesis, memberLexemes,
            List.flatMap_cons, List.flatMap_cons, List.flatMap_append]
          rfl

end SourceAnnotations.Json
