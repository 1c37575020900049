import Mathlib.Data.List.Chain
import Mathlib.Data.List.TakeWhile
import SourceAnnotations.Proofs.Json.Document

/-!
# Lexing documents

Where a text is spelt from lexemes, cutting it finds their tokens again, whatever blanks stand
between them.  For strings this goes piece by piece; a surrogate pair takes two pieces.  A number
ends where the first character comes that could not continue it, so it must be followed by a
separator.
-/

namespace SourceAnnotations.Json

/-! ## Strings -/

theorem hasFourBytes_cons (first second third fourth : Char) (rest : Text) :
    hasFourBytes (first :: second :: third :: fourth :: rest) = true := by
  have size (c : Char) : 1 ≤ c.utf8Size := c.utf8Size_pos
  have all : 4 ≤ first.utf8Size + (second.utf8Size + (third.utf8Size + (fourth.utf8Size + 0))) := by
    have one := size first
    have two := size second
    have three := size third
    have four := size fourth
    omega
  exact decide_eq_true all

theorem ne_u_of_means {letter meant : Char} (means : shortEscape? letter = some meant) :
    letter ≠ 'u' := by
  rintro rfl
  cases means

section

variable {state next : StringState} {c : Char} {rest : Text}

theorem readString_known {known : Text} (continues : state.isClosedBy c = false)
    (moves : state.next c rest = .ok (next, known)) :
    readString state (c :: rest) = (readString next rest).map (known ++ ·) := by
  rw [readString, continues, if_neg Bool.false_ne_true, moves]

theorem readString_silent (continues : state.isClosedBy c = false)
    (moves : state.next c rest = .ok (next, [])) :
    readString state (c :: rest) = readString next rest := by
  rw [readString_known continues moves]
  cases readString next rest <;> rfl

theorem readString_stuck {fault : Fault} (continues : state.isClosedBy c = false)
    (stops : state.next c rest = .error fault) : readString state (c :: rest) = .error fault := by
  rw [readString, continues, if_neg Bool.false_ne_true, stops]

/-! ### Units -/

section

variable (rest) (digit : HexDigit) (value more : Nat)

attribute [local simp] StringState.next HexDigit.means

theorem next_hex_succ :
    StringState.next (.hex value (more + 1)) digit.letter rest =
      .ok (.hex (16 * value + digit.value) more, []) := by
  simp

theorem next_hex_zero :
    StringState.next (.hex value 0) digit.letter rest =
      completeUnit (16 * value + digit.value) := by
  simp

theorem next_low_succ (high : Nat) :
    StringState.next (.low high value (more + 1)) digit.letter rest =
      .ok (.low high (16 * value + digit.value) more, []) := by
  simp

theorem next_low_zero (high : Nat) :
    StringState.next (.low high value 0) digit.letter rest =
      if isLowSurrogate (16 * value + digit.value) then
        .ok (.plain, [surrogatePair high (16 * value + digit.value)])
      else .error .loneSurrogate := by
  simp

end

variable (first second third fourth : HexDigit)

/-- Four hexadecimal digits complete a unit. -/
theorem readString_hex :
    readString (.hex 0 3)
        (first.letter :: second.letter :: third.letter :: fourth.letter :: rest) =
      match completeUnit (unitOf first second third fourth) with
      | .error fault => .error fault
      | .ok (state, known) => (readString state rest).map (known ++ ·) := by
  rw [readString_silent rfl (next_hex_succ ..), readString_silent rfl (next_hex_succ ..),
    readString_silent rfl (next_hex_succ ..), Nat.mul_zero, Nat.zero_add]
  have moves := next_hex_zero rest fourth
    (16 * (16 * first.value + second.value) + third.value)
  rw [← unitOf] at moves
  cases completed : completeUnit (unitOf first second third fourth) with
  | error fault => exact readString_stuck rfl (moves.trans completed)
  | ok outcome => exact readString_known rfl (moves.trans completed)

/-- Four hexadecimal digits behind the first unit of a pair complete the pair. -/
theorem readString_low (high : Nat) :
    readString (.low high 0 3)
        (first.letter :: second.letter :: third.letter :: fourth.letter :: rest) =
      if isLowSurrogate (unitOf first second third fourth) then
        (readString .plain rest).map
          (surrogatePair high (unitOf first second third fourth) :: ·)
      else .error .loneSurrogate := by
  rw [readString_silent rfl (next_low_succ ..), readString_silent rfl (next_low_succ ..),
    readString_silent rfl (next_low_succ ..), Nat.mul_zero, Nat.zero_add]
  have moves := next_low_zero rest fourth
    (16 * (16 * first.value + second.value) + third.value) high
  rw [← unitOf] at moves
  by_cases isLow : isLowSurrogate (unitOf first second third fourth)
  · rw [if_pos isLow] at moves ⊢
    exact readString_known rfl moves
  · rw [if_neg isLow] at moves ⊢
    exact readString_stuck rfl moves

/-! ### Pieces -/

/-- What follows the first unit of a pair and is not the second one is refused. -/
theorem readString_high_of_ne (high : Nat) (noBackslash : c ≠ '\\') :
    readString (.high high) (c :: rest) = .error .unfinishedSurrogate :=
  readString_stuck rfl (by rw [StringState.next, if_neg noBackslash])

theorem readString_highEscaped_of_ne (high : Nat) (noUnit : c ≠ 'u') :
    readString (.highEscaped high) (c :: rest) = .error .unfinishedSurrogate :=
  readString_stuck rfl (by rw [StringState.next, if_pos noUnit])

theorem readString_plain (isPlain : c ≠ '"' ∧ c ≠ '\\' ∧ 0x20 ≤ c.toNat) :
    readString .plain (c :: rest) = (readString .plain rest).map (c :: ·) := by
  obtain ⟨noQuote, noBackslash, noControl⟩ := isPlain
  have continues : StringState.plain.isClosedBy c = false := decide_eq_false noQuote
  have moves : StringState.plain.next c rest = .ok (.plain, [c]) := by
    rw [StringState.next, if_neg noBackslash, if_neg (Nat.not_lt.mpr noControl)]
  exact readString_known continues moves

theorem readString_short {letter meant : Char} (means : shortEscape? letter = some meant) :
    readString .plain ('\\' :: letter :: rest) = (readString .plain rest).map (meant :: ·) := by
  have moves : StringState.escaped.next letter rest = .ok (.plain, [meant]) := by
    rw [StringState.next, means]
  rw [readString_silent rfl rfl]
  exact readString_known rfl moves

theorem readString_unit :
    readString .plain ((Piece.unit first second third fourth).text ++ rest) =
      match completeUnit (unitOf first second third fourth) with
      | .error fault => .error fault
      | .ok (state, known) => (readString state rest).map (known ++ ·) := by
  rw [← readString_hex]
  refine (readString_silent rfl rfl).trans (readString_silent rfl ?_)
  exact if_pos (hasFourBytes_cons ..)

/-- The first unit of a pair waits for the second. -/
theorem readString_unit_of_isHigh (notLow : ¬ isLowSurrogate (unitOf first second third fourth))
    (isHigh : isHighSurrogate (unitOf first second third fourth)) :
    readString .plain ((Piece.unit first second third fourth).text ++ rest) =
      readString (.high (unitOf first second third fourth)) rest := by
  rw [readString_unit, completeUnit, if_neg notLow, if_pos isHigh]
  dsimp only
  cases readString (.high (unitOf first second third fourth)) rest <;> rfl

theorem readString_high (high : Nat) :
    readString (.high high) ((Piece.unit first second third fourth).text ++ rest) =
      if isLowSurrogate (unitOf first second third fourth) then
        (readString .plain rest).map
          (surrogatePair high (unitOf first second third fourth) :: ·)
      else .error .loneSurrogate := by
  rw [← readString_low]
  refine (readString_silent rfl rfl).trans (readString_silent rfl ?_)
  exact if_pos (hasFourBytes_cons ..)

end

theorem Literal.text_append (piece : Piece) (literal : Literal) (rest : Text) :
    Literal.text (piece :: literal) ++ rest = piece.text ++ (literal.text ++ rest) := by
  rw [Literal.text, Literal.text, List.flatMap_cons, List.append_assoc]

/-- A string is read up to its closing quote, whatever follows. -/
theorem readString_text (literal : Literal) (rest : Text) :
    readString .plain (literal.text ++ '"' :: rest) = literal.reading := by
  fun_induction Literal.reading literal with
  | case1 => rfl
  | case2 c isPlain others inductionHypothesis =>
      rw [← inductionHypothesis]
      exact readString_plain isPlain
  | case3 letter meant means others inductionHypothesis =>
      rw [← inductionHypothesis]
      exact readString_short means
  | case4 first second third fourth others unit isLow =>
      rw [Literal.text_append, readString_unit, completeUnit, if_pos isLow]
  | case5 first second third fourth unit notLow isHigh _ _ _ _ others low isLow
      inductionHypothesis =>
      rw [← inductionHypothesis, Literal.text_append,
        readString_unit_of_isHigh _ _ _ _ notLow isHigh, Literal.text_append, readString_high,
        if_pos isLow]
  | case6 first second third fourth unit notLow isHigh _ _ _ _ others low isAlone =>
      rw [Literal.text_append, readString_unit_of_isHigh _ _ _ _ notLow isHigh,
        Literal.text_append, readString_high, if_neg isAlone]
  | case7 first second third fourth others unit notLow isHigh noUnit =>
      rw [Literal.text_append, readString_unit_of_isHigh _ _ _ _ notLow isHigh]
      cases others with
      | nil => exact readString_high_of_ne unit (by decide)
      | cons piece later =>
          cases piece with
          | plain c isPlain => exact readString_high_of_ne unit isPlain.2.1
          | short letter meant means =>
              refine (readString_silent rfl rfl).trans ?_
              exact readString_highEscaped_of_ne unit (ne_u_of_means means)
          | unit a b c d => exact absurd rfl (noUnit a b c d later)
  | case8 first second third fourth others unit notLow notHigh inductionHypothesis =>
      rw [← inductionHypothesis, Literal.text_append, readString_unit, completeUnit,
        if_neg notLow, if_neg notHigh]
      rfl

/-! ## Passing over strings -/

theorem passString_next {state next : PassState} {c : Char} {rest : Text}
    (continues : state.isClosedBy c = false) (moves : state.next c rest = .ok next) :
    passString state (c :: rest) = passString next rest := by
  rw [passString, continues, if_neg Bool.false_ne_true, moves]

theorem passString_digit (digit : HexDigit) (more : Nat) (rest : Text) :
    passString (.hex (more + 1)) (digit.letter :: rest) = passString (.hex more) rest :=
  passString_next rfl (by simp only [PassState.next, digit.means])

theorem passString_lastDigit (digit : HexDigit) (rest : Text) :
    passString (.hex 0) (digit.letter :: rest) = passString .plain rest :=
  passString_next rfl (by simp only [PassState.next, digit.means])

theorem passString_piece (piece : Piece) (rest : Text) :
    passString .plain (piece.text ++ rest) = passString .plain rest := by
  cases piece with
  | plain c isPlain =>
      obtain ⟨noQuote, noBackslash, noControl⟩ := isPlain
      have continues : PassState.plain.isClosedBy c = false := decide_eq_false noQuote
      have moves : PassState.plain.next c rest = .ok .plain := by
        rw [PassState.next, if_neg noBackslash, if_neg (Nat.not_lt.mpr noControl)]
      exact passString_next continues moves
  | short letter meant means =>
      have moves : PassState.escaped.next letter rest = .ok .plain := by
        rw [PassState.next, means]
        rfl
      exact (passString_next rfl rfl).trans (passString_next rfl moves)
  | unit first second third fourth =>
      have digits : passString (.hex 3) (first.letter :: second.letter :: third.letter ::
          fourth.letter :: rest) = passString .plain rest := by
        rw [passString_digit, passString_digit, passString_digit, passString_lastDigit]
      rw [← digits]
      refine (passString_next rfl rfl).trans (passString_next rfl ?_)
      exact if_pos (hasFourBytes_cons ..)

theorem passString_text (literal : Literal) (rest : Text) :
    passString .plain (literal.text ++ '"' :: rest) = .ok rest := by
  induction literal with
  | nil => rfl
  | cons piece others inductionHypothesis =>
      rw [Literal.text_append, passString_piece, inductionHypothesis]

/-! ## Numbers -/

/-- The text does not begin with a character that could continue a number. -/
def EndsNumber (text : Text) : Prop :=
  ∀ c ∈ text.head?, c.isDigit = false ∧ c ≠ '.' ∧ c ≠ 'e' ∧ c ≠ 'E'

theorem scanDigits_append {digits rest : Text} (areDigits : AreDigits digits)
    (ends : ∀ c ∈ rest.head?, c.isDigit = false) :
    scanDigits (digits ++ rest) = .ok (digits, rest) := by
  obtain ⟨someDigits, allDigits⟩ := areDigits
  have taken : rest.takeWhile Char.isDigit = [] ∧ rest.dropWhile Char.isDigit = rest := by
    cases rest with
    | nil => exact ⟨rfl, rfl⟩
    | cons head tail =>
        have stops := ends head rfl
        exact ⟨by rw [List.takeWhile_cons, stops]; rfl, by rw [List.dropWhile_cons, stops]; rfl⟩
  rw [scanDigits, List.takeWhile_append_of_pos allDigits, List.dropWhile_append_of_pos allDigits,
    taken.1, taken.2, List.append_nil, if_neg (by simpa using someDigits)]

/-- Digits begin with none of the characters that are no digit. -/
theorem AreDigits.exists_cons {digits : Text} (areDigits : AreDigits digits) :
    ∃ head tail, digits = head :: tail ∧ head.isDigit := by
  obtain ⟨someDigits, allDigits⟩ := areDigits
  obtain ⟨head, tail, rfl⟩ := List.exists_cons_of_ne_nil someDigits
  exact ⟨head, tail, rfl, allDigits head List.mem_cons_self⟩

theorem scanSign_append (exponent : WrittenExponent) (rest : Text) :
    scanSign (exponent.sign.toList ++ exponent.digits ++ rest) =
      (decide (exponent.sign = some '-'), exponent.digits ++ rest) := by
  cases written : exponent.sign with
  | none =>
      obtain ⟨head, tail, split, isDigit⟩ := exponent.areDigits.exists_cons
      rw [split]
      change scanSign (head :: (tail ++ rest)) = _
      rw [scanSign]
      · rfl
      all_goals
        rintro _ ⟨⟩
        cases isDigit
  | some sign =>
      rcases exponent.isSign sign written with rfl | rfl <;> rfl

theorem scanExponent_append {rest : Text} (exponent : Option WrittenExponent)
    (ends : EndsNumber rest) :
    scanExponent ((exponent.map WrittenExponent.text).getD [] ++ rest) =
      .ok (exponent.map WrittenExponent.value, rest) := by
  cases exponent with
  | none =>
      change scanExponent rest = _
      cases rest with
      | nil => rfl
      | cons head tail =>
          obtain ⟨_, _, noSmall, noLarge⟩ := ends head rfl
          rw [scanExponent]
          · rfl
          · rintro _ ⟨⟩
            exact noSmall rfl
          · rintro _ ⟨⟩
            exact noLarge rfl
  | some exponent =>
      have digits : scanExponentDigits (exponent.sign.toList ++ exponent.digits ++ rest) =
          .ok (some exponent.value, rest) := by
        rw [scanExponentDigits, scanSign_append,
          scanDigits_append exponent.areDigits fun c isHead => (ends c isHead).1]
        simp [WrittenExponent.value]
      change scanExponent (exponent.mark :: (exponent.sign.toList ++ exponent.digits ++ rest)) =
        .ok (some exponent.value, rest)
      rcases exponent.isMark with mark | mark <;>
        · rw [mark]
          exact digits

/-- What follows the fraction begins with none of the characters that belong to one. -/
theorem exponentText_head {rest : Text} (number : WrittenNumber) (ends : EndsNumber rest) :
    ∀ c ∈ (number.exponentText ++ rest).head?, c.isDigit = false ∧ c ≠ '.' := by
  intro c isHead
  rw [WrittenNumber.exponentText] at isHead
  cases written : number.exponent with
  | none =>
      rw [written] at isHead
      exact ⟨(ends c isHead).1, (ends c isHead).2.1⟩
  | some exponent =>
      rw [written] at isHead
      obtain rfl : exponent.mark = c := Option.some.inj isHead
      rcases exponent.isMark with mark | mark <;>
        · rw [mark]
          decide

theorem scanFraction_append {rest : Text} (number : WrittenNumber)
    (ends : ∀ c ∈ rest.head?, c.isDigit = false ∧ c ≠ '.') :
    scanFraction (number.fractionText ++ rest) = .ok (number.fraction, rest) := by
  rw [WrittenNumber.fractionText]
  by_cases isEmpty : number.fraction = []
  · rw [if_pos isEmpty, isEmpty]
    change scanFraction rest = _
    cases rest with
    | nil => rfl
    | cons head tail =>
        rw [scanFraction]
        rintro _ ⟨⟩
        exact (ends '.' rfl).2 rfl
  · rw [if_neg isEmpty]
    exact scanDigits_append ⟨isEmpty, number.areFractionDigits⟩ fun c isHead => (ends c isHead).1

/-- The digits before the point end where the point stands, or where the number ends. -/
theorem fractionText_head {rest : Text} (number : WrittenNumber)
    (ends : ∀ c ∈ rest.head?, c.isDigit = false) :
    ∀ c ∈ (number.fractionText ++ rest).head?, c.isDigit = false := by
  intro c isHead
  rw [WrittenNumber.fractionText] at isHead
  by_cases isEmpty : number.fraction = []
  · rw [if_pos isEmpty] at isHead
    exact ends c isHead
  · rw [if_neg isEmpty] at isHead
    obtain rfl : '.' = c := Option.some.inj isHead
    rfl

theorem scanUnsigned_append {rest : Text} (number : WrittenNumber) (ends : EndsNumber rest) :
    scanUnsigned number.isNegative
        (number.whole ++ (number.fractionText ++ (number.exponentText ++ rest))) =
      .ok (number.numeral, rest) := by
  have afterFraction := exponentText_head number ends
  have afterWhole := fractionText_head number fun c isHead => (afterFraction c isHead).1
  rw [scanUnsigned, scanDigits_append number.areDigits afterWhole]
  dsimp only
  rw [number.noLeadingZero, if_neg Bool.false_ne_true, scanFraction_append number afterFraction]
  dsimp only
  rw [WrittenNumber.exponentText, scanExponent_append number.exponent ends]
  rfl

/-- A number is read up to where it ends. -/
theorem scanNumeral_text {rest : Text} (number : WrittenNumber) (ends : EndsNumber rest) :
    scanNumeral (number.text ++ rest) = .ok (number.numeral, rest) := by
  have scanned := scanUnsigned_append number ends
  rw [WrittenNumber.text, List.append_assoc, List.append_assoc, List.append_assoc]
  cases isNegative : number.isNegative with
  | true =>
      rw [isNegative] at scanned
      exact scanned
  | false =>
      rw [isNegative] at scanned
      obtain ⟨head, tail, split, isDigit⟩ := number.areDigits.exists_cons
      rw [split] at scanned ⊢
      change scanNumeral (head :: (tail ++ _)) = _
      rw [scanNumeral]
      · exact scanned
      · rintro _ ⟨⟩
        cases isDigit

/-- A number begins with a minus sign or a digit. -/
theorem WrittenNumber.text_head (number : WrittenNumber) :
    ∃ head tail, number.text = head :: tail ∧ (head = '-' ∨ head.isDigit) := by
  rw [text]
  cases number.isNegative with
  | true => exact ⟨_, _, rfl, .inl rfl⟩
  | false =>
      obtain ⟨head, tail, split, isDigit⟩ := number.areDigits.exists_cons
      rw [split]
      exact ⟨_, _, rfl, .inr isDigit⟩

/-! ## Lexemes -/

theorem tokenAt_number {head : Char} (isHead : head = '-' ∨ head.isDigit) (tail : Text) :
    tokenAt head tail = numberToken (head :: tail) := by
  have isNumber : (head = '-' || head.isDigit) = true := by simpa using isHead
  unfold tokenAt
  split
  case h_11 => exact if_pos isNumber
  all_goals exact absurd isNumber (by decide)

theorem isBlank_number {head : Char} (isHead : head = '-' ∨ head.isDigit) :
    isBlank head = false := by
  by_contra isBlank
  simp only [Json.isBlank, Bool.not_eq_false, Bool.or_eq_true, decide_eq_true_eq] at isBlank
  rcases isBlank with ((rfl | rfl) | rfl) | rfl <;> exact absurd isHead (by decide)

/-- A lexeme at the start of a text is its first token, if no number is continued behind it. -/
theorem Lexeme.tokenAt_text (lexeme : Lexeme) (rest : Text)
    (ends : lexeme.isNumber → EndsNumber rest) :
    ∃ head tail, lexeme.text ++ rest = head :: tail ∧ isBlank head = false ∧
      tokenAt head tail = (lexeme.token, rest) := by
  cases lexeme with
  | boolean value => cases value <;> exact ⟨_, _, rfl, by decide, rfl⟩
  | number written =>
      obtain ⟨head, tail, split, isHead⟩ := written.text_head
      refine ⟨head, tail ++ rest, congrArg (· ++ rest) split, isBlank_number isHead, ?_⟩
      have scanned := scanNumeral_text written (ends rfl)
      rw [split, List.cons_append] at scanned
      rw [tokenAt_number isHead, numberToken, scanned]
      rfl
  | quoted literal =>
      refine ⟨'"', literal.text ++ '"' :: rest, by simp [text], by decide, ?_⟩
      change stringToken (literal.text ++ '"' :: rest) = _
      rw [stringToken, readString_text, passString_text]
      rfl
  | _ => exact ⟨_, _, rfl, by decide, rfl⟩

theorem tokens_of_blank {text : Text} (areBlank : ∀ c ∈ text, isBlank c) : tokens text = [] := by
  rw [tokens, List.dropWhile_eq_nil_iff.mpr areBlank]

theorem tokens_of_tokenAt {blanks text rest tail : Text} {head : Char} {token : Token}
    (areBlank : ∀ c ∈ blanks, isBlank c) (split : text = head :: tail)
    (noBlank : isBlank head = false) (cut : tokenAt head tail = (token, rest)) :
    tokens (blanks ++ text) = token :: tokens rest := by
  have dropped : (blanks ++ text).dropWhile isBlank = head :: tail := by
    rw [List.dropWhile_append_of_pos areBlank, split, List.dropWhile_cons, noBlank,
      if_neg Bool.false_ne_true]
  rw [tokens, dropped]
  change (tokenAt head tail).1 :: tokens (tokenAt head tail).2 = token :: tokens rest
  rw [cut]

/-- Of two neighbours the second separates values, if the first is a number. -/
def Lexeme.Separated (lexeme next : Lexeme) : Prop :=
  lexeme.isNumber → next.isSeparator

theorem endsNumber_of_isBlank {c : Char} (isBlank : isBlank c) :
    c.isDigit = false ∧ c ≠ '.' ∧ c ≠ 'e' ∧ c ≠ 'E' := by
  simp only [Json.isBlank, Bool.or_eq_true, decide_eq_true_eq] at isBlank
  rcases isBlank with ((rfl | rfl) | rfl) | rfl <;> decide

/-- A number ends in front of blanks, of a separator and of the end of the text. -/
theorem Spells.endsNumber {lexemes : List Lexeme} {text : Text} (spells : Spells lexemes text)
    (separated : ∀ next ∈ lexemes.head?, next.isSeparator) : EndsNumber text := by
  cases spells with
  | ended areBlank =>
      exact fun c isHead => endsNumber_of_isBlank (areBlank c (List.mem_of_mem_head? isHead))
  | @lexeme blanks text next lexemes areBlank rest =>
      cases blanks with
      | cons blank others =>
          rintro _ ⟨⟩
          exact endsNumber_of_isBlank (areBlank blank List.mem_cons_self)
      | nil =>
          have isSeparator := separated next rfl
          cases next <;> first
            | cases isSeparator; done
            | rintro _ ⟨⟩
              decide

/-- Cutting a text finds the lexemes it is spelt from. -/
theorem Spells.tokens_eq {lexemes : List Lexeme} {text : Text} (spells : Spells lexemes text)
    (separated : lexemes.IsChain Lexeme.Separated) :
    tokens text = lexemes.map Lexeme.token := by
  induction spells with
  | ended areBlank => exact tokens_of_blank areBlank
  | @lexeme blanks text lexeme lexemes areBlank rest inductionHypothesis =>
      rw [List.isChain_cons] at separated
      have ends (isNumber : lexeme.isNumber) : EndsNumber text :=
        rest.endsNumber fun next isNext => separated.1 next isNext isNumber
      obtain ⟨head, tail, split, noBlank, cut⟩ := lexeme.tokenAt_text text ends
      rw [tokens_of_tokenAt areBlank split noBlank cut, inductionHypothesis separated.2]
      rfl

/-! ## Documents -/

theorem isChain_append_separator {lexemes rest : List Lexeme} {separator : Lexeme}
    (isSeparator : separator.isSeparator) (first : lexemes.IsChain Lexeme.Separated)
    (second : (separator :: rest).IsChain Lexeme.Separated) :
    (lexemes ++ separator :: rest).IsChain Lexeme.Separated := by
  refine List.isChain_append.mpr ⟨first, second, ?_⟩
  rintro last - _ ⟨⟩ -
  exact isSeparator

theorem isChain_cons_of_not_number {lexemes : List Lexeme} {lexeme : Lexeme}
    (noNumber : lexeme.isNumber = false) (rest : lexemes.IsChain Lexeme.Separated) :
    (lexeme :: lexemes).IsChain Lexeme.Separated := by
  refine List.isChain_cons.mpr ⟨fun next _ isNumber => ?_, rest⟩
  rw [noNumber] at isNumber
  cases isNumber

/-- In a document every number is followed by a separator. -/
theorem Document.isChain_lexemes (document : Document) :
    document.lexemes.IsChain Lexeme.Separated := by
  induction document with
  | null => exact List.isChain_singleton _
  | boolean value => exact List.isChain_singleton _
  | number written => exact List.isChain_singleton _
  | text literal => exact List.isChain_singleton _
  | list items inductionHypothesis =>
      refine isChain_cons_of_not_number rfl ?_
      induction items with
      | nil => exact List.isChain_singleton _
      | cons item others inductionOnOthers =>
          obtain ⟨here, later⟩ := List.forall_mem_cons.mp inductionHypothesis
          cases others with
          | nil => exact isChain_append_separator rfl here (List.isChain_singleton _)
          | cons next rest =>
              exact isChain_append_separator rfl here
                (isChain_cons_of_not_number rfl (inductionOnOthers later))
  | object members inductionHypothesis =>
      refine isChain_cons_of_not_number rfl ?_
      induction members with
      | nil => exact List.isChain_singleton _
      | cons member others inductionOnOthers =>
          obtain ⟨here, later⟩ := List.forall_mem_cons.mp inductionHypothesis
          cases others with
          | nil =>
              refine isChain_cons_of_not_number rfl (isChain_cons_of_not_number rfl ?_)
              exact isChain_append_separator rfl here (List.isChain_singleton _)
          | cons next rest =>
              refine isChain_cons_of_not_number rfl (isChain_cons_of_not_number rfl ?_)
              exact isChain_append_separator rfl here
                (isChain_cons_of_not_number rfl (inductionOnOthers later))

/-- The tokens of a text are those of the document it is. -/
theorem Document.IsWrittenAs.tokens_eq {document : Document} {text : Text}
    (written : document.IsWrittenAs text) :
    tokens text = document.lexemes.map Lexeme.token :=
  Spells.tokens_eq written document.isChain_lexemes

end SourceAnnotations.Json
