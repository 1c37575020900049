import SourceAnnotations.Decimal.Shortest
import SourceAnnotations.Json.Fault

/-!
# Numbers of a JSON text

A number as it is written consists of a sign, digits, digits after a point and an exponent. Its
value is a whole number where it is written as one and fits sixty-four bits, and a floating-point
number otherwise. That number is found from as many leading digits as fit sixty-four bits: they are
rounded once, and once more when they are multiplied or divided by a power of ten.
-/

namespace SourceAnnotations.Json

structure Numeral where
  isNegative : Bool
  whole : Text
  /-- The digits after the point; there are none where no point is written. -/
  fraction : Text
  exponent : Option Int
deriving DecidableEq, Repr

inductive Number
  | natural (value : Nat)
  /-- The whole number that lies `magnitude` below zero. -/
  | negative (magnitude : Nat)
  | floating (isNegative : Bool) (magnitude : Binary64)
deriving DecidableEq, Repr

namespace Number

/-- The text of a number; a floating-point number never looks like a whole one. -/
def toText : Number → Text
  | natural value => Nat.toDigits 10 value
  | negative magnitude => '-' :: Nat.toDigits 10 magnitude
  | floating isNegative magnitude =>
      (if isNegative then ['-'] else []) ++ magnitude.toText

/-- The number as something found in a text. -/
def found : Number → Found
  | natural value => .integer value
  | negative magnitude => .integer (-magnitude)
  | floating isNegative magnitude => .floating (floating isNegative magnitude).toText

end Number

/-! ## Reading a numeral

Each step answers what it has read and what follows it. A step that fails answers whether the text
ends where a digit is wanted. -/

def scanDigits (text : Text) : Except Bool (Text × Text) :=
  if (text.takeWhile Char.isDigit).isEmpty then
    .error text.isEmpty
  else
    .ok (text.takeWhile Char.isDigit, text.dropWhile Char.isDigit)

def scanFraction (text : Text) : Except Bool (Text × Text) :=
  match text with
  | '.' :: rest => scanDigits rest
  | _ => .ok ([], text)

/-- A minus sign or a plus sign or nothing; the answer tells whether it is a minus sign. -/
def scanSign (text : Text) : Bool × Text :=
  match text with
  | '-' :: rest => (true, rest)
  | '+' :: rest => (false, rest)
  | _ => (false, text)

def scanExponentDigits (text : Text) : Except Bool (Option Int × Text) :=
  match scanDigits (scanSign text).2 with
  | .error isAtEnd => .error isAtEnd
  | .ok (digits, rest) =>
      let size : Int := Nat.ofDigitChars 10 digits 0
      .ok (some (if (scanSign text).1 then -size else size), rest)

def scanExponent (text : Text) : Except Bool (Option Int × Text) :=
  match text with
  | 'e' :: rest => scanExponentDigits rest
  | 'E' :: rest => scanExponentDigits rest
  | _ => .ok (none, text)

/-- Whether a zero stands before other digits. -/
def hasLeadingZero (digits : Text) : Bool :=
  digits.head? = some '0' && 1 < digits.length

def scanUnsigned (isNegative : Bool) (text : Text) : Except Bool (Numeral × Text) :=
  match scanDigits text with
  | .error isAtEnd => .error isAtEnd
  | .ok (whole, rest) =>
      if hasLeadingZero whole then
        .error false
      else
        match scanFraction rest with
        | .error isAtEnd => .error isAtEnd
        | .ok (fraction, rest) =>
            match scanExponent rest with
            | .error isAtEnd => .error isAtEnd
            | .ok (exponent, rest) => .ok (⟨isNegative, whole, fraction, exponent⟩, rest)

def scanNumeral (text : Text) : Except Bool (Numeral × Text) :=
  match text with
  | '-' :: rest => scanUnsigned true rest
  | _ => scanUnsigned false text

theorem length_dropWhile_le (wanted : Char → Bool) (text : Text) :
    (text.dropWhile wanted).length ≤ text.length :=
  (List.dropWhile_sublist wanted).length_le

theorem scanDigits_length {text digits rest : Text}
    (scanned : scanDigits text = .ok (digits, rest)) : rest.length < text.length := by
  unfold scanDigits at scanned
  split at scanned
  · cases scanned
  · next someDigits =>
    injection scanned with equality
    injection equality with digitsEquality restEquality
    subst restEquality
    cases text with
    | nil => simp at someDigits
    | cons head tail =>
      by_cases isDigit : head.isDigit
      · simpa [List.dropWhile_cons, isDigit] using
          Nat.lt_succ_of_le (length_dropWhile_le Char.isDigit tail)
      · simp [isDigit] at someDigits

theorem scanFraction_length {text fraction rest : Text}
    (scanned : scanFraction text = .ok (fraction, rest)) : rest.length ≤ text.length := by
  unfold scanFraction at scanned
  split at scanned
  · exact Nat.le_succ_of_le (Nat.le_of_lt (scanDigits_length scanned))
  · simp_all

theorem scanSign_length (text : Text) : (scanSign text).2.length ≤ text.length := by
  unfold scanSign
  split <;> simp

theorem scanExponentDigits_length {text rest : Text} {exponent : Option Int}
    (scanned : scanExponentDigits text = .ok (exponent, rest)) :
    rest.length ≤ text.length := by
  unfold scanExponentDigits at scanned
  split at scanned
  · cases scanned
  · next digitsScanned =>
    injection scanned with equality
    injection equality with exponentEquality restEquality
    subst restEquality
    exact Nat.le_trans (Nat.le_of_lt (scanDigits_length digitsScanned)) (scanSign_length text)

theorem scanExponent_length {text rest : Text} {exponent : Option Int}
    (scanned : scanExponent text = .ok (exponent, rest)) : rest.length ≤ text.length := by
  unfold scanExponent at scanned
  split at scanned
  · exact Nat.le_succ_of_le (scanExponentDigits_length scanned)
  · exact Nat.le_succ_of_le (scanExponentDigits_length scanned)
  · simp_all

theorem scanUnsigned_length {isNegative : Bool} {text rest : Text} {numeral : Numeral}
    (scanned : scanUnsigned isNegative text = .ok (numeral, rest)) :
    rest.length < text.length := by
  unfold scanUnsigned at scanned
  split at scanned
  · cases scanned
  · next wholeScanned =>
    split at scanned
    · cases scanned
    · split at scanned
      · cases scanned
      · next fractionScanned =>
        split at scanned
        · cases scanned
        · next exponentScanned =>
          injection scanned with equality
          injection equality with numeralEquality restEquality
          subst restEquality
          have := scanDigits_length wholeScanned
          have := scanFraction_length fractionScanned
          have := scanExponent_length exponentScanned
          omega

theorem scanNumeral_length {text rest : Text} {numeral : Numeral}
    (scanned : scanNumeral text = .ok (numeral, rest)) : rest.length < text.length := by
  unfold scanNumeral at scanned
  split at scanned
  · exact Nat.lt_succ_of_lt (scanUnsigned_length scanned)
  · exact scanUnsigned_length scanned

/-! ## The value of a numeral -/

/-- The bound of whole numbers with sixty-four bits. -/
def wordBound : Nat := Nat.pow 2 64

/-- The number that digits make when they are written after those of `significand`, as far as it
stays within the bound, and how many digits are then left. -/
def absorbDigits (significand : Nat) : Text → Nat × Nat
  | [] => (significand, 0)
  | digit :: rest =>
      let next := 10 * significand + (digit.toNat - '0'.toNat)
      if next < wordBound then
        absorbDigits next rest
      else
        (significand, rest.length + 1)

/-- The largest exponent of ten that one step multiplies or divides by. -/
def largestStep : Nat := 308

/-- A number divided by `10 ^ exponent`, in steps no larger than the largest. -/
def divideByPower (number : Binary64) (exponent : Nat) : Option Binary64 :=
  if exponent ≤ largestStep then do
    number.divide? (← Binary64.ofNat? (Nat.pow 10 exponent))
  else if number.units = 0 then
    some number
  else do
    let next ← number.divide? (← Binary64.ofNat? (Nat.pow 10 largestStep))
    divideByPower next (exponent - largestStep)
termination_by exponent
decreasing_by
  simp only [largestStep] at *
  omega

/-- A number times `10 ^ exponent`. -/
def scaleByPower (number : Binary64) (exponent : Int) : Option Binary64 :=
  match exponent with
  | .ofNat power =>
      if power ≤ largestStep then do
        number.multiply? (← Binary64.ofNat? (Nat.pow 10 power))
      else if number.units = 0 then
        some number
      else
        none
  | .negSucc power => divideByPower number (power + 1)

namespace Numeral

/-- The whole number written without point and exponent, if it fits. -/
def wholeNumber? (numeral : Numeral) (significand : Nat) : Option Number :=
  if !numeral.isNegative then
    some (.natural significand)
  else if 0 < significand && significand ≤ wordBound / 2 then
    some (.negative significand)
  else
    none

/-- The value of a numeral, unless it is too large for the floating-point format. -/
def value (numeral : Numeral) : Except Fault Number :=
  let (significand, wholeLeft) := absorbDigits 0 numeral.whole
  let isPlain := wholeLeft = 0 && numeral.fraction.isEmpty && numeral.exponent.isNone
  match (if isPlain then numeral.wholeNumber? significand else none) with
  | some number => .ok number
  | none =>
      let (significand, fractionLeft) := absorbDigits significand numeral.fraction
      let exponent : Int :=
        wholeLeft - (numeral.fraction.length - fractionLeft : Nat) + numeral.exponent.getD 0
      match (Binary64.ofNat? significand).bind (scaleByPower · exponent) with
      | some magnitude => .ok (.floating numeral.isNegative magnitude)
      | none => .error .numberOutOfRange

end Numeral

end SourceAnnotations.Json
