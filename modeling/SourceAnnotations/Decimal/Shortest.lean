import SourceAnnotations.Decimal.Binary64
import SourceAnnotations.Text.Basic

/-!
# Shortest decimals

The text of a floating-point number is the decimal with the fewest digits that reads back as it, and
of those the nearest to it. Decimals are compared with the number exactly, as fractions of units.
-/

namespace SourceAnnotations

/-- The number `digits * 10 ^ exponent`. -/
structure Decimal where
  digits : Nat
  exponent : Int
deriving DecidableEq, Repr

namespace Binary64

/-! ## The decimals that read back -/

/-- The distance from a number to the next larger one, in units. -/
def stepAbove (number : Binary64) : Nat :=
  Nat.pow 2 (excessBits number.units)

/-- The distance from a number to the next smaller one, in units. It halves at a power of two. -/
def stepBelow (number : Binary64) : Nat :=
  if excessBits number.units ≠ 0 ∧ number.units = Nat.pow 2 (Nat.log2 number.units) then
    stepAbove number / 2
  else
    stepAbove number

/-- Whether the significand is even, so that both points half way to the neighbours read back. -/
def isEven (number : Binary64) : Bool :=
  (number.units / stepAbove number) % 2 = 0

/-- Whether the fraction `dividend / divisor` of a unit reads back as the number. Quarters of units
make both half steps whole. -/
def isReadFrom (number : Binary64) (dividend divisor : Nat) : Bool :=
  let value := 4 * dividend
  let low := (4 * number.units - 2 * stepBelow number) * divisor
  let high := (4 * number.units + 2 * stepAbove number) * divisor
  if isEven number then low ≤ value && value ≤ high else low < value && value < high

def decimalUnits (decimal : Decimal) : Nat × Nat :=
  match decimal.exponent with
  | .ofNat exponent => (decimal.digits * Nat.pow 10 exponent * Nat.pow 2 unitBits, 1)
  | .negSucc exponent => (decimal.digits * Nat.pow 2 unitBits, Nat.pow 10 (exponent + 1))

def isReadFromDecimal (number : Binary64) (decimal : Decimal) : Bool :=
  let (dividend, divisor) := decimalUnits decimal
  isReadFrom number dividend divisor

/-! ## The search -/

/-- The greatest multiple of `10 ^ exponent` that is no larger than the number. -/
def decimalBelow (number : Binary64) (exponent : Int) : Decimal :=
  match exponent with
  | .ofNat power => ⟨number.units / (Nat.pow 2 unitBits * Nat.pow 10 power), exponent⟩
  | .negSucc power => ⟨number.units * Nat.pow 10 (power + 1) / Nat.pow 2 unitBits, exponent⟩

/-- Whether the upper of two neighbouring multiples is the nearer one; from half way, whether it is
the even one. -/
def isUpperNearer (number : Binary64) (lower upper : Decimal) : Bool :=
  let (lowerDividend, divisor) := decimalUnits lower
  let (upperDividend, _) := decimalUnits upper
  let sum := lowerDividend + upperDividend
  let twice := 2 * number.units * divisor
  sum < twice || (sum = twice && upper.digits % 2 = 0)

/-- The multiple of `10 ^ exponent` that reads back as the number and is nearest to it. -/
def multiple? (number : Binary64) (exponent : Int) : Option Decimal :=
  let lower := decimalBelow number exponent
  let upper : Decimal := { lower with digits := lower.digits + 1 }
  match isReadFromDecimal number lower, isReadFromDecimal number upper with
  | true, true => some (if isUpperNearer number lower upper then upper else lower)
  | true, false => some lower
  | false, true => some upper
  | false, false => none

/-- The first of `count` ever finer grids, from that of `exponent` on, with a multiple that reads
back. -/
def firstMultiple (number : Binary64) (exponent : Int) : Nat → Decimal
  | 0 => decimalBelow number exponent
  | count + 1 =>
      match multiple? number exponent with
      | some decimal => decimal
      | none => firstMultiple number (exponent - 1) count

/-- The power of ten above every number of the format. -/
def largestPower : Int := 309

/-- How many grids lie between the coarsest and the finest that is ever needed. -/
def gridCount : Nat := 309 + 342

/-- The decimal with the fewest digits that reads back as the number. -/
def shortest (number : Binary64) : Decimal :=
  if number.units = 0 then ⟨0, 0⟩ else firstMultiple number largestPower gridCount

/-! ## The text -/

def zeros (count : Nat) : Text :=
  List.replicate count '0'

/-- The text of an exponent. It always has a sign. -/
def exponentText (exponent : Int) : Text :=
  ['e', if exponent < 0 then '-' else '+'] ++ Nat.toDigits 10 exponent.natAbs

/-- A decimal as a text. From `0.00001` to below `10 ^ 16` it is positional and always has a
fraction; outside, one digit stands before the point and an exponent follows. -/
def decimalText (decimal : Decimal) : Text :=
  let digits := Nat.toDigits 10 decimal.digits
  let pointAt : Int := digits.length + decimal.exponent
  if 0 ≤ decimal.exponent && pointAt ≤ 16 then
    digits ++ zeros decimal.exponent.toNat ++ ['.', '0']
  else if 0 < pointAt && pointAt ≤ 16 then
    digits.take pointAt.toNat ++ ['.'] ++ digits.drop pointAt.toNat
  else if -5 < pointAt && pointAt ≤ 0 then
    ['0', '.'] ++ zeros (-pointAt).toNat ++ digits
  else
    let fraction := if digits.length = 1 then [] else '.' :: digits.drop 1
    digits.take 1 ++ fraction ++ exponentText (pointAt - 1)

def toText (number : Binary64) : Text :=
  decimalText (shortest number)

end Binary64

end SourceAnnotations
