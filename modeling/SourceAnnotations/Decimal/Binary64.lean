/-!
# Binary floating point

The non-negative finite numbers of the binary format with 64 bits. Each is a whole number of units,
one unit being the smallest positive number of the format; a number of units can be represented when
no more than 53 binary digits separate its highest from its lowest set bit, and it is below the
bound. Each operation is the exact result rounded once, to the nearest number of the format, and to
the neighbour with the even significand from half way.
-/

namespace SourceAnnotations

/-- A non-negative finite number of the format, counted in its smallest positive number. -/
structure Binary64 where
  units : Nat
deriving DecidableEq, Repr

namespace Binary64

/-- How many units make one, as a power of two. -/
def unitBits : Nat := 1074

def significandBits : Nat := 53

/-- The power of two, in units, at which the format ends. -/
def boundBits : Nat := unitBits + 1024

/-- The quotient rounded to the nearest whole number, and from half way to the even neighbour. -/
def divideToNearest (dividend divisor : Nat) : Nat :=
  let quotient := dividend / divisor
  let twice := 2 * (dividend % divisor)
  if twice < divisor then quotient
  else if divisor < twice then quotient + 1
  else quotient + quotient % 2

/-- How many low bits a number of units has no room for. -/
def excessBits (units : Nat) : Nat :=
  Nat.log2 units + 1 - significandBits

/-- The number nearest to a fraction of units, unless that reaches the bound. -/
def nearest? (dividend divisor : Nat) : Option Binary64 :=
  let step := Nat.pow 2 (excessBits (dividend / divisor))
  let units := divideToNearest dividend (divisor * step) * step
  if units < Nat.pow 2 boundBits then some ⟨units⟩ else none

def zero : Binary64 := ⟨0⟩

/-- The number nearest to a whole number. -/
def ofNat? (value : Nat) : Option Binary64 :=
  nearest? (value * Nat.pow 2 unitBits) 1

def multiply? (left right : Binary64) : Option Binary64 :=
  nearest? (left.units * right.units) (Nat.pow 2 unitBits)

def divide? (left right : Binary64) : Option Binary64 :=
  nearest? (left.units * Nat.pow 2 unitBits) right.units

end Binary64

end SourceAnnotations
