import JsonTemplate.Text.Numeral

set_option autoImplicit false

/-!
# Exact decimal numbers

A number of a document keeps the form it was written in: an integer, or a sign, a
coefficient and a power of ten. Numbers of either form are compared by value.
-/

namespace JsonTemplate

/-- A sign, a coefficient, and the power of ten that the coefficient counts. The
sign of a zero and the zeros at the end of a coefficient are kept. -/
structure Decimal where
  negative : Bool
  coefficient : Nat
  exponent : Int
deriving DecidableEq, Repr

namespace Decimal

def strip (coefficient : Nat) (exponent : Int) : Nat × Int :=
  if coefficient = 0 then (0, 0)
  else if coefficient % 10 = 0 then strip (coefficient / 10) (exponent + 1)
  else (coefficient, exponent)
termination_by coefficient
decreasing_by omega

/-- The one way of writing a value as an integer times a power of ten where the
integer does not end in a zero; zero is `(0, 0)`. Two decimals denote the same
number when their reduced forms agree, however large their exponents are. -/
def reduced (number : Decimal) : Int × Int :=
  let (coefficient, exponent) := strip number.coefficient number.exponent
  (if number.negative then -(coefficient : Int) else coefficient, exponent)

/-- The power of ten of the first digit, counting a zero as one digit. -/
def adjusted (number : Decimal) : Int :=
  number.exponent + (Numeral.ofNat number.coefficient).length - 1

def largestAdjusted : Int := 999999999999999999

/-- The smallest power of ten that a last digit may stand for once the first digit
is beyond the same bound on the small side. -/
def smallestExponent : Int := -1999999999999999997

def inRange (number : Decimal) : Bool :=
  number.adjusted ≤ largestAdjusted &&
    (-largestAdjusted ≤ number.adjusted || smallestExponent ≤ number.exponent)

end Decimal

/-- A number of a document: an integer, or a number written with a fraction or an
exponent. -/
inductive Number where
  | integer (value : Int)
  | decimal (value : Decimal)
deriving DecidableEq, Repr

namespace Number

def toDecimal : Number → Decimal
  | .integer value => ⟨value < 0, value.natAbs, 0⟩
  | .decimal value => value

def sameValue (left right : Number) : Bool :=
  left.toDecimal.reduced = right.toDecimal.reduced

end Number

end JsonTemplate
