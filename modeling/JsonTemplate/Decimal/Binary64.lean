import JsonTemplate.Decimal.Notation

set_option autoImplicit false

/-!
# Decimal forms of binary64 numbers

A finite number of this format is an integer times a power of two. Its shortest
decimal is the one with the fewest digits among those that no other number of the
format is nearer to; its fixed form has a given number of places. A decimal is rounded
to the nearest number of the format.
-/

namespace JsonTemplate.Binary64

/-- A finite number without its sign: `significand` times two to the power. The
flag tells that the next smaller number is only half a step away. -/
structure Magnitude where
  significand : Nat
  power : Int
  narrowBelow : Bool
deriving Repr

inductive Form where
  | notANumber
  | infinite (negative : Bool)
  | finite (negative : Bool) (magnitude : Magnitude)

def form (number : Float) : Form :=
  let bits := number.toBits.toNat
  let negative := bits / Nat.pow 2 63 % 2 = 1
  let exponent : Nat := bits / Nat.pow 2 52 % 2048
  let fraction : Nat := bits % Nat.pow 2 52
  if exponent = 2047 then if fraction = 0 then .infinite negative else .notANumber
  else if exponent = 0 then .finite negative ⟨fraction, -1074, false⟩
  else
    .finite negative
      ⟨Nat.pow 2 52 + fraction, (exponent : Int) - 1075, fraction = 0 && exponent ≠ 1⟩

namespace Magnitude

/-- Four times the number as a quotient of naturals, so that the ends of the interval
around it are whole multiples too. -/
def scaled (magnitude : Magnitude) : Nat × Nat :=
  if 0 ≤ magnitude.power then (4 * magnitude.significand * Nat.pow 2 magnitude.power.toNat, 4)
  else (4 * magnitude.significand, 4 * Nat.pow 2 magnitude.power.natAbs)

/-- A quarter of the distance to the next larger number, on the scale of `scaled`. -/
def quarterStep (magnitude : Magnitude) : Nat :=
  if 0 ≤ magnitude.power then Nat.pow 2 magnitude.power.toNat else 1

def leadingPower (numerator denominator : Nat) : Int :=
  if denominator ≤ numerator then
    (Numeral.ofNat (numerator / denominator)).length - 1
  else
    let places := (Numeral.ofNat (denominator / numerator)).length - 1
    if denominator ≤ numerator * Nat.pow 10 places then -(places : Int) else -(places : Int) - 1

/-- Whether a multiple of a power of ten is nearer to the number than to its
neighbours; the ends of the interval count when the significand is even. -/
def covers (magnitude : Magnitude) (coefficient : Nat) (exponent : Int) : Bool :=
  let (numerator, denominator) := magnitude.scaled
  let step := magnitude.quarterStep
  let above := numerator + 2 * step
  let below := numerator - (if magnitude.narrowBelow then step else 2 * step)
  let (left, right) :=
    if 0 ≤ exponent then (coefficient * Nat.pow 10 exponent.toNat * denominator, 1)
    else (coefficient * denominator, Nat.pow 10 exponent.natAbs)
  if magnitude.significand % 2 = 0 then below * right ≤ left && left ≤ above * right
  else below * right < left && left < above * right

/-- The multiples of a power of ten next to the number: the lower one, and whether
the upper one is nearer, where of two equally near ones the even is taken. -/
def onGrid (magnitude : Magnitude) (exponent : Int) : Nat × Bool :=
  let (numerator, denominator) := magnitude.scaled
  let (numerator, denominator) :=
    if 0 ≤ exponent then (numerator, denominator * Nat.pow 10 exponent.toNat)
    else (numerator * Nat.pow 10 exponent.natAbs, denominator)
  let lower := numerator / denominator
  let twice := 2 * (numerator % denominator)
  (lower, twice > denominator || (twice = denominator && lower % 2 = 1))

def shortestFrom (magnitude : Magnitude) (leading : Int) : (tries digits : Nat) → Nat × Int
  | tries, digits =>
      let exponent := leading - digits
      let (lower, upperNearer) := magnitude.onGrid exponent
      let near := if upperNearer then lower + 1 else lower
      let far := if upperNearer then lower else lower + 1
      match tries with
      -- Seventeen digits suffice, so the last try need not be checked.
      | 0 => (near, exponent)
      | tries + 1 =>
          if magnitude.covers near exponent then (near, exponent)
          else if magnitude.covers far exponent then (far, exponent)
          else shortestFrom magnitude leading tries (digits + 1)

def shortest (magnitude : Magnitude) : Nat × Int :=
  if magnitude.significand = 0 then (0, 0)
  else
    let (numerator, denominator) := magnitude.scaled
    let (coefficient, exponent) :=
      shortestFrom magnitude (leadingPower numerator denominator) 16 0
    Decimal.strip coefficient exponent

/-- The number rounded to whole multiples of a tenth to the power of `places`, a tie
going to the even one, with that many digits after the point. -/
def fixed (magnitude : Magnitude) (places : Nat) : Text :=
  let (lower, up) := magnitude.onGrid (-(places : Int))
  Decimal.pointed (Numeral.ofNat (if up then lower + 1 else lower)) places

end Magnitude

/-- The shortest notation of a finite number: positional with at least one place
from `1e-4` up to `1e16`, else with an exponent of at least two digits. -/
def magnitudeText (magnitude : Magnitude) : Text :=
  let (coefficient, exponent) := magnitude.shortest
  let digits := Numeral.ofNat coefficient
  let leading := exponent + digits.length - 1
  if magnitude.significand = 0 then lit "0.0"
  else if -4 ≤ leading ∧ leading < 16 then
    if 0 ≤ exponent then
      digits ++ List.replicate exponent.toNat (.scalar '0') ++ lit ".0"
    else Decimal.pointed digits exponent.natAbs
  else
    let mantissa := match digits with
      | first :: second :: rest => first :: .scalar '.' :: second :: rest
      | short => short
    mantissa ++ lit (if leading < 0 then "e-" else "e+") ++ Numeral.padded 2 leading.natAbs

structure Words where
  notANumber : Text
  infinity : Text
  negativeInfinity : Text

def text (words : Words) (number : Float) : Text :=
  match form number with
  | .notANumber => words.notANumber
  | .infinite negative => if negative then words.negativeInfinity else words.infinity
  | .finite negative magnitude =>
      if negative then .scalar '-' :: magnitudeText magnitude else magnitudeText magnitude

def fixedText (places : Nat) (number : Float) : Text :=
  match form number with
  | .notANumber => lit "nan"
  | .infinite negative => if negative then lit "-inf" else lit "inf"
  | .finite negative magnitude =>
      if negative then .scalar '-' :: magnitude.fixed places else magnitude.fixed places

/-! ## Rounding -/

def leadingBit (numerator denominator : Nat) : Int :=
  let guess := (numerator.log2 : Int) - denominator.log2
  let reached :=
    if 0 ≤ guess then denominator * Nat.pow 2 guess.toNat ≤ numerator
    else denominator ≤ numerator * Nat.pow 2 guess.natAbs
  if reached then guess else guess - 1

def roundedQuotient (numerator denominator : Nat) : Nat :=
  let lower := numerator / denominator
  let twice := 2 * (numerator % denominator)
  if twice > denominator || (twice = denominator && lower % 2 = 1) then lower + 1 else lower

def infinityBits : Nat := 2047 * Nat.pow 2 52

def nearestBits (numerator denominator : Nat) : Nat :=
  if numerator = 0 then 0
  else
    let power := max (-1074) (leadingBit numerator denominator - 52)
    let significand :=
      if 0 ≤ power then roundedQuotient numerator (denominator * Nat.pow 2 power.toNat)
      else roundedQuotient (numerator * Nat.pow 2 power.natAbs) denominator
    -- Bits count the numbers from zero on, so a significand that is rounded up to the next
    -- power of two needs no case of its own.
    min infinityBits (significand + (power + 1074).toNat * Nat.pow 2 52)

def ofBits (bits : Nat) : Float := Float.ofBits (.ofNat bits)

def ofDecimal (number : Decimal) : Float :=
  let bits :=
    -- Magnitudes that are far too large or too small are not written out.
    if number.coefficient = 0 ∨ number.adjusted < -400 then 0
    else if 400 < number.adjusted then infinityBits
    else if 0 ≤ number.exponent then
      nearestBits (number.coefficient * Nat.pow 10 number.exponent.toNat) 1
    else nearestBits number.coefficient (Nat.pow 10 number.exponent.natAbs)
  ofBits (if number.negative then Nat.pow 2 63 + bits else bits)

/-- The number nearest to a natural number, unless that is beyond all finite ones. -/
def ofNat? (number : Nat) : Option Float :=
  let bits := nearestBits number 1
  if bits < infinityBits then some (ofBits bits) else none

def equalsInt (number : Float) (value : Int) : Bool :=
  match form number with
  | .finite negative magnitude =>
      let (numerator, denominator) := magnitude.scaled
      numerator = value.natAbs * denominator && (value = 0 || negative = decide (value < 0))
  | _ => false

end JsonTemplate.Binary64
