import JsonTemplate.Text.CodePoint

set_option autoImplicit false

/-!
# Numerals

Natural numbers and integers written with decimal digits, and code units written
with hexadecimal ones.
-/

namespace JsonTemplate.Numeral

def digit (number : Nat) : CodePoint :=
  .scalar (Nat.digitChar number)

def digitsOnto (number : Nat) (rest : Text) : Text :=
  if number < 10 then digit number :: rest
  else digitsOnto (number / 10) (digit (number % 10) :: rest)
termination_by number
decreasing_by omega

def ofNat (number : Nat) : Text :=
  digitsOnto number []

def ofInt (number : Int) : Text :=
  if number < 0 then .scalar '-' :: ofNat number.natAbs else ofNat number.natAbs

def padded (width number : Nat) : Text :=
  let digits := ofNat number
  List.replicate (width - digits.length) (.scalar '0') ++ digits

/-- Exactly `width` hexadecimal digits in lower case, the lowest ones of the number. -/
def hex : (width number : Nat) → Text
  | 0, _ => []
  | width + 1, number => hex width (number / 16) ++ [digit (number % 16)]

def value (digits : Text) : Nat :=
  digits.foldl (fun number digit => number * 10 + digit.digitValue) 0

/-- The most decimal digits that an integer is read from or written with. -/
def mostDigits : Nat := 4300

def isWritable (number : Int) : Bool :=
  number.natAbs < Nat.pow 10 mostDigits

def span (text : Text) : Text × Text :=
  (text.takeWhile CodePoint.isDigit, text.dropWhile CodePoint.isDigit)

end JsonTemplate.Numeral
