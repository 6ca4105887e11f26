import JsonTemplate.Decimal.Basic

set_option autoImplicit false

/-!
# Decimal notation

How numbers are written. Every digit and the exponent can be read back from the
notation.
-/

namespace JsonTemplate

namespace Decimal

/-- Digits with a point before the last `places` of them, and at least one digit
before the point. -/
def pointed (digits : Text) (places : Nat) : Text :=
  if places = 0 then digits
  else
    let padded := List.replicate (places + 1 - digits.length) (.scalar '0') ++ digits
    padded.take (padded.length - places) ++ .scalar '.' :: padded.drop (padded.length - places)

def scientific (digits : Text) (power : Int) : Text :=
  let mantissa := match digits with
    | first :: second :: rest => first :: .scalar '.' :: second :: rest
    | short => short
  mantissa ++ .scalar 'E' :: .scalar (if power < 0 then '-' else '+') :: Numeral.ofNat power.natAbs

/-- The notation of a decimal: positional when no zeros have to be added on the
right and at most five between the point and the first digit, else scientific. -/
def render (number : Decimal) : Text :=
  let digits := Numeral.ofNat number.coefficient
  let magnitude :=
    if number.exponent ≤ 0 ∧ -6 ≤ number.adjusted then pointed digits number.exponent.natAbs
    else scientific digits number.adjusted
  if number.negative then .scalar '-' :: magnitude else magnitude

end Decimal

def Number.render : Number → Text
  | .integer value => Numeral.ofInt value
  | .decimal value => value.render

end JsonTemplate
