import JsonTemplate.Decimal.Binary64
import JsonTemplate.Text.Blank
import JsonTemplate.Text.Digits
import JsonTemplate.Text.Numeral
import JsonTemplate.Yaml.Fault

set_option autoImplicit false

/-!
# Numbers

The values of integers and floating-point numbers. Both may be written in base sixty,
with colons between the places. A scalar that is said to be a number may be spelled more
freely than one that only looks like a number: with space around it, with a second sign,
and with the digits of any script.
-/

namespace JsonTemplate.Yaml.Number

def unsigned : Text → Bool × Text
  | .scalar '-' :: rest => (true, rest)
  | .scalar '+' :: rest => (false, rest)
  | text => (false, text)

def ungrouped (text : Text) : Text := text.filter (· ≠ .scalar '_')

def parts (text : Text) : List Text := text.splitOn (.scalar ':')

def isInParts (text : Text) : Bool := text.contains (.scalar ':')

/-- What may stand around a number: white space, but not the separator controls. -/
def isPadding (point : CodePoint) : Bool :=
  point.isBlank && !(0x1C ≤ point.value && point.value ≤ 0x1F)

def unpadded (text : Text) : Text :=
  ((text.dropWhile isPadding).reverse.dropWhile isPadding).reverse

def signed (negative : Bool) (number : Nat) : Int :=
  if negative then -(number : Int) else number

/-! ## Integers -/

/-- The value of a digit: a decimal digit of any script, or a letter up to `f`. -/
def digitValue? (point : CodePoint) : Option Nat :=
  point.decimal?.orElse fun _ => point.hexValue?

def inBase? (base : Nat) (digits : Text) : Option Nat :=
  if digits.isEmpty then none
  else digits.foldlM (fun number digit => do
    let value ← digitValue? digit
    if value < base then some (number * base + value) else none) 0

def markOf (base : Nat) : Option Char :=
  if base = 2 then some 'b' else if base = 8 then some 'o' else if base = 16 then some 'x' else none

def unmarked (base : Nat) (digits : Text) : Text :=
  match digits with
  | zero :: letter :: rest =>
      if zero = .scalar '0' && (markOf base).any (fun mark => letter.asciiLower = .scalar mark)
      then rest
      else digits
  | _ => digits

/-- An integer in a base, with space around it, a sign, and the mark of the base. In base
ten it has a limited number of digits. -/
def spelled? (base : Nat) (text : Text) : Option Int := do
  let (negative, body) := unsigned (unpadded text)
  let digits := unmarked base body
  if base = 10 ∧ Numeral.mostDigits < digits.length then none
  else return signed negative (← inBase? base digits)

/-- An integer without its sign and its underscores: base two and base sixteen have a
mark, and a zero in front means base eight. -/
def integerBody? (body : Text) : Option Int :=
  match body with
  | .scalar '0' :: .scalar 'b' :: digits => spelled? 2 digits
  | .scalar '0' :: .scalar 'x' :: digits => spelled? 16 digits
  | .scalar '0' :: rest => if rest.isEmpty then some 0 else spelled? 8 body
  | _ =>
      if isInParts body then do
        let values ← (parts body).mapM (spelled? 10)
        return values.foldl (fun number part => number * 60 + part) 0
      else spelled? 10 body

def integer (text : Text) : Except Fault Int :=
  let (negative, body) := unsigned (ungrouped text)
  if body.isEmpty then .error .emptyNumber
  else
    match integerBody? body with
    | some number => .ok (if negative then -number else number)
    | none => .error .badValue

/-! ## Floating-point numbers -/

def digits : Text → List Nat × Text
  | [] => ([], [])
  | point :: rest =>
      match point.decimal? with
      | some value =>
          let (values, rest) := digits rest
          (value :: values, rest)
      | none => ([], point :: rest)

def ofDigits (digits : List Nat) : Nat :=
  digits.foldl (fun number digit => number * 10 + digit) 0

def exponent? : Text → Option Int
  | [] => some 0
  | letter :: rest =>
      let (negative, rest) := unsigned rest
      match digits rest with
      | (first :: others, []) =>
          if letter = .scalar 'e' then some (signed negative (ofDigits (first :: others))) else none
      | _ => none

def decimal? (text : Text) : Option Float := do
  let (whole, rest) := digits text
  let (places, rest) := match rest with
    | .scalar '.' :: after => digits after
    | _ => ([], rest)
  if whole.isEmpty ∧ places.isEmpty then none
  else
    let exponent ← exponent? rest
    return Binary64.ofDecimal ⟨false, ofDigits (whole ++ places), exponent - places.length⟩

/-- A floating-point number in lower case, with space around it and a sign. Infinity and
what is no number have names. -/
def spelledFloat? (text : Text) : Option Float := do
  let (negative, body) := unsigned (unpadded text)
  let magnitude ←
    if body = lit "inf" ∨ body = lit "infinity" then some (1.0 / 0.0)
    else if body = lit "nan" then some (0.0 / 0.0)
    else decimal? body
  return if negative then -magnitude else magnitude

/-- The sum of parts in base sixty, from the last one on, which counts ones. Each unit is
rounded by itself, and it has to be within the range of the format. -/
def inSixty (total : Float) (unit : Nat) : List Float → Except Fault Float
  | [] => .ok total
  | part :: rest =>
      match Binary64.ofNat? unit with
      | some size => inSixty (total + part * size) (unit * 60) rest
      | none => .error .tooLarge

def floatBody (text : Text) : Bool × Text :=
  unsigned (ungrouped text).asciiLower

def isNotANumber (text : Text) : Bool :=
  (floatBody text).2 = lit ".nan"

def float (text : Text) : Except Fault Float :=
  if (ungrouped text).isEmpty then .error .emptyNumber
  else do
    let (negative, body) := floatBody text
    let magnitude ←
      if body = lit ".inf" then .ok (1.0 / 0.0)
      else if body = lit ".nan" then .ok (0.0 / 0.0)
      else if isInParts body then
        match (parts body).mapM spelledFloat? with
        | some values => inSixty 0.0 1 values.reverse
        | none => .error .badValue
      else
        match spelledFloat? body with
        | some value => .ok value
        | none => .error .badValue
    return if negative then -magnitude else magnitude

end JsonTemplate.Yaml.Number
