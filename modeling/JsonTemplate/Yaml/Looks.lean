import JsonTemplate.Yaml.Number
import JsonTemplate.Yaml.Stamp
import JsonTemplate.Yaml.Tag

set_option autoImplicit false

/-!
# Looks

The type that a plain scalar has by what it looks like. A line feed at its end does not
count.
-/

namespace JsonTemplate.Yaml

/-! ## Words -/

def isCasing (word : String) (text : Text) : Bool :=
  text = lit word || text = lit word.capitalize || text = lit word.toUpper

def booleanOf? (text : Text) : Option Bool :=
  if ["yes", "true", "on"].any (isCasing · text) then some true
  else if ["no", "false", "off"].any (isCasing · text) then some false
  else none

def isNull (text : Text) : Bool :=
  text.isEmpty || text = lit "~" || isCasing "null" text

/-! ## Numbers -/

def isGrouped (kind : CodePoint → Bool) (point : CodePoint) : Bool :=
  kind point || point = .scalar '_'

def isDigitBelow (base : Nat) (point : CodePoint) : Bool :=
  point.isDigit && point.digitValue < base

def isSixtieth (part : Text) : Bool :=
  match part with
  | [single] => single.isDigit
  | [tens, ones] => isDigitBelow 6 tens && ones.isDigit
  | _ => false

def isGroupedNumber : Text → Bool
  | [] => false
  | first :: rest => first.isDigit && rest.all (isGrouped CodePoint.isDigit)

def isGroupedRun (kind : CodePoint → Bool) (digits : Text) : Bool :=
  !digits.isEmpty && digits.all (isGrouped kind)

def looksInteger (text : Text) : Bool :=
  match (Number.unsigned text).2 with
  | [.scalar '0'] => true
  | .scalar '0' :: .scalar 'b' :: digits => isGroupedRun (isDigitBelow 2) digits
  | .scalar '0' :: .scalar 'x' :: digits =>
      isGroupedRun (fun digit => digit.hexValue?.isSome) digits
  | .scalar '0' :: digits => isGroupedRun (isDigitBelow 8) digits
  | body =>
      match Number.parts body with
      | whole :: sixtieths => isGroupedNumber whole && sixtieths.all isSixtieth
      | [] => false

def isSignedExponent : Text → Bool
  | [] => true
  | letter :: sign :: digits =>
      (letter = .scalar 'e' || letter = .scalar 'E') &&
        (sign = .scalar '-' || sign = .scalar '+') && !digits.isEmpty &&
        digits.all CodePoint.isDigit
  | _ => false

/-- Floating-point numbers: with a point, in base ten or sixty, or one of the values that
are not finite. -/
def looksFloat (text : Text) : Bool :=
  let (_, body) := Number.unsigned text
  let (whole, rest) := body.span (· ≠ .scalar '.')
  match rest with
  | [] => false
  | _ :: places =>
      let exponent := places.dropWhile (isGrouped CodePoint.isDigit)
      let infinite := body = lit ".inf" || body = lit ".Inf" || body = lit ".INF"
      let nothing := text = lit ".nan" || text = lit ".NaN" || text = lit ".NAN"
      if infinite || nothing then true
      else if whole.isEmpty then
        text.head? == some (.scalar '.') && places.head?.any CodePoint.isDigit &&
          isSignedExponent exponent
      else
        match Number.parts whole with
        | [single] => isGroupedNumber single && isSignedExponent exponent
        | first :: sixtieths =>
            isGroupedNumber first && sixtieths.all isSixtieth && exponent.isEmpty
        | [] => false

/-! ## Types -/

/-- The type that a plain scalar has by its looks. The marks of tags, anchors and aliases
cannot be plain scalars, and have no type that is known. -/
def Tag.ofLooks (text : Text) : Tag :=
  let text := withoutLastBreak text
  if isNull text then .null
  else if (booleanOf? text).isSome then .boolean
  else if looksFloat text then .float
  else if looksInteger text then .integer
  else if text = lit "<<" then .merge
  else if Stamp.isLook text then .timestamp
  else if text = lit "=" then .default
  else if [lit "!", lit "&", lit "*"].contains text then .unknown
  else .text

end JsonTemplate.Yaml
