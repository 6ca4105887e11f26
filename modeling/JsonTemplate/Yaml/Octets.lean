import JsonTemplate.Text.CodePoint

set_option autoImplicit false

/-!
# Octets in base sixty-four

Four digits hold three octets; equal signs fill up the last four places.
-/

namespace JsonTemplate.Yaml.Octets

def digit? : CodePoint → Option Nat
  | .surrogate _ => none
  | .scalar character =>
      if 'A' ≤ character ∧ character ≤ 'Z' then some (character.toNat - 'A'.toNat)
      else if 'a' ≤ character ∧ character ≤ 'z' then some (character.toNat - 'a'.toNat + 26)
      else if character.isDigit then some (character.toNat - '0'.toNat + 52)
      else if character = '+' then some 62
      else if character = '/' then some 63
      else none

/-- The octets of digits in base sixty-four. What is no digit is passed over, and equal
signs that fill up four places end the text. `place` counts the digits since the last
full four, `left` holds the bits not used yet, and `fills` counts the equal signs. -/
def from? : (place left fills : Nat) → Text → Option (List UInt8)
  | place, _, _, [] => if place = 0 then some [] else none
  | place, left, fills, point :: rest =>
      if point = .scalar '=' then
        if 2 ≤ place ∧ 4 ≤ place + fills + 1 then some []
        else from? place left (if 2 ≤ place then fills + 1 else fills) rest
      else
        match digit? point with
        | none => from? place left fills rest
        | some digit =>
            match place with
            | 0 => from? 1 digit 0 rest
            | 1 => (.ofNat (left * 4 + digit / 16) :: ·) <$> from? 2 (digit % 16) 0 rest
            | 2 => (.ofNat (left * 16 + digit / 4) :: ·) <$> from? 3 (digit % 4) 0 rest
            | _ => (.ofNat (left * 64 + digit) :: ·) <$> from? 0 0 0 rest

def ofText? (text : Text) : Option (List UInt8) :=
  if text.all (·.value < 0x80) then from? 0 0 0 text else none

end JsonTemplate.Yaml.Octets
