import JsonTemplate.Text.CodePoint

set_option autoImplicit false

/-!
# Capital letters

Names are compared without regard to letter case by comparing their capitals.
-/

namespace JsonTemplate

/-- The capitals of one code point, as far as they are letters of ASCII. Besides
the ASCII letters these are the long s, the dotless i, the sharp s and the
ligatures of f and s. Any other code point is kept: its capitals hold a letter
outside ASCII, so no name made of ASCII letters has them. -/
def CodePoint.capitals (point : CodePoint) : Text :=
  match point with
  | .surrogate _ => [point]
  | .scalar character =>
      match character.toNat with
      | 0x017F => lit "S"
      | 0x0131 => lit "I"
      | 0x00DF => lit "SS"
      | 0xFB00 => lit "FF"
      | 0xFB01 => lit "FI"
      | 0xFB02 => lit "FL"
      | 0xFB03 => lit "FFI"
      | 0xFB04 => lit "FFL"
      | 0xFB05 => lit "ST"
      | 0xFB06 => lit "ST"
      | _ => [.scalar character.toUpper]

def Text.capitals (text : Text) : Text :=
  text.flatMap CodePoint.capitals

end JsonTemplate
