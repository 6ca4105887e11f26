import JsonTemplate.Text.CodePoint

set_option autoImplicit false

/-!
# Blank code points

White space in the wide sense: separators of words, lines and fields.
-/

namespace JsonTemplate

/-- White space of Unicode, with the four separator controls `U+001C` to `U+001F`.
The zero-width space is not white space. -/
def CodePoint.isBlank (point : CodePoint) : Bool :=
  let number := point.value
  (0x09 ≤ number && number ≤ 0x0D) || (0x1C ≤ number && number ≤ 0x20) ||
    number == 0x85 || number == 0xA0 || number == 0x1680 ||
    (0x2000 ≤ number && number ≤ 0x200A) || number == 0x2028 || number == 0x2029 ||
    number == 0x202F || number == 0x205F || number == 0x3000

namespace Text

def isBlank (text : Text) : Bool :=
  text.all CodePoint.isBlank

def trim (text : Text) : Text :=
  ((text.dropWhile CodePoint.isBlank).reverse.dropWhile CodePoint.isBlank).reverse

end Text

end JsonTemplate
