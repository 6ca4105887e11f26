import JsonTemplate.Text.Numeral
import JsonTemplate.Text.Printable

set_option autoImplicit false

/-!
# Quoted texts

A text shown inside a message between quotes, with everything that would not be
seen written as an escape.
-/

namespace JsonTemplate

/-- One code point of a quoted text. The quote in use and the backslash take a
backslash, and what is not printable is written by its number. -/
def CodePoint.quoted (quote point : CodePoint) : Text :=
  if point = quote ∨ point = .scalar '\\' then [.scalar '\\', point]
  else if point = .scalar '\t' then lit "\\t"
  else if point = .scalar '\n' then lit "\\n"
  else if point = .scalar '\r' then lit "\\r"
  else if point.isPrintable then [point]
  else if point.value < 0x100 then lit "\\x" ++ Numeral.hex 2 point.value
  else if point.value < 0x10000 then lit "\\u" ++ Numeral.hex 4 point.value
  else lit "\\U" ++ Numeral.hex 8 point.value

namespace Text

/-- The quote for a text: the single one, unless the text holds single quotes and
no double ones. -/
def quoteFor (text : Text) : CodePoint :=
  if text.contains (.scalar '\'') && !text.contains (.scalar '"') then .scalar '"'
  else .scalar '\''

def quoted (text : Text) : Text :=
  let quote := quoteFor text
  quote :: text.flatMap (CodePoint.quoted quote) ++ [quote]

def quotedOctet (quote : CodePoint) (octet : UInt8) : Text :=
  if octet < 0x80 then CodePoint.quoted quote (.ofNat octet.toNat)
  else lit "\\x" ++ Numeral.hex 2 octet.toNat

def quotedOctets (octets : List UInt8) : Text :=
  let quote := quoteFor (octets.map fun octet => .ofNat octet.toNat)
  .scalar 'b' :: quote :: octets.flatMap (quotedOctet quote) ++ [quote]

end Text

end JsonTemplate
