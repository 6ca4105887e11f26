import JsonTemplate.Json.Printer

set_option autoImplicit false

/-!
# Documents in ASCII

String literals that any reader of ASCII can take, and documents laid out over lines.
-/

namespace JsonTemplate.Json

/-- One code point inside an ASCII string literal. Beyond the visible characters of
ASCII its number is written, above the first 65536 numbers as a surrogate pair. -/
def asciiPoint (point : CodePoint) : Text :=
  let number := point.value
  if number < 0x7F then escapePoint point
  else if number < 0x10000 then lit "\\u" ++ Numeral.hex 4 number
  else
    lit "\\u" ++ Numeral.hex 4 (0xD800 + (number - 0x10000) / 0x400) ++
      lit "\\u" ++ Numeral.hex 4 (0xDC00 + (number - 0x10000) % 0x400)

def asciiLiteral (text : Text) : Text :=
  .scalar '"' :: text.flatMap asciiPoint ++ [.scalar '"']

/-- The start of a line inside so many arrays and objects: two spaces for each. -/
def newLine (depth : Nat) : Text :=
  .scalar '\n' :: List.replicate (2 * depth) (.scalar ' ')

/-- Parts between brackets, each on a line of its own; without parts the brackets stand
together. -/
def layOut (opening closing : Char) (depth : Nat) (parts : List Text) : Text :=
  if parts.isEmpty then [.scalar opening, .scalar closing]
  else
    .scalar opening :: Text.join [.scalar ','] (parts.map (newLine (depth + 1) ++ ·)) ++
      newLine depth ++ [.scalar closing]

mutual

def renderLines (depth : Nat) : Json → Text
  | .null => lit "null"
  | .boolean value => if value then lit "true" else lit "false"
  | .number value => value.render
  | .string text => asciiLiteral text
  | .array items => layOut '[' ']' depth (itemLines (depth + 1) items)
  | .object members => layOut '\x7b' '\x7d' depth (memberLines (depth + 1) members)

def itemLines (depth : Nat) : List Json → List Text
  | [] => []
  | item :: rest => renderLines depth item :: itemLines depth rest

def memberLines (depth : Nat) : List (Text × Json) → List Text
  | [] => []
  | (key, value) :: rest =>
      (asciiLiteral key ++ lit ": " ++ renderLines depth value) :: memberLines depth rest

end

end JsonTemplate.Json
