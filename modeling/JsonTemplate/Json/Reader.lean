import JsonTemplate.Bindings
import JsonTemplate.Text.Utf8
import JsonTemplate.Tree

set_option autoImplicit false

/-!
# Reading documents

A reader takes the text in front of it and returns a value with the text that is
left. Where it stops, it keeps what was left there, so the line and the column of
a refusal are worked out once, at the end.
-/

namespace JsonTemplate.Json

inductive Problem where
  | expectingValue
  | expectingName
  | expectingColon
  | expectingComma
  | extraData
  | unterminatedString
  | controlCharacter
  | badEscape
  | badUnicodeEscape
  | leadingMark
deriving DecidableEq, Repr

def Problem.message : Problem → Text
  | .expectingValue => lit "Expecting value"
  | .expectingName => lit "Expecting property name enclosed in double quotes"
  | .expectingColon => lit "Expecting ':' delimiter"
  | .expectingComma => lit "Expecting ',' delimiter"
  | .extraData => lit "Extra data"
  | .unterminatedString => lit "Unterminated string starting at"
  | .controlCharacter => lit "Invalid control character at"
  | .badEscape => lit "Invalid \\escape"
  | .badUnicodeEscape => lit "Invalid \\uXXXX escape"
  | .leadingMark => lit "Unexpected UTF-8 BOM (decode using utf-8-sig)"

inductive Constant where
  | notANumber
  | infinity
  | negativeInfinity
deriving DecidableEq, Repr

def Constant.name : Constant → Text
  | .notANumber => lit "NaN"
  | .infinity => lit "Infinity"
  | .negativeInfinity => lit "-Infinity"

/-- Why reading stopped. A problem keeps the text from its place on. -/
inductive Stop where
  | problem (problem : Problem) (rest : Text)
  | constant (constant : Constant)
  | tooDeep
  | outOfRange
deriving DecidableEq, Repr

def isSpace (point : CodePoint) : Bool :=
  point = .scalar ' ' || point = .scalar '\t' || point = .scalar '\n' || point = .scalar '\r'

def skipSpace (text : Text) : Text :=
  text.dropWhile isSpace

/-! ## Levels

A reader stands on a stack of calls. Arrays and objects take a level of it each, and what is called
for a number or to raise an error takes more. What finds too few levels left stops the reader, since
the document is nested too deeply.
-/

def Stop.levels : Stop → Nat
  | .problem .expectingValue _ => 0
  | .problem _ _ => 3
  | .constant _ => 4
  | .tooDeep => 0
  | .outOfRange => 0

/-- What stops a reader that has so many levels left. -/
def Stop.raised (levels : Nat) (stop : Stop) : Stop :=
  if stop.levels ≤ levels then stop else .tooDeep

/-! ## Strings -/

/-- One item of a string literal: a code point, or a code unit written by its
number. Only two code units side by side can be a surrogate pair. -/
inductive Piece where
  | plain (point : CodePoint)
  | unit (point : CodePoint)
deriving DecidableEq, Repr

def Piece.point : Piece → CodePoint
  | .plain point => point
  | .unit point => point

/-- The text of a string literal: pairs of code units are joined from the left. -/
def joinPairs : List Piece → Text
  | .unit high :: .unit low :: rest =>
      if high.isHighSurrogate && low.isLowSurrogate then
        CodePoint.joinSurrogates high low :: joinPairs rest
      else high :: joinPairs (.unit low :: rest)
  | piece :: rest => piece.point :: joinPairs rest
  | [] => []

def escapeLetter? (letter : CodePoint) : Option CodePoint :=
  if letter = .scalar '"' then some (.scalar '"')
  else if letter = .scalar '\\' then some (.scalar '\\')
  else if letter = .scalar '/' then some (.scalar '/')
  else if letter = .scalar 'b' then some (.ofNat 0x08)
  else if letter = .scalar 'f' then some (.ofNat 0x0C)
  else if letter = .scalar 'n' then some (.scalar '\n')
  else if letter = .scalar 'r' then some (.scalar '\r')
  else if letter = .scalar 't' then some (.scalar '\t')
  else none

def codeUnit? (first second third fourth : CodePoint) : Option CodePoint := do
  let first ← first.hexValue?
  let second ← second.hexValue?
  let third ← third.hexValue?
  let fourth ← fourth.hexValue?
  return .ofNat (((first * 16 + second) * 16 + third) * 16 + fourth)

def withPiece (piece : Piece) (outcome : Except Stop (List Piece × Text)) :
    Except Stop (List Piece × Text) :=
  outcome.map fun (pieces, rest) => (piece :: pieces, rest)

/-- The pieces of a string literal up to its closing quote; `opening` is the text
from the opening quote on, where an unterminated literal is reported. A number
escape is reported at its letter, any other escape at its backslash. -/
def pieces (opening : Text) : Text → Except Stop (List Piece × Text)
  | [] => .error (.problem .unterminatedString opening)
  | point :: rest =>
      if point = .scalar '"' then .ok ([], rest)
      else if point = .scalar '\\' then
        match rest with
        | [] => .error (.problem .unterminatedString opening)
        | letter :: after =>
            if letter = .scalar 'u' then
              match after with
              | first :: second :: third :: fourth :: following =>
                  -- The digits are complete only when something follows them.
                  match codeUnit? first second third fourth, following.isEmpty with
                  | some unit, false => withPiece (.unit unit) (pieces opening following)
                  | _, _ => .error (.problem .badUnicodeEscape rest)
              | _ => .error (.problem .badUnicodeEscape rest)
            else
              match escapeLetter? letter with
              | some meant => withPiece (.plain meant) (pieces opening after)
              | none => .error (.problem .badEscape (point :: rest))
      else if point.value < 0x20 then .error (.problem .controlCharacter (point :: rest))
      else withPiece (.plain point) (pieces opening rest)

def readString (rest : Text) : Except Stop (Text × Text) :=
  (pieces (.scalar '"' :: rest) rest).map fun (pieces, rest) => (joinPairs pieces, rest)

/-! ## Numbers -/

def whole? : Text → Option (Text × Text)
  | .scalar '0' :: rest => some ([.scalar '0'], rest)
  | text =>
      match Numeral.span text with
      | ([], _) => none
      | parts => some parts

/-- The digits after a point; none when no digit follows it. -/
def fraction : Text → Text × Text
  | .scalar '.' :: rest =>
      match Numeral.span rest with
      | ([], _) => ([], .scalar '.' :: rest)
      | parts => parts
  | text => ([], text)

def exponentSign : Text → Bool × Text
  | .scalar '-' :: rest => (true, rest)
  | .scalar '+' :: rest => (false, rest)
  | text => (false, text)

/-- The exponent of a number; none when no digit follows the letter. -/
def exponent? (text : Text) : Option Int × Text :=
  match text with
  | [] => (none, [])
  | letter :: rest =>
      if letter = .scalar 'e' ∨ letter = .scalar 'E' then
        let (negative, rest) := exponentSign rest
        match Numeral.span rest with
        | ([], _) => (none, text)
        | (digits, rest) =>
            (some (if negative then -(Numeral.value digits : Int) else Numeral.value digits), rest)
      else (none, text)

/-- The number that the parts of a literal denote. Without fraction and exponent it
is an integer, unless it is too long; then it is kept as a decimal. -/
def numberOf (negative : Bool) (whole fraction : Text) (exponent : Option Int) : Number :=
  if fraction.isEmpty ∧ exponent.isNone ∧ whole.length ≤ Numeral.mostDigits then
    .integer (if negative then -(Numeral.value whole : Int) else Numeral.value whole)
  else
    .decimal ⟨negative, Numeral.value (whole ++ fraction), exponent.getD 0 - fraction.length⟩

def number? (text : Text) : Option (Number × Text) := do
  let (negative, unsigned) := match text with
    | .scalar '-' :: rest => (true, rest)
    | _ => (false, text)
  let (whole, rest) ← whole? unsigned
  let (fraction, rest) := fraction rest
  let (exponent, rest) := exponent? rest
  return (numberOf negative whole fraction exponent, rest)

def isFractional (unsigned : Text) : Bool :=
  match whole? unsigned with
  | none => false
  | some (_, rest) =>
      let (fraction, rest) := fraction rest
      !fraction.isEmpty || (exponent? rest).1.isSome

/-- The levels that the number at the start of a text takes. An integer is made by a function that
calls another one. -/
def numberLevels (text : Text) : Nat :=
  let unsigned := match text with
    | .scalar '-' :: rest => rest
    | _ => text
  if isFractional unsigned then 1 else 2

def readNumber (levels : Nat) (text : Text) : Except Stop (Json × Text) :=
  match number? text with
  | none => .error (.problem .expectingValue text)
  | some (value, rest) =>
      if levels < numberLevels text then .error .tooDeep
      else if value.toDecimal.inRange then .ok (.number value, rest)
      else .error .outOfRange

/-! ## Values -/

/-- A value that starts with neither a quote nor a bracket: a word or a number. -/
def readAtom (levels : Nat) (text : Text) : Except Stop (Json × Text) :=
  match Text.dropStart? (lit "null") text with
  | some rest => .ok (.null, rest)
  | none =>
  match Text.dropStart? (lit "true") text with
  | some rest => .ok (.boolean true, rest)
  | none =>
  match Text.dropStart? (lit "false") text with
  | some rest => .ok (.boolean false, rest)
  | none =>
  let refused (constant : Constant) := .error (Stop.raised levels (.constant constant))
  if (lit "NaN").isPrefixOf text then refused .notANumber
  else if (lit "Infinity").isPrefixOf text then refused .infinity
  else if (lit "-Infinity").isPrefixOf text then refused .negativeInfinity
  else readNumber levels text

/-- The items of an array that is not empty, up to its closing bracket. There are
fewer items than positions, so the text's length is fuel enough. -/
def readItems (value : Text → Except Stop (Json × Text)) :
    Nat → Text → Except Stop (List Json × Text)
  | 0, text => .error (.problem .expectingValue text)
  | fuel + 1, text => do
      let (item, rest) ← value text
      match skipSpace rest with
      | .scalar ']' :: rest => return ([item], rest)
      | .scalar ',' :: rest =>
          let (others, rest) ← readItems value fuel (skipSpace rest)
          return (item :: others, rest)
      | rest => .error (.problem .expectingComma rest)

def readMember (value : Text → Except Stop (Json × Text)) (text : Text) :
    Except Stop ((Text × Json) × Text) := do
  match text with
  | .scalar '"' :: rest =>
      let (key, rest) ← readString rest
      match skipSpace rest with
      | .scalar ':' :: rest =>
          let (value, rest) ← value (skipSpace rest)
          return ((key, value), rest)
      | rest => .error (.problem .expectingColon rest)
  | _ => .error (.problem .expectingName text)

def readMembers (value : Text → Except Stop (Json × Text)) :
    Nat → Text → Except Stop (List (Text × Json) × Text)
  | 0, text => .error (.problem .expectingName text)
  | fuel + 1, text => do
      let (first, rest) ← readMember value text
      match skipSpace rest with
      | .scalar '\x7d' :: rest => return ([first], rest)
      | .scalar ',' :: rest =>
          let (others, rest) ← readMembers value fuel (skipSpace rest)
          return (first :: others, rest)
      | rest => .error (.problem .expectingComma rest)

def readArray (value : Text → Except Stop (Json × Text)) (text : Text) :
    Except Stop (Json × Text) :=
  match skipSpace text with
  | .scalar ']' :: rest => .ok (.array [], rest)
  | rest => (readItems value (rest.length + 1) rest).map fun (items, rest) => (.array items, rest)

def readObject (value : Text → Except Stop (Json × Text)) (text : Text) :
    Except Stop (Json × Text) :=
  match skipSpace text with
  | .scalar '\x7d' :: rest => .ok (.object [], rest)
  | rest => (readMembers value (rest.length + 1) rest).map fun (members, rest) =>
      (.object (Bindings.ofList members), rest)

def readStringValue (levels : Nat) (rest : Text) : Except Stop (Json × Text) :=
  ((readString rest).map fun (text, rest) => (.string text, rest)).mapError (Stop.raised levels)

/-- The value at the start of a text, with so many levels left. A bracket too many is refused
before anything inside it. -/
def readValue : Nat → Text → Except Stop (Json × Text)
  | _, [] => .error (.problem .expectingValue [])
  | 0, first :: rest =>
      if first = .scalar '"' then readStringValue 0 rest
      else if first = .scalar '[' ∨ first = .scalar '\x7b' then .error .tooDeep
      else readAtom 0 (first :: rest)
  | levels + 1, first :: rest =>
      if first = .scalar '"' then readStringValue (levels + 1) rest
      else if first = .scalar '[' then
        (readArray (readValue levels) rest).mapError (Stop.raised levels)
      else if first = .scalar '\x7b' then
        (readObject (readValue levels) rest).mapError (Stop.raised levels)
      else readAtom (levels + 1) (first :: rest)

/-- The levels that are left where a document starts. -/
def room : Nat := 992

def readWhole (text : Text) : Except Stop Json := do
  let (json, rest) ← readValue room (skipSpace text)
  match skipSpace rest with
  | [] => return json
  | rest => .error (.problem .extraData rest)

/-! ## Refusals -/

/-- A line and a column, both counted from one. Only a line feed ends a line, and a
column is one code point. -/
structure Position where
  line : Nat
  column : Nat
deriving DecidableEq, Repr

def Position.after (text : Text) : Position :=
  ⟨text.count (.scalar '\n') + 1, (text.reverse.takeWhile (· ≠ .scalar '\n')).length + 1⟩

inductive Fault where
  | malformed (problem : Problem) (position : Position)
  | constant (constant : Constant)
  | nestedTooDeeply
  | notUtf8 (fault : Utf8.Fault)
deriving DecidableEq, Repr

def Fault.message : Fault → Text
  | .malformed problem _ => problem.message
  | .constant named => lit "'" ++ named.name ++ lit "' is not a valid JSON value"
  | .nestedTooDeeply => lit "document is nested too deeply to parse"
  | .notUtf8 fault => lit "not valid UTF-8: " ++ fault.message

def Fault.position? : Fault → Option Position
  | .malformed _ position => some position
  | _ => none

/-- A document that gives no value: its text is at fault, or it holds a number whose
magnitude cannot be kept. -/
inductive Refusal where
  | fault (fault : Fault)
  | numberOutOfRange
deriving DecidableEq, Repr

def Stop.refusal (text : Text) : Stop → Refusal
  | .problem found rest =>
      .fault (.malformed found (Position.after (text.take (text.length - rest.length))))
  | .constant named => .fault (.constant named)
  | .tooDeep => .fault .nestedTooDeeply
  | .outOfRange => .numberOutOfRange

def readText (text : Text) : Except Refusal Json :=
  match text with
  | .scalar '\uFEFF' :: _ => .error (.fault (.malformed .leadingMark ⟨1, 1⟩))
  | _ => (readWhole text).mapError (Stop.refusal text)

/-- Read octets as UTF-8, leaving out one mark of the byte order in front. -/
def readOctets (octets : List UInt8) : Except Refusal Json :=
  match Utf8.decode (Utf8.dropMark octets) with
  | .error fault => .error (.fault (.notUtf8 fault))
  | .ok text => readText text

end JsonTemplate.Json
