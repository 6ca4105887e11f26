import JsonTemplate.Data
import JsonTemplate.Json.Ascii

set_option autoImplicit false

/-!
# Loose data as document text

A value of a suite that stands for a document is written out as one, in ASCII and
with spaces after commas and colons. Dates become texts; octets cannot be written.
-/

namespace JsonTemplate

/-- The spelling of floating-point values that are not finite, in document text. No
document can hold them, so a reader refuses the text. -/
def Binary64.documentWords : Binary64.Words :=
  ⟨lit "NaN", lit "Infinity", lit "-Infinity"⟩

namespace Data

/-- Why a value cannot be written as a document: a key or a value of some type, an integer
that is too long, a collection inside itself, or collections too deep inside each
other. -/
inductive Unwritable where
  | key (typeName : Text)
  | value (typeName : Text)
  | integerTooLong
  | circular
  | tooDeep
deriving DecidableEq, Repr

def digitLimit : Text :=
  lit "Exceeds the limit (" ++ Numeral.ofNat Numeral.mostDigits ++
    lit " digits) for integer string conversion; use sys.set_int_max_str_digits() " ++
    lit "to increase the limit"

def Unwritable.message : Unwritable → Text
  | .key typeName => lit "keys must be str, int, float, bool or None, not " ++ typeName
  | .value typeName =>
      lit "Object of type " ++ typeName ++ lit " is not JSON serializable"
  | .integerTooLong => digitLimit
  | .circular => lit "Circular reference detected"
  | .tooDeep => lit "maximum recursion depth exceeded while encoding a JSON object"

def integerText (value : Int) : Except Unwritable Text :=
  if Numeral.isWritable value then .ok (Numeral.ofInt value) else .error .integerTooLong

def keyText : Data → Except Unwritable Text
  | .null => .ok (lit "null")
  | .boolean value => .ok (if value then lit "true" else lit "false")
  | .integer value => integerText value
  | .float value => .ok (Binary64.text Binary64.documentWords value)
  | .notANumber _ => .ok Binary64.documentWords.notANumber
  | .text value => .ok value
  | other => .error (.key other.fullTypeName)

def scalarText : Data → Except Unwritable Text
  | .null => .ok (lit "null")
  | .boolean value => .ok (if value then lit "true" else lit "false")
  | .integer value => integerText value
  | .float value => .ok (Binary64.text Binary64.documentWords value)
  | .notANumber _ => .ok Binary64.documentWords.notANumber
  | .text value => .ok (Json.asciiLiteral value)
  | .date value => .ok (Json.asciiLiteral value.render)
  | .timestamp wall offset =>
      .ok (Json.asciiLiteral (wall.render (.scalar 'T') ++ (offset.map Offset.render).getD []))
  | other => .error (.value other.typeName)

/-- The document text of an entry of a mapping; the key is looked at before the value. -/
def entryText (inner : Data → Except Unwritable Text) (entry : Data × Data) :
    Except Unwritable Text := do
  let key ← keyText entry.1
  let value ← inner entry.2
  return Json.asciiLiteral key ++ lit ": " ++ value

def outerText (inner : Data → Except Unwritable Text) : Data → Except Unwritable Text
  | .list items => do
      let items ← items.mapM inner
      return .scalar '[' :: Text.join (lit ", ") items ++ [.scalar ']']
  | .pair first second => do
      let items ← [first, second].mapM inner
      return .scalar '[' :: Text.join (lit ", ") items ++ [.scalar ']']
  | .mapping entries => do
      let members ← entries.mapM (entryText inner)
      return .scalar '\x7b' :: Text.join (lit ", ") members ++ [.scalar '\x7d']
  | other => other.scalarText

def isNested : Data → Bool
  | .list _ => true
  | .pair _ _ => true
  | .mapping _ => true
  | .pooled _ => true
  | _ => false

def textWithin (pool : Pool) : (levels : Nat) → (around : List Nat) → Data → Except Unwritable Text
  | 0, _, data => if data.isNested then .error .tooDeep else data.scalarText
  | levels + 1, around, data =>
      match data with
      | .pooled number =>
          if around.contains number then .error .circular
          else outerText (textWithin pool levels (number :: around)) (data.opened pool)
      | _ => outerText (textWithin pool levels around) data

def mostWritten : Nat := 987

def jsonText (pool : Pool) (data : Data) : Except Unwritable Text :=
  textWithin pool mostWritten [] data

/-- The text of a value that stands for a document: a text is one already. -/
def documentText (pool : Pool) : Data → Except Unwritable Text
  | .text value => .ok value
  | other => other.jsonText pool

end Data

end JsonTemplate
