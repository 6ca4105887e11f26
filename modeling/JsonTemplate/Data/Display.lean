import JsonTemplate.Data
import JsonTemplate.Text.Quoted

set_option autoImplicit false

/-!
# Showing loose data

The text of a value as it stands in a name or a message. Inside a list or a mapping a
text is quoted and a date is spelled out. A collection inside itself is cut short, while
one that others share is shown wherever it stands.
-/

namespace JsonTemplate

def Binary64.plainWords : Binary64.Words := ⟨lit "nan", lit "inf", lit "-inf"⟩

namespace Data

def constructed (name : String) (fields : List Nat) (more : List Text) : Text :=
  lit name ++ .scalar '(' :: Text.join (lit ", ") (fields.map Numeral.ofNat ++ more) ++
    [.scalar ')']

def zoneQuoted (offset : Offset) : Text :=
  if offset.micros = 0 then lit "datetime.timezone.utc"
  else lit "datetime.timezone(" ++ Calendar.spanText offset.micros ++ lit ")"

/-- A timestamp spelled out; seconds and microseconds are left out when they and what
follows them are zero. -/
def timestampQuoted (wall : WallTime) (offset : Option Offset) : Text :=
  let date := wall.date
  let parts := [date.year, date.month, date.day, wall.hour, wall.minute]
  let small :=
    if wall.micro ≠ 0 then [wall.second, wall.micro]
    else if wall.second ≠ 0 then [wall.second] else []
  let zone := match offset with
    | some offset => [lit "tzinfo=" ++ zoneQuoted offset]
    | none => []
  constructed "datetime.datetime" (parts ++ small) zone

/-- Why a value cannot be shown: an integer is too long, or collections are too deep
inside each other. -/
inductive Unshowable where
  | integerTooLong
  | tooDeep
deriving DecidableEq, Repr

def scalarQuoted : Data → Except Unshowable Text
  | .null => .ok (lit "None")
  | .boolean value => .ok (if value then lit "True" else lit "False")
  | .integer value =>
      if Numeral.isWritable value then .ok (Numeral.ofInt value) else .error .integerTooLong
  | .float value => .ok (Binary64.text Binary64.plainWords value)
  | .notANumber _ => .ok Binary64.plainWords.notANumber
  | .text value => .ok value.quoted
  | .date value => .ok (constructed "datetime.date" [value.year, value.month, value.day] [])
  | .timestamp wall offset => .ok (timestampQuoted wall offset)
  | .octets value => .ok (Text.quotedOctets value)
  | _ => .ok []

def entryQuoted (inner : Data → Except Unshowable Text) (entry : Data × Data) :
    Except Unshowable Text := do
  let key ← inner entry.1
  let value ← inner entry.2
  return key ++ lit ": " ++ value

def outerQuoted (inner : Data → Except Unshowable Text) : Data → Except Unshowable Text
  | .list items => do
      let items ← items.mapM inner
      return .scalar '[' :: Text.join (lit ", ") items ++ [.scalar ']']
  | .pair first second => do
      let items ← [first, second].mapM inner
      return .scalar '(' :: Text.join (lit ", ") items ++ [.scalar ')']
  | .set [] => .ok (lit "set()")
  | .set (first :: rest) => do
      let members ← (first :: rest).mapM inner
      return .scalar '\x7b' :: Text.join (lit ", ") members ++ [.scalar '\x7d']
  | .mapping entries => do
      let entries ← entries.mapM (entryQuoted inner)
      return .scalar '\x7b' :: Text.join (lit ", ") entries ++ [.scalar '\x7d']
  | other => other.scalarQuoted

def cutShort : Data → Text
  | .mapping _ => lit "\x7b...\x7d"
  | _ => lit "[...]"

/-- The text of a value inside the collections with some numbers. Every value on the way to
one is a level, and so is the value itself. -/
def quotedWithin (pool : Pool) :
    (levels : Nat) → (around : List Nat) → Data → Except Unshowable Text
  | 0, _, _ => .error .tooDeep
  | levels + 1, around, data =>
      match data with
      | .pooled number =>
          let body := data.opened pool
          if around.contains number then .ok (cutShort body)
          else outerQuoted (quotedWithin pool levels (number :: around)) body
      | _ => outerQuoted (quotedWithin pool levels around) data

def mostShown : Nat := 992

def show? (pool : Pool) : Data → Except Unshowable Text
  | .text value => .ok value
  | .date value => .ok value.render
  | .timestamp wall offset =>
      .ok (wall.render (.scalar ' ') ++ (offset.map Offset.render).getD [])
  | other => quotedWithin pool mostShown [] other

def shown (data : Data) : Text :=
  match data.show? #[] with
  | .ok display => display
  | .error _ => []

end Data

end JsonTemplate
