import JsonTemplate.Bindings
import JsonTemplate.Decimal.Binary64
import JsonTemplate.Time.Moment

set_option autoImplicit false

/-!
# Loose data

What a suite file holds before its meaning is worked out: values of any type, and
mappings whose keys are values of any type too.
-/

namespace JsonTemplate

/-- A value of a suite file. A timestamp may lack an offset. What is no number is told from
others of its kind by a mark. A collection that others share, or that contains itself,
stands in a pool and is named by its number there. -/
inductive Data where
  | null
  | boolean (value : Bool)
  | integer (value : Int)
  | float (value : Float)
  | notANumber (mark : Nat)
  | text (value : Text)
  | date (value : Date)
  | timestamp (wall : WallTime) (offset : Option Offset)
  | octets (value : List UInt8)
  | list (items : List Data)
  | pair (first second : Data)
  | set (members : List Data)
  | mapping (entries : List (Data × Data))
  | pooled (number : Nat)
deriving Inhabited

namespace Data

abbrev Pool := Array Data

def opened (pool : Pool) : Data → Data
  | .pooled number => pool[number]?.getD .null
  | other => other

/-- The name of a value's type, as messages spell it. For a pooled collection this is asked
of what it is opened to. -/
def typeName : Data → Text
  | .null => lit "NoneType"
  | .boolean _ => lit "bool"
  | .integer _ => lit "int"
  | .float _ => lit "float"
  | .notANumber _ => lit "float"
  | .text _ => lit "str"
  | .date _ => lit "date"
  | .timestamp _ _ => lit "datetime"
  | .octets _ => lit "bytes"
  | .list _ => lit "list"
  | .pair _ _ => lit "tuple"
  | .set _ => lit "set"
  | .mapping _ => lit "dict"
  | .pooled _ => lit "object"

/-- The full name of a value's type: a type of times is named with its family. -/
def fullTypeName (data : Data) : Text :=
  match data with
  | .date _ => lit "datetime." ++ data.typeName
  | .timestamp _ _ => lit "datetime." ++ data.typeName
  | _ => data.typeName

/-- Whether a value counts as true: empty values, zeros and null do not. -/
def isTrue (pool : Pool) (data : Data) : Bool :=
  match data.opened pool with
  | .null => false
  | .boolean value => value
  | .integer value => value ≠ 0
  | .float value => !Binary64.equalsInt value 0
  | .notANumber _ => true
  | .text value => !value.isEmpty
  | .date _ => true
  | .timestamp _ _ => true
  | .octets value => !value.isEmpty
  | .list items => !items.isEmpty
  | .pair _ _ => true
  | .set members => !members.isEmpty
  | .mapping entries => !entries.isEmpty
  | .pooled _ => true

/-! ## Collections -/

def entries? (pool : Pool) (data : Data) : Option (List (Data × Data)) :=
  match data.opened pool with
  | .mapping entries => some entries
  | _ => none

/-- The items of a value that can be gone through: a text has its characters, a mapping
its keys, octets their numbers. -/
def items? (pool : Pool) (data : Data) : Option (List Data) :=
  match data.opened pool with
  | .list items => some items
  | .pair first second => some [first, second]
  | .set members => some members
  | .mapping entries => some (entries.map (·.1))
  | .text value => some (value.map fun point => .text [point])
  | .octets value => some (value.map fun octet => .integer octet.toNat)
  | _ => none

/-! ## Keys -/

/-- The integer that a number or truth value counts as. -/
def asInt? : Data → Option Int
  | .boolean value => some (if value then 1 else 0)
  | .integer value => some value
  | _ => none

/-- Whether two values that are no collections are the same key. Numbers and truth values
are compared by value, timestamps with an offset by their moment. What is no number is the
same as itself. -/
def sameScalar (left right : Data) : Bool :=
  match left, right with
  | .null, .null => true
  | .text left, .text right => left = right
  | .date left, .date right => left = right
  | .octets left, .octets right => left = right
  | .timestamp left none, .timestamp right none => left.micros = right.micros
  | .timestamp left (some offset), .timestamp right (some other) =>
      Moment.utcMicros ⟨left, offset⟩ = Moment.utcMicros ⟨right, other⟩
  | .notANumber left, .notANumber right => left = right
  | .float left, .float right => left == right
  | .float number, other => (other.asInt?.map (Binary64.equalsInt number)).getD false
  | other, .float number => (other.asInt?.map (Binary64.equalsInt number)).getD false
  | left, right =>
      match left.asInt?, right.asInt? with
      | some left, some right => left = right
      | _, _ => false

def sameKey : (left right : Data) → Bool
  | .pair left next, right =>
      match right with
      | .pair other last => sameKey left other && sameKey next last
      | _ => false
  | left, right => sameScalar left right

/-- Whether a value can be a key: lists, sets and mappings cannot, and no pair with one of
them in it. -/
def canBeKey : Data → Bool
  | .list _ => false
  | .set _ => false
  | .mapping _ => false
  | .pooled _ => false
  | .pair first second => canBeKey first && canBeKey second
  | _ => true

/-- Enter a key into a mapping: an equal key keeps its place and spelling and takes the new
value, a fresh one goes to the end. -/
def enter (key value : Data) : List (Data × Data) → List (Data × Data)
  | [] => [(key, value)]
  | (other, old) :: rest =>
      if sameKey other key then (other, value) :: rest
      else (other, old) :: enter key value rest

def lookup? (entries : List (Data × Data)) (key : Text) : Option Data :=
  (entries.find? fun (other, _) => sameKey other (.text key)).map (·.2)

/-- The value of a text key among entries; null when the key is missing. -/
def lookupD (entries : List (Data × Data)) (key : Text) : Data :=
  (lookup? entries key).getD .null

end Data

end JsonTemplate
