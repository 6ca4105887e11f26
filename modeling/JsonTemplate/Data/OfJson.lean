import JsonTemplate.Data
import JsonTemplate.Tree

set_option autoImplicit false

/-!
# Documents as loose data

A suite may be given as a document instead of a file. Its values are loose data that needs
no pool, since a document shares nothing.
-/

namespace JsonTemplate.Data

/-- A number of a document: one that is no integer becomes the nearest binary one. -/
def ofNumber : Number → Data
  | .integer value => .integer value
  | .decimal value => .float (Binary64.ofDecimal value)

mutual

def ofJson : Json → Data
  | .null => .null
  | .boolean value => .boolean value
  | .number value => ofNumber value
  | .string leaf => .text leaf
  | .array items => .list (ofItems items)
  | .object members => .mapping (ofMembers members)

def ofItems : List Json → List Data
  | [] => []
  | item :: rest => ofJson item :: ofItems rest

def ofMembers : List (Text × Json) → List (Data × Data)
  | [] => []
  | (key, value) :: rest => (.text key, ofJson value) :: ofMembers rest

end

end JsonTemplate.Data
