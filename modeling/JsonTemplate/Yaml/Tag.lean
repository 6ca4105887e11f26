import JsonTemplate.Text.CodePoint

set_option autoImplicit false

/-!
# Tags

The types that the nodes of a YAML text can have, and their full names.
-/

namespace JsonTemplate.Yaml

/-- The type of a node. `merge` and `default` are the types of two special keys. -/
inductive Tag where
  | null
  | boolean
  | integer
  | float
  | timestamp
  | binary
  | text
  | merge
  | default
  | sequence
  | mapping
  | set
  | orderedMap
  | pairs
  | unknown
deriving DecidableEq, Repr

namespace Tag

def standard : Text := lit "tag:yaml.org,2002:"

def words : List (Text × Tag) :=
  [(lit "null", .null), (lit "bool", .boolean), (lit "int", .integer), (lit "float", .float),
   (lit "timestamp", .timestamp), (lit "binary", .binary), (lit "str", .text),
   (lit "merge", .merge), (lit "value", .default), (lit "seq", .sequence),
   (lit "map", .mapping), (lit "set", .set), (lit "omap", .orderedMap), (lit "pairs", .pairs)]

def ofName (name : Text) : Tag :=
  ((Text.dropStart? standard name).bind fun word => words.lookup word).getD .unknown

end Tag

end JsonTemplate.Yaml
