import JsonTemplate.Data.SetOrder
import JsonTemplate.Yaml.Value

set_option autoImplicit false

/-!
# The data of a YAML text

The values of nodes as loose data. Every collection stands in the pool under the number of
its node, so that what is shared is kept once and a collection can contain itself.
-/

namespace JsonTemplate.Yaml

namespace Value

/-- A node as a part of another one: its value, or its number if it is a collection. -/
def part (values : Array (Option Value)) (number : Nat) : Data :=
  match (values[number]?).bind id with
  | some (.scalar data) => data
  | some _ => .pooled number
  | none => .null

def pooled (values : Array (Option Value)) : Value → Data
  | .scalar data => data
  | .list items => .list (items.map (part values))
  | .pairs entries =>
      .list (entries.map fun (key, value) => .pair (part values key) (part values value))
  | .set members => .set (Data.inSetOrder (members.map (part values)))
  | .mapping entries =>
      .mapping (entries.map fun (key, value) => (part values key, part values value))

def toPool (values : Array (Option Value)) : Data.Pool :=
  values.map fun value => (value.map (pooled values)).getD .null

end Value

/-- The value of a YAML text, with its pool; without a document it is null. -/
def read (text : Text) : Except Fault (Data.Pool × Data) := do
  let (root, graph) ← Graph.ofText (unifyLines text)
  match root with
  | none => return (#[], .null)
  | some root =>
      let values ← Value.ofGraph root graph
      return (Value.toPool values, Value.part values root)

end JsonTemplate.Yaml
