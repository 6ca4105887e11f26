import JsonTemplate.Data
import JsonTemplate.Yaml.Merge
import JsonTemplate.Yaml.Octets

set_option autoImplicit false

/-!
# Values of nodes

What every node of a graph stands for. Collections are filled one after the other in the
order in which they are met, from the root on; of several faults the first one met in
this order counts.
-/

namespace JsonTemplate.Yaml

inductive Value where
  | scalar (data : Data)
  | list (items : List Nat)
  | pairs (entries : List (Nat × Nat))
  | set (members : List Nat)
  | mapping (entries : List (Nat × Nat))

namespace Value

/-- The nodes, what they stand for as far as it is known, and the collections that are
still to be filled. -/
structure Builder where
  graph : Graph
  values : Array (Option Value)
  waiting : Array Nat

abbrev Step := StateT Builder (Except Fault)

/-! ## Scalars -/

/-- The text of a node that has to be a scalar. A mapping stands for the scalar of its
default key, through at most so many levels; it may not stand for itself. -/
def textWithin (graph : Graph) : (levels number : Nat) → Except Fault Text
  | 0, _ => .error .tooDeep
  | levels + 1, number =>
      match graph.contentOf number with
      | .scalar text => .ok text
      | .sequence _ => .error .malformed
      | .mapping entries =>
          match entries.find? fun (key, _) => graph.tagOf key = .default with
          | some (_, value) => textWithin graph levels value
          | none => .error .malformed

def mostDefaults : Nat := 985

def textOf (graph : Graph) (number : Nat) : Except Fault Text :=
  textWithin graph mostDefaults number

def isCollection (graph : Graph) (number : Nat) : Bool :=
  match graph.contentOf number with
  | .scalar _ => false
  | _ => true

def timestamp (text : Text) : Except Fault Data :=
  match Stamp.ofText? (withoutLastBreak text) with
  | none => .error .notTimestamp
  | some stamp =>
      match stamp.time with
      | none => if stamp.date.isValid then .ok (.date stamp.date) else .error .badValue
      | some (hour, minute, second, micro) =>
          match Stamp.offset? stamp.zone, Stamp.wall? stamp.date hour minute second micro with
          | some offset, some wall => .ok (.timestamp wall offset)
          | _, _ => .error .badValue

/-- The value of a floating-point number at a node. What is no number is marked by its node,
but the sign for it always stands for the same value. -/
def float (number : Nat) (text : Text) : Except Fault Data := do
  let value ← Number.float text
  if !value.isNaN then return .float value
  else return .notANumber (if Number.isNotANumber text then 0 else number + 1)

def ofText? (tag : Tag) (number : Nat) (text : Text) : Option (Except Fault Data) :=
  match tag with
  | .null => some (.ok .null)
  | .text => some (.ok (.text text))
  | .integer => some ((Number.integer text).map .integer)
  | .float => some (float number text)
  | .timestamp => some (timestamp text)
  | .boolean =>
      match booleanOf? text.asciiLower with
      | some value => some (.ok (.boolean value))
      | none => some (.error .notTruth)
  | .binary =>
      match Octets.ofText? text with
      | some octets => some (.ok (.octets octets))
      | none => some (.error .malformed)
  | _ => none

def scalarOf (graph : Graph) (number : Nat) : Except Fault Data := do
  let tag := graph.tagOf number
  let text ← textOf graph number
  if tag = .timestamp && isCollection graph number then throw .notScalar
  match ofText? tag number text with
  | some value => value
  | none => throw .malformed

/-! ## Collections -/

def note (number : Nat) (value : Value) : Step Unit :=
  modify fun builder => { builder with values := builder.values.setIfInBounds number (some value) }

/-- Meet a node: the value of a scalar is found at once, a collection is empty until it is
filled. -/
def meet (number : Nat) : Step Unit := do
  let builder ← get
  if ((builder.values[number]?).bind id).isSome then return
  let later (value : Value) : Step Unit := do
    note number value
    modify fun builder => { builder with waiting := builder.waiting.push number }
  match builder.graph.tagOf number with
  | .sequence => later (.list [])
  | .orderedMap | .pairs => later (.pairs [])
  | .set => later (.set [])
  | .mapping => later (.mapping [])
  | .unknown | .merge | .default => throw .malformed
  | _ => note number (.scalar (← scalarOf builder.graph number))

def keyData (number : Nat) : Step Data := do
  match ((← get).values[number]?).bind id with
  | some (.scalar data) => return data
  | _ => throw .malformed

def enter (key : Nat × Data) (value : Nat) :
    List ((Nat × Data) × Nat) → List ((Nat × Data) × Nat)
  | [] => [(key, value)]
  | (other, old) :: rest =>
      if other.2.sameKey key.2 then (other, value) :: rest
      else (other, old) :: enter key value rest

def mappingEntries (number : Nat) : Step (List (Nat × Nat)) := do
  let graph ← Graph.flatten (← get).graph number
  modify fun builder => { builder with graph := graph }
  let entries ← (graph.entriesOf number).foldlM (fun entered (key, value) => do
    meet key
    let data ← keyData key
    meet value
    return enter (key, data) value entered) []
  return entries.map fun ((key, _), value) => (key, value)

def pairEntries (items : List Nat) : Step (List (Nat × Nat)) :=
  items.mapM fun item => do
    match (← get).graph.contentOf item with
    | .mapping [(key, value)] =>
        meet key
        meet value
        return (key, value)
    | _ => throw .malformed

def fill (number : Nat) : Step Unit := do
  let graph := (← get).graph
  match graph.tagOf number, graph.contentOf number with
  | .sequence, .sequence items =>
      items.forM meet
      note number (.list items)
  | .orderedMap, .sequence items => note number (.pairs (← pairEntries items))
  | .pairs, .sequence items => note number (.pairs (← pairEntries items))
  | .mapping, .mapping _ => note number (.mapping (← mappingEntries number))
  | .set, .mapping _ => note number (.set ((← mappingEntries number).map (·.1)))
  | _, _ => throw .malformed

def fillAll : Nat → Nat → Step Unit
  | 0, _ => return
  | fuel + 1, place => do
      match (← get).waiting[place]? with
      | none => return
      | some number =>
          fill number
          fillAll fuel (place + 1)

def ofGraph (root : Nat) (graph : Graph) : Except Fault (Array (Option Value)) := do
  let find : Step Unit := do
    meet root
    fillAll (graph.size + 1) 0
  let (_, builder) ← find.run ⟨graph, Array.replicate graph.size none, #[]⟩
  return builder.values

end Value

end JsonTemplate.Yaml
