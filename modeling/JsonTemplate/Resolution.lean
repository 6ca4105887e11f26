import JsonTemplate.Path
import JsonTemplate.Registry
import JsonTemplate.Template

set_option autoImplicit false

/-!
# Resolving calls

Every call of a template is carried out once, in document order, and its text takes the call's
place. The text stands for itself from then on, whatever it looks like.

The copy of a template is built from the top down: a copied array or object has empty slots, and a
stack holds the nodes whose copies are still to be put into them. A template of any depth is
resolved without a stack of calls.
-/

namespace JsonTemplate

/-- The copy of a node while it is built. The slots of an array or object are set one by one. -/
inductive Copy where
  | leaf (value : Template)
  | array (slots : Array Copy)
  | object (slots : Array (Text × Copy))

namespace Copy

def modifySlot (change : Copy → Copy) : Copy → Segment → Copy
  | .array slots, .index (.ofNat position) => .array (slots.modify position change)
  | .object slots, .key name =>
      .object (slots.modify (slots.findIdx fun (key, _) => key = name) fun (key, held) =>
        (key, change held))
  | other, _ => other

def put : Copy → Path → Copy → Copy
  | _, [], other => other
  | whole, step :: rest, other => whole.modifySlot (fun held => held.put rest other) step

mutual

def template : Copy → Template
  | .leaf value => value
  | .array ⟨slots⟩ => .array (templateItems slots)
  | .object ⟨slots⟩ => .object (templateMembers slots)

def templateItems : List Copy → List Template
  | [] => []
  | first :: rest => first.template :: templateItems rest

def templateMembers : List (Text × Copy) → List (Text × Template)
  | [] => []
  | (key, held) :: rest => (key, held.template) :: templateMembers rest

end

end Copy

/-- The state of a resolution: the world, and how many calls have been reached. It is
kept when a call fails. -/
structure Progress (σ : Type) where
  world : σ
  reached : Nat

abbrev Resolve (σ : Type) := ExceptT Error (StateM (Progress σ))

namespace Resolve

variable {σ : Type}

def call (registry : Registry σ) (name : Text) : Resolve σ Slot := fun progress =>
  let (outcome, world) := registry.execute name progress.world
  (outcome.map Slot.literal, ⟨world, progress.reached + 1⟩)

def slot (registry : Registry σ) : Slot → Resolve σ Slot
  | .call name => call registry name
  | other => pure other

/-- A node, and the slot that its copy goes to: `target` leads to the array or object which has
that slot. -/
structure Entry where
  node : Template
  target : Path
  slot : Segment

def Entry.place (entry : Entry) : Path :=
  entry.target ++ [entry.slot]

/-- The copy of a node. The slots of an array or object are still empty. -/
def copy (registry : Registry σ) : Template → Resolve σ Copy
  | .string leaf => do
      let leaf ← slot registry leaf
      return .leaf (.string leaf)
  | .array items => return .array (Array.replicate items.length (.leaf .null))
  | .object members => return .object (members.map fun (key, _) => (key, .leaf .null)).toArray
  | other => return .leaf other

def itemEntries (target : Path) : Nat → List Template → List Entry
  | _, [] => []
  | position, item :: rest =>
      ⟨item, target, .index position⟩ :: itemEntries target (position + 1) rest

def memberEntries (target : Path) (members : List (Text × Template)) : List Entry :=
  members.map fun (key, value) => ⟨value, target, .key key⟩

def inner (place : Path) : Template → List Entry
  | .array items => itemEntries place 0 items
  | .object members => memberEntries place members
  | _ => []

def weight : List Entry → Nat
  | [] => 0
  | entry :: rest => entry.node.size + weight rest

theorem weight_append (left right : List Entry) :
    weight (left ++ right) = weight left + weight right := by
  induction left with
  | nil => simp [weight]
  | cons entry rest ih => simp [weight, ih, Nat.add_assoc]

private theorem weight_itemEntries (target : Path) (position : Nat) (items : List Template) :
    weight (itemEntries target position items) = Tree.sizeItems items := by
  induction items generalizing position with
  | nil => rfl
  | cons item rest ih => simp [itemEntries, weight, ih, Tree.sizeItems]

private theorem weight_memberEntries (target : Path) (members : List (Text × Template)) :
    weight (memberEntries target members) = Tree.sizeMembers members := by
  induction members with
  | nil => rfl
  | cons member rest ih =>
      rw [memberEntries] at ih
      simp [memberEntries, weight, ih, Tree.sizeMembers]

private theorem weight_inner_lt (place : Path) (node : Template) :
    weight (inner place node) < node.size := by
  cases node <;> simp [inner, weight, weight_itemEntries, weight_memberEntries, Tree.size]

/-- Fill the slots of a copy with the copies of what stands on the stack, up to the first call that
fails. -/
def fill (registry : Registry σ) (root : Copy) : List Entry → Resolve σ Copy
  | [] => return root
  | entry :: rest => do
      let new ← copy registry entry.node
      fill registry (root.put entry.place new)
        (pushAll rest (inner entry.place entry.node).reverse)
termination_by stack => weight stack
decreasing_by
  rw [pushAll_reverse, weight_append, weight]
  exact Nat.add_lt_add_right (weight_inner_lt _ _) _

def rootItem : Template → Template
  | .array (item :: _) => item
  | other => other

end Resolve

/-- Resolve a template: the resolved template or the error of the first call that
fails, the number of calls reached, and the world after them. -/
def Template.resolve {σ : Type} (registry : Registry σ) (template : Template) (world : σ) :
    Except Error Template × Progress σ :=
  let filled := Resolve.fill registry (.array #[.leaf .null]) [⟨template, [], .index 0⟩]
  ((fun root => Resolve.rootItem root.template) <$> filled).run.run ⟨world, 0⟩

end JsonTemplate
