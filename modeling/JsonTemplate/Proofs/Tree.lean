import JsonTemplate.Tree

set_option autoImplicit false

/-!
# Induction on trees, and their leaves

The items of an array and the values of an object's members carry the hypothesis.
-/

namespace JsonTemplate.Tree

variable {α β : Type}

@[induction_eliminator]
theorem inductionOn {motive : Tree α → Prop} (tree : Tree α)
    (null : motive .null)
    (boolean : ∀ value, motive (.boolean value))
    (number : ∀ value, motive (.number value))
    (string : ∀ leaf, motive (.string leaf))
    (array : ∀ items, (∀ item ∈ items, motive item) → motive (.array items))
    (object : ∀ members, (∀ key value, (key, value) ∈ members → motive value) →
      motive (.object members)) : motive tree := by
  match tree with
  | .null => exact null
  | .boolean value => exact boolean value
  | .number value => exact number value
  | .string leaf => exact string leaf
  | .array items =>
      exact array items fun item _ =>
        inductionOn item null boolean number string array object
  | .object members =>
      exact object members fun key value _ =>
        inductionOn value null boolean number string array object
termination_by sizeOf tree
decreasing_by
  · have smaller := List.sizeOf_lt_of_mem ‹item ∈ items›
    simp_wf
    omega
  · have smaller := List.sizeOf_lt_of_mem ‹(key, value) ∈ members›
    simp only [Prod.mk.sizeOf_spec] at smaller
    simp_wf
    omega

inductive Leaf : Tree α → α → Prop where
  | string {leaf : α} : Leaf (.string leaf) leaf
  | item {items : List (Tree α)} {item : Tree α} {leaf : α} :
      item ∈ items → Leaf item leaf → Leaf (.array items) leaf
  | member {members : List (Text × Tree α)} {key : Text} {value : Tree α} {leaf : α} :
      (key, value) ∈ members → Leaf value leaf → Leaf (.object members) leaf

/-! ## Parts and levels -/

/-- A tree stands somewhere in another one, or is that tree. -/
inductive Inside : Tree α → Tree α → Prop where
  | here {tree : Tree α} : Inside tree tree
  | item {items : List (Tree α)} {item part : Tree α} :
      item ∈ items → Inside part item → Inside part (.array items)
  | member {members : List (Text × Tree α)} {key : Text} {value part : Tree α} :
      (key, value) ∈ members → Inside part value → Inside part (.object members)

mutual

/-- How many arrays and objects stand around each other. -/
def nesting : Tree α → Nat
  | .array items => nestingItems items + 1
  | .object members => nestingMembers members + 1
  | _ => 0

def nestingItems : List (Tree α) → Nat
  | [] => 0
  | item :: rest => max item.nesting (nestingItems rest)

def nestingMembers : List (Text × Tree α) → Nat
  | [] => 0
  | (_, value) :: rest => max value.nesting (nestingMembers rest)

end

theorem nesting_array_le_iff {items : List (Tree α)} {levels : Nat} :
    (Tree.array items).nesting ≤ levels ↔ 0 < levels ∧ ∀ item ∈ items, item.nesting < levels := by
  have each : nestingItems items < levels ↔ 0 < levels ∧ ∀ item ∈ items, item.nesting < levels := by
    induction items with
    | nil => simp [nestingItems]
    | cons item rest ih =>
        rw [nestingItems, Nat.max_lt, ih, List.forall_mem_cons]
        exact and_left_comm
  rw [nesting, Nat.add_one_le_iff, each]

theorem nesting_object_le_iff {members : List (Text × Tree α)} {levels : Nat} :
    (Tree.object members).nesting ≤ levels ↔
      0 < levels ∧ ∀ member ∈ members, member.2.nesting < levels := by
  have each : nestingMembers members < levels ↔
      0 < levels ∧ ∀ member ∈ members, member.2.nesting < levels := by
    induction members with
    | nil => simp [nestingMembers]
    | cons member rest ih =>
        rw [nestingMembers, Nat.max_lt, ih, List.forall_mem_cons]
        exact and_left_comm
  rw [nesting, Nat.add_one_le_iff, each]

/-! ## Replacing leaves -/

private theorem mapItems_eq (change : α → β) (items : List (Tree α)) :
    mapItems change items = items.map (map change) := by
  induction items with
  | nil => rfl
  | cons item rest ih => rw [mapItems, ih, List.map_cons]

private theorem mapMembers_eq (change : α → β) (members : List (Text × Tree α)) :
    mapMembers change members = members.map fun member => (member.1, member.2.map change) := by
  induction members with
  | nil => rfl
  | cons member rest ih => rw [mapMembers, ih, List.map_cons]

@[simp] theorem map_array (change : α → β) (items : List (Tree α)) :
    (Tree.array items).map change = .array (items.map (map change)) := by
  rw [map, mapItems_eq]

@[simp] theorem map_object (change : α → β) (members : List (Text × Tree α)) :
    (Tree.object members).map change =
      .object (members.map fun member => (member.1, member.2.map change)) := by
  rw [map, mapMembers_eq]

theorem map_congr {change other : α → β} {tree : Tree α}
    (same : ∀ leaf, tree.Leaf leaf → change leaf = other leaf) :
    tree.map change = tree.map other := by
  induction tree with
  | string leaf => rw [map, map, same leaf .string]
  | array items ih =>
      rw [map_array, map_array]
      congr 1
      exact List.map_congr_left fun item member =>
        ih item member fun leaf found => same leaf (.item member found)
  | object members ih =>
      rw [map_object, map_object]
      congr 1
      refine List.map_congr_left fun member included => ?_
      rw [ih member.1 member.2 included fun leaf found => same leaf (.member included found)]
  | _ => rfl

theorem Leaf.of_map {change : α → β} {tree : Tree α} {leaf : β}
    (found : (tree.map change).Leaf leaf) : ∃ before, tree.Leaf before ∧ leaf = change before := by
  induction tree with
  | string before =>
      cases found
      exact ⟨before, .string, rfl⟩
  | array items ih =>
      rw [map_array] at found
      cases found with
      | item member inside =>
          obtain ⟨item, included, rfl⟩ := List.mem_map.mp member
          obtain ⟨before, located, same⟩ := ih item included inside
          exact ⟨before, .item included located, same⟩
  | object members ih =>
      rw [map_object] at found
      cases found with
      | member member inside =>
          obtain ⟨entry, included, same⟩ := List.mem_map.mp member
          obtain ⟨rfl, rfl⟩ := Prod.mk.inj same
          obtain ⟨before, located, same⟩ := ih entry.1 entry.2 included inside
          exact ⟨before, .member included located, same⟩
  | _ => cases found

/-! ## Putting trees at leaves -/

mutual

/-- The tree with every string leaf replaced by a tree. -/
def graft (put : α → Tree β) : Tree α → Tree β
  | .null => .null
  | .boolean value => .boolean value
  | .number value => .number value
  | .string leaf => put leaf
  | .array items => .array (graftItems put items)
  | .object members => .object (graftMembers put members)

def graftItems (put : α → Tree β) : List (Tree α) → List (Tree β)
  | [] => []
  | item :: rest => item.graft put :: graftItems put rest

def graftMembers (put : α → Tree β) : List (Text × Tree α) → List (Text × Tree β)
  | [] => []
  | (key, value) :: rest => (key, value.graft put) :: graftMembers put rest

end

theorem graft_array (put : α → Tree β) (items : List (Tree α)) :
    (Tree.array items).graft put = .array (items.map (graft put)) := by
  have listed : graftItems put items = items.map (graft put) := by
    induction items with
    | nil => rfl
    | cons item rest ih => rw [graftItems, ih, List.map_cons]
  rw [graft, listed]

theorem graft_object (put : α → Tree β) (members : List (Text × Tree α)) :
    (Tree.object members).graft put =
      .object (members.map fun member => (member.1, member.2.graft put)) := by
  have listed : graftMembers put members =
      members.map fun member => (member.1, member.2.graft put) := by
    induction members with
    | nil => rfl
    | cons member rest ih => rw [graftMembers, ih, List.map_cons]
  rw [graft, listed]

end JsonTemplate.Tree
