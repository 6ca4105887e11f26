import JsonTemplate.Path
import JsonTemplate.Proofs.Bindings
import JsonTemplate.Proofs.Tree
import Mathlib.Data.List.Basic

set_option autoImplicit false

/-!
# Places in trees

The node that a path leads to, and the string leaves of a tree in document order, each with
its place. Where keys are different from each other a place holds one node, so that the
leaves listed are those that paths lead to.
-/

namespace JsonTemplate

namespace Tree

variable {α β : Type}

def child? : Tree α → Segment → Option (Tree α)
  | .object members, .key name => members.lookup name
  | .array items, .index (.ofNat position) => items[position]?
  | _, _ => none

def at? : Tree α → Path → Option (Tree α)
  | tree, [] => some tree
  | tree, step :: rest => (tree.child? step).bind fun child => child.at? rest

@[simp] theorem at?_nil (tree : Tree α) : tree.at? [] = some tree := rfl

@[simp] theorem at?_cons (tree : Tree α) (step : Segment) (rest : Path) :
    tree.at? (step :: rest) = (tree.child? step).bind fun child => child.at? rest := rfl

@[simp] theorem child?_key (members : List (Text × Tree α)) (name : Text) :
    (Tree.object members).child? (.key name) = members.lookup name := rfl

@[simp] theorem child?_index (items : List (Tree α)) (position : Nat) :
    (Tree.array items).child? (.index position) = items[position]? := rfl

theorem at?_append (tree : Tree α) (before after : Path) :
    tree.at? (before ++ after) = (tree.at? before).bind fun node => node.at? after := by
  induction before generalizing tree with
  | nil => rfl
  | cons step rest ih =>
      rw [List.cons_append, at?_cons, at?_cons, Option.bind_assoc]
      congr 1
      funext child
      exact ih child

theorem at?_key {tree : Tree α} {place : Path} {members : List (Text × Tree α)} {key : Text}
    {value : Tree α} (object : tree.at? place = some (.object members))
    (found : members.lookup key = some value) : tree.at? (place ++ [.key key]) = some value := by
  rw [at?_append, object, Option.bind_some, at?_cons, child?_key, found]
  rfl

/-- Only objects and arrays have anything below them. -/
theorem container_of_child? {tree child : Tree α} {step : Segment}
    (below : tree.child? step = some child) :
    (∃ members key, tree = .object members ∧ step = .key key ∧ members.lookup key = some child) ∨
      ∃ items, ∃ position : Nat, tree = .array items ∧ step = .index position ∧
        items[position]? = some child := by
  unfold child? at below
  split at below
  · next members key => exact .inl ⟨members, key, rfl, rfl, below⟩
  · next items position => exact .inr ⟨items, position, rfl, rfl, below⟩
  · cases below

/-! ## Keys that are different from each other -/

inductive DistinctKeys : Tree α → Prop where
  | null : DistinctKeys .null
  | boolean {value : Bool} : DistinctKeys (.boolean value)
  | number {value : Number} : DistinctKeys (.number value)
  | string {leaf : α} : DistinctKeys (.string leaf)
  | array {items : List (Tree α)} :
      (∀ item ∈ items, DistinctKeys item) → DistinctKeys (.array items)
  | object {members : List (Text × Tree α)} :
      Bindings.Distinct members → (∀ key value, (key, value) ∈ members → DistinctKeys value) →
      DistinctKeys (.object members)

attribute [simp] DistinctKeys.null DistinctKeys.boolean DistinctKeys.number DistinctKeys.string

@[simp] theorem distinctKeys_array {items : List (Tree α)} :
    (Tree.array items).DistinctKeys ↔ ∀ item ∈ items, item.DistinctKeys := by
  refine ⟨fun distinct => ?_, .array⟩
  cases distinct with
  | array each => exact each

@[simp] theorem distinctKeys_object {members : List (Text × Tree α)} :
    (Tree.object members).DistinctKeys ↔
      Bindings.Distinct members ∧ ∀ member ∈ members, member.2.DistinctKeys := by
  refine ⟨fun distinct => ?_, fun both => .object both.1 fun _ _ included => both.2 _ included⟩
  cases distinct with
  | object keys each => exact ⟨keys, fun member included => each member.1 member.2 included⟩

theorem DistinctKeys.at? {tree node : Tree α} {place : Path} (distinct : tree.DistinctKeys)
    (leads : tree.at? place = some node) : node.DistinctKeys := by
  induction place generalizing tree with
  | nil =>
      cases leads
      exact distinct
  | cons step rest ih =>
      obtain ⟨child, below, further⟩ := Option.bind_eq_some_iff.mp leads
      refine ih ?_ further
      rcases container_of_child? below with
        ⟨members, key, rfl, rfl, found⟩ | ⟨items, position, rfl, rfl, found⟩
      · cases distinct with
        | object _ each => exact each key child (mem_of_lookup_eq_some found)
      · cases distinct with
        | array each => exact each child (List.mem_of_getElem? found)

theorem DistinctKeys.map {tree : Tree α} (distinct : tree.DistinctKeys) (change : α → β) :
    (tree.map change).DistinctKeys := by
  induction distinct with
  | null => exact .null
  | boolean => exact .boolean
  | number => exact .number
  | string => exact .string
  | array _ ih =>
      rw [map_array]
      refine .array fun item member => ?_
      obtain ⟨before, included, rfl⟩ := List.mem_map.mp member
      exact ih before included
  | object distinct _ ih =>
      rw [map_object]
      refine .object ?_ fun key value member => ?_
      · rw [Bindings.Distinct, map_fst_map]
        exact distinct
      · obtain ⟨before, included, same⟩ := List.mem_map.mp member
        cases same
        exact ih before.1 before.2 included

/-! ## Leaves with their places -/

mutual

/-- The string leaves of a tree in document order, each with its place. -/
def leaves : Tree α → List (Path × α)
  | .string leaf => [([], leaf)]
  | .array items => leavesItems 0 items
  | .object members => leavesMembers members
  | _ => []

def leavesItems : Nat → List (Tree α) → List (Path × α)
  | _, [] => []
  | position, item :: rest =>
      (item.leaves.map fun (place, leaf) => (.index position :: place, leaf)) ++
        leavesItems (position + 1) rest

def leavesMembers : List (Text × Tree α) → List (Path × α)
  | [] => []
  | (key, value) :: rest =>
      (value.leaves.map fun (place, leaf) => (.key key :: place, leaf)) ++ leavesMembers rest

end

private theorem leaves_array (items : List (Tree α)) :
    (Tree.array items).leaves = items.zipIdx.flatMap fun (item, position) =>
      item.leaves.map fun (place, leaf) => (.index position :: place, leaf) := by
  have shifted : ∀ position, leavesItems position items =
      (items.zipIdx position).flatMap fun (item, index) =>
        item.leaves.map fun (place, leaf) => (.index index :: place, leaf) := by
    induction items with
    | nil => intro position; rfl
    | cons item rest ih =>
        intro position
        rw [leavesItems, ih, List.zipIdx_cons, List.flatMap_cons]
  rw [leaves, shifted]

private theorem leaves_object (members : List (Text × Tree α)) :
    (Tree.object members).leaves = members.flatMap fun (key, value) =>
      value.leaves.map fun (place, leaf) => (.key key :: place, leaf) := by
  rw [leaves]
  induction members with
  | nil => rfl
  | cons member rest ih => rw [leavesMembers, ih, List.flatMap_cons]

private theorem mem_leaves_iff {tree : Tree α} (distinct : tree.DistinctKeys) {place : Path}
    {leaf : α} :
    (place, leaf) ∈ tree.leaves ↔ tree.at? place = some (.string leaf) := by
  induction distinct generalizing place with
  | string => cases place <;> simp [leaves, child?, eq_comm]
  | @array items _ ih =>
      rw [leaves_array, List.mem_flatMap]
      constructor
      · rintro ⟨⟨item, position⟩, included, inside⟩
        obtain ⟨⟨below, other⟩, listed, same⟩ := List.mem_map.mp inside
        cases same
        have found := List.mk_mem_zipIdx_iff_getElem?.mp included
        rw [at?_cons, child?_index, found]
        exact (ih item (List.mem_of_getElem? found)).mp listed
      · intro leads
        cases place with
        | nil => cases leads
        | cons step below =>
            obtain ⟨child, found, further⟩ := Option.bind_eq_some_iff.mp leads
            rcases container_of_child? found with ⟨_, _, same, _⟩ | ⟨_, position, same, rfl, found⟩
            · cases same
            · cases same
              refine ⟨(child, position), List.mk_mem_zipIdx_iff_getElem?.mpr found, ?_⟩
              have listed := (ih child (List.mem_of_getElem? found)).mpr further
              exact List.mem_map.mpr ⟨(below, leaf), listed, rfl⟩
  | @object members keys _ ih =>
      rw [leaves_object, List.mem_flatMap]
      constructor
      · rintro ⟨⟨key, value⟩, included, inside⟩
        obtain ⟨⟨below, other⟩, listed, same⟩ := List.mem_map.mp inside
        cases same
        rw [at?_cons, child?_key, keys.lookup_iff.mpr included]
        exact (ih key value included).mp listed
      · intro leads
        cases place with
        | nil => cases leads
        | cons step below =>
            obtain ⟨child, found, further⟩ := Option.bind_eq_some_iff.mp leads
            rcases container_of_child? found with ⟨_, key, same, rfl, found⟩ | ⟨_, _, same, _⟩
            · cases same
              have included := mem_of_lookup_eq_some found
              refine ⟨(key, child), included, ?_⟩
              exact List.mem_map.mpr ⟨(below, leaf), (ih key child included).mpr further, rfl⟩
            · cases same
  | _ => cases place <;> simp [leaves, child?]

theorem Leaf.listed {tree : Tree α} {leaf : α} (inside : tree.Leaf leaf) :
    ∃ place, (place, leaf) ∈ tree.leaves := by
  induction inside with
  | string => exact ⟨[], by simp [leaves]⟩
  | @item items item leaf member _ ih =>
      obtain ⟨place, listed⟩ := ih
      obtain ⟨position, located⟩ := List.mem_iff_getElem?.mp member
      refine ⟨.index position :: place, ?_⟩
      rw [leaves_array, List.mem_flatMap]
      refine ⟨(item, position), List.mk_mem_zipIdx_iff_getElem?.mpr located, ?_⟩
      exact List.mem_map.mpr ⟨(place, leaf), listed, rfl⟩
  | @member members key value leaf included _ ih =>
      obtain ⟨place, listed⟩ := ih
      refine ⟨.key key :: place, ?_⟩
      rw [leaves_object, List.mem_flatMap]
      exact ⟨(key, value), included, List.mem_map.mpr ⟨(place, leaf), listed, rfl⟩⟩

/-! ## Leaves picked out -/

/-- What is picked from the leaves of a tree, in document order, each with its place. -/
def picked (pick : α → Option β) (tree : Tree α) : List (Path × β) :=
  tree.leaves.filterMap fun (place, leaf) => (pick leaf).map fun found => (place, found)

theorem mem_picked_iff {pick : α → Option β} {tree : Tree α} (distinct : tree.DistinctKeys)
    {place : Path} {found : β} :
    (place, found) ∈ tree.picked pick ↔
      ∃ leaf, tree.at? place = some (.string leaf) ∧ pick leaf = some found := by
  simp only [picked, List.mem_filterMap, Option.map_eq_some_iff, Prod.mk.injEq, Prod.exists]
  constructor
  · intro ⟨_, leaf, listed, _, taken, here, same⟩
    subst here same
    exact ⟨leaf, (mem_leaves_iff distinct).mp listed, taken⟩
  · intro ⟨leaf, leads, taken⟩
    exact ⟨place, leaf, (mem_leaves_iff distinct).mpr leads, found, taken, rfl, rfl⟩

/-- What is picked from a part is picked from the whole, one step further up. -/
theorem picked_below (pick : α → Option β) (step : Segment) (part : Tree α) :
    ((part.leaves.map fun (place, leaf) => (step :: place, leaf)).filterMap
      fun (place, leaf) => (pick leaf).map fun found => (place, found)) =
      (part.picked pick).map fun (place, found) => (step :: place, found) := by
  rw [List.filterMap_map, picked, List.map_filterMap]
  congr 1
  funext ⟨place, leaf⟩
  cases taken : pick leaf <;> simp [taken]

theorem picked_array (pick : α → Option β) (items : List (Tree α)) :
    (Tree.array items).picked pick = items.zipIdx.flatMap fun (item, position) =>
      (item.picked pick).map fun (place, found) => (.index position :: place, found) := by
  rw [picked, leaves_array, List.filterMap_flatMap]
  exact List.flatMap_congr fun entry _ => picked_below pick (.index entry.2) entry.1

theorem picked_object (pick : α → Option β) (members : List (Text × Tree α)) :
    (Tree.object members).picked pick = members.flatMap fun (key, value) =>
      (value.picked pick).map fun (place, found) => (.key key :: place, found) := by
  rw [picked, leaves_object, List.filterMap_flatMap]
  exact List.flatMap_congr fun member _ => picked_below pick (.key member.1) member.2

end Tree

end JsonTemplate
