import JsonTemplate.Proofs.Place
import JsonTemplate.Template

set_option autoImplicit false

/-!
# Calls and their answers

A template with a text for each of its calls is a template without calls: the texts stand for
themselves, and everything else stays as it is.
-/

namespace JsonTemplate

namespace Tree

variable {α β : Type}

mutual

/-- The tree with every string leaf replaced by what its place and the leaf give. -/
def mapAt (change : Path → α → β) : Tree α → Tree β
  | .null => .null
  | .boolean value => .boolean value
  | .number value => .number value
  | .string leaf => .string (change [] leaf)
  | .array items => .array (mapItemsAt change 0 items)
  | .object members => .object (mapMembersAt change members)

def mapItemsAt (change : Path → α → β) : Nat → List (Tree α) → List (Tree β)
  | _, [] => []
  | position, item :: rest =>
      item.mapAt (fun place => change (.index position :: place)) ::
        mapItemsAt change (position + 1) rest

def mapMembersAt (change : Path → α → β) : List (Text × Tree α) → List (Text × Tree β)
  | [] => []
  | (key, value) :: rest =>
      (key, value.mapAt fun place => change (.key key :: place)) :: mapMembersAt change rest

end

private theorem mapAt_array (change : Path → α → β) (items : List (Tree α)) :
    (Tree.array items).mapAt change = .array (items.mapIdx fun position item =>
      item.mapAt fun place => change (.index position :: place)) := by
  have shifted : ∀ position, mapItemsAt change position items =
      items.mapIdx fun offset item =>
        item.mapAt fun place => change (.index (position + offset : Nat) :: place) := by
    induction items with
    | nil => intro position; rfl
    | cons item rest ih =>
        intro position
        rw [mapItemsAt, ih, List.mapIdx_cons]
        simp only [Nat.add_zero, Nat.add_right_comm, Nat.add_assoc]
  rw [mapAt, shifted]
  simp only [Nat.zero_add]

private theorem mapAt_object (change : Path → α → β) (members : List (Text × Tree α)) :
    (Tree.object members).mapAt change = .object (members.map fun member =>
      (member.1, member.2.mapAt fun place => change (.key member.1 :: place))) := by
  rw [mapAt]
  congr 1
  induction members with
  | nil => rfl
  | cons member rest ih => rw [mapMembersAt, ih, List.map_cons]

private theorem Leaf.of_mapAt {change : Path → α → β} {tree : Tree α} {leaf : β}
    (found : (tree.mapAt change).Leaf leaf) :
    ∃ place before, tree.Leaf before ∧ leaf = change place before := by
  induction tree generalizing change with
  | string before =>
      cases found
      exact ⟨[], before, .string, rfl⟩
  | array items ih =>
      rw [mapAt_array] at found
      cases found with
      | item member inside =>
          obtain ⟨position, within, same⟩ := List.mem_mapIdx.mp member
          subst same
          have included := List.getElem_mem within
          obtain ⟨place, before, located, same⟩ := ih _ included inside
          exact ⟨.index position :: place, before, .item included located, same⟩
  | object members ih =>
      rw [mapAt_object] at found
      cases found with
      | member member inside =>
          obtain ⟨entry, included, same⟩ := List.mem_map.mp member
          cases same
          obtain ⟨place, before, located, same⟩ := ih entry.1 entry.2 included inside
          exact ⟨.key entry.1 :: place, before, .member included located, same⟩
  | _ => cases found

end Tree

namespace Slot

def called? : Slot → Option Text
  | .call name => some name
  | _ => none

def answered (value : Text) : Slot → Slot
  | .call _ => .literal value
  | other => other

end Slot

namespace Template

/-- The calls of a template in document order, each with its place. -/
def callLeaves (template : Template) : List (Path × Text) :=
  template.picked Slot.called?

/-- The template with the call at each place answered by the text for that place. -/
def answer (assign : Path → Text) (template : Template) : Template :=
  template.mapAt fun place => Slot.answered (assign place)

theorem mem_callLeaves_iff {template : Template} (distinct : template.DistinctKeys)
    {place : Path} {name : Text} :
    (place, name) ∈ template.callLeaves ↔
      template.at? place = some (.string (.call name)) := by
  refine (Tree.mem_picked_iff distinct).trans ⟨?_, fun leads => ⟨_, leads, rfl⟩⟩
  intro ⟨slot, leads, taken⟩
  cases slot <;> cases taken
  exact leads

/-- Answering calls adds no captures. -/
theorem capture_of_answer {assign : Path → Text} {template : Template} {name : Text}
    (found : (template.answer assign).Leaf (.capture name)) : template.Leaf (.capture name) := by
  obtain ⟨place, slot, located, same⟩ := Tree.Leaf.of_mapAt found
  cases slot <;> cases same
  exact located

theorem callLeaves_array (items : List Template) :
    callLeaves (.array items) = items.zipIdx.flatMap fun (item, position) =>
      item.callLeaves.map fun (place, name) => (.index position :: place, name) :=
  Tree.picked_array Slot.called? items

theorem callLeaves_object (members : List (Text × Template)) :
    callLeaves (.object members) = members.flatMap fun (key, value) =>
      value.callLeaves.map fun (place, name) => (.key key :: place, name) :=
  Tree.picked_object Slot.called? members

def calls (template : Template) : List Text :=
  template.callLeaves.map Prod.snd

theorem calls_array (items : List Template) : calls (.array items) = items.flatMap calls := by
  have firsts : items.zipIdx.map Prod.fst = items := List.zipIdx_map_fst 0 items
  conv_rhs => rw [← firsts, List.flatMap_map]
  simp only [calls, callLeaves_array, List.map_flatMap, List.map_map]
  rfl

theorem calls_object (members : List (Text × Template)) :
    calls (.object members) = members.flatMap fun member => member.2.calls := by
  simp only [calls, callLeaves_object, List.map_flatMap, List.map_map]
  rfl

theorem answer_array (assign : Path → Text) (items : List Template) :
    answer assign (.array items) = .array (items.mapIdx fun position item =>
      item.answer fun place => assign (.index position :: place)) :=
  Tree.mapAt_array _ items

theorem answer_object (assign : Path → Text) (members : List (Text × Template)) :
    answer assign (.object members) = .object (members.map fun member =>
      (member.1, member.2.answer fun place => assign (.key member.1 :: place))) :=
  Tree.mapAt_object _ members

def answers (assign : Path → Text) (template : Template) : List Text :=
  template.callLeaves.map fun leaf => assign leaf.1

theorem answers_array (assign : Path → Text) (items : List Template) :
    answers assign (.array items) = (items.mapIdx fun position item =>
      item.answers fun place => assign (.index position :: place)).flatten := by
  rw [List.mapIdx_eq_zipIdx_map, ← List.flatMap_def]
  simp only [answers, callLeaves_array, List.map_flatMap, List.map_map]
  rfl

theorem answers_object (assign : Path → Text) (members : List (Text × Template)) :
    answers assign (.object members) = members.flatMap fun member =>
      member.2.answers fun place => assign (.key member.1 :: place) := by
  simp only [answers, callLeaves_object, List.map_flatMap, List.map_map]
  rfl

end Template

end JsonTemplate
