import JsonTemplate.Proofs.Comparison.Captures
import JsonTemplate.Proofs.Comparison.Located

set_option autoImplicit false

/-!
# The order of keys does not count

Trees whose objects have their members in another order, at any depth, are compared alike: the
same differences at the same paths, and captures that are the same up to order again.
-/

namespace JsonTemplate

namespace Tree

variable {α : Type}

/-- A tree with the members of its objects in another order, at any depth. -/
inductive Reordered : Tree α → Tree α → Prop where
  | null : Reordered .null .null
  | boolean {value : Bool} : Reordered (.boolean value) (.boolean value)
  | number {value : Number} : Reordered (.number value) (.number value)
  | string {leaf : α} : Reordered (.string leaf) (.string leaf)
  | array {items others : List (Tree α)} :
      items.length = others.length →
      (∀ (position : Nat) item other, items[position]? = some item →
        others[position]? = some other → Reordered item other) →
      Reordered (.array items) (.array others)
  | object {members others : List (Text × Tree α)} :
      (members.map Prod.fst).Perm (others.map Prod.fst) →
      (∀ key value other, members.lookup key = some value → others.lookup key = some other →
        Reordered value other) →
      Reordered (.object members) (.object others)

namespace Reordered

theorem symm {tree other : Tree α} (reordered : Reordered tree other) : Reordered other tree := by
  induction reordered with
  | null => exact .null
  | boolean => exact .boolean
  | number => exact .number
  | string => exact .string
  | array aligned _ ih =>
      exact .array aligned.symm fun position item other left right =>
        ih position other item right left
  | object keys _ ih =>
      exact .object keys.symm fun key value other left right => ih key other value right left

theorem kind_eq {tree other : Tree α} (reordered : Reordered tree other) :
    tree.kind = other.kind := by
  cases reordered <;> rfl

private theorem eq_of_scalar {tree other : Tree α} (reordered : Reordered tree other)
    (scalar : tree.kind.IsScalar) : other = tree := by
  cases reordered with
  | array => exact absurd rfl scalar.1
  | object => exact absurd rfl scalar.2
  | _ => rfl

private theorem object_inv {members : List (Text × Tree α)} {other : Tree α}
    (reordered : Reordered (.object members) other) :
    ∃ others, other = .object others ∧ (members.map Prod.fst).Perm (others.map Prod.fst) ∧
      ∀ key value, members.lookup key = some value →
        ∃ found, others.lookup key = some found ∧ Reordered value found := by
  cases reordered with
  | @object _ others keys each =>
      refine ⟨others, rfl, keys, fun key value located => ?_⟩
      have present := List.mem_map_of_mem (f := Prod.fst) (mem_of_lookup_eq_some located)
      obtain ⟨found, there⟩ := exists_lookup_of_mem (keys.mem_iff.mp present)
      exact ⟨found, there, each key value found located there⟩

private theorem array_inv {items : List (Tree α)} {other : Tree α}
    (reordered : Reordered (.array items) other) :
    ∃ others, other = .array others ∧ items.length = others.length ∧
      ∀ (position : Nat) item, items[position]? = some item →
        ∃ found, others[position]? = some found ∧ Reordered item found := by
  cases reordered with
  | @array _ others aligned each =>
      refine ⟨others, rfl, aligned, fun position item located => ?_⟩
      obtain ⟨found, there⟩ := exists_getElem?_of_aligned aligned located
      exact ⟨found, there, each position item found located there⟩

theorem distinctKeys {tree other : Tree α} (reordered : Reordered tree other)
    (distinct : tree.DistinctKeys) : other.DistinctKeys := by
  induction reordered with
  | null => exact .null
  | boolean => exact .boolean
  | number => exact .number
  | string => exact .string
  | @array items others aligned _ ih =>
      have each := distinctKeys_array.mp distinct
      refine distinctKeys_array.mpr fun other member => ?_
      obtain ⟨position, located⟩ := List.mem_iff_getElem?.mp member
      obtain ⟨item, there⟩ := exists_getElem?_of_aligned aligned.symm located
      exact ih position item other there located (each item (List.mem_of_getElem? there))
  | @object members others keys _ ih =>
      obtain ⟨names, each⟩ := distinctKeys_object.mp distinct
      have otherNames : Bindings.Distinct others := keys.nodup_iff.mp names
      refine distinctKeys_object.mpr ⟨otherNames, fun member included => ?_⟩
      have present := keys.mem_iff.mpr (List.mem_map_of_mem (f := Prod.fst) included)
      obtain ⟨value, located⟩ := exists_lookup_of_mem present
      exact ih member.1 value member.2 located (otherNames.lookup_iff.mpr included)
        (each _ (mem_of_lookup_eq_some located))

theorem nil : Reordered (.object ([] : List (Text × Tree α))) (.object []) :=
  .object .nil nofun

/-- The first member may stand anywhere in the other object. -/
theorem cons {members before after : List (Text × Tree α)} {key : Text} {value other : Tree α}
    (fresh : key ∉ before.map Prod.fst) (inside : Reordered value other)
    (rest : Reordered (.object members) (.object (before ++ after))) :
    Reordered (.object ((key, value) :: members)) (.object (before ++ (key, other) :: after)) := by
  cases rest with
  | object keys each =>
      apply Reordered.object
      · rw [List.map_append] at keys
        simpa using (keys.cons key).trans List.perm_middle.symm
      · intro name first second left right
        rw [lookup_cons_eq] at left
        rw [lookup_append_cons] at right
        by_cases same : name = key
        · subst same
          rw [lookup_eq_none_iff_not_mem.mpr fresh] at right
          simp only [if_true] at left right
          cases left
          cases right
          exact inside
        · rw [if_neg same] at left right
          rw [← List.lookup_append] at right
          exact each name first second left right

end Reordered

end Tree

namespace Comparison

variable {mode : Mode}

private theorem isCapture_iff_of_reordered {template other : Template}
    (reordered : template.Reordered other) : template.IsCapture ↔ other.IsCapture := by
  constructor
  · intro ⟨name, same⟩
    subst same
    cases reordered
    exact ⟨name, rfl⟩
  · intro ⟨name, same⟩
    subst same
    cases reordered
    exact ⟨name, rfl⟩

private theorem Facing.reordered {expected otherExpected left : Template}
    {actual otherActual right : Json}
    {place : Path} (facing : Facing expected actual place left right)
    (distinct : expected.DistinctKeys) (wanted : expected.Reordered otherExpected)
    (found : actual.Reordered otherActual) :
    ∃ otherLeft otherRight, Facing otherExpected otherActual place otherLeft otherRight ∧
      left.Reordered otherLeft ∧ right.Reordered otherRight := by
  induction facing generalizing otherExpected otherActual with
  | here => exact ⟨otherExpected, otherActual, .here, wanted, found⟩
  | @member members others key value _ _ _ _ included located _ ih =>
      obtain ⟨names, each⟩ := Tree.distinctKeys_object.mp distinct
      obtain ⟨_, rfl, _, wantedOf⟩ := wanted.object_inv
      obtain ⟨_, rfl, _, foundOf⟩ := found.object_inv
      obtain ⟨_, wantedAt, below⟩ := wantedOf key value (names.lookup_iff.mpr included)
      obtain ⟨_, foundAt, facingBelow⟩ := foundOf key _ located
      obtain ⟨otherLeft, otherRight, facing, both⟩ := ih (each _ included) below facingBelow
      exact ⟨otherLeft, otherRight, .member (mem_of_lookup_eq_some wantedAt) foundAt facing, both⟩
  | @item items others position value _ _ _ _ aligned wantedAt foundAt _ ih =>
      have each := Tree.distinctKeys_array.mp distinct value (List.mem_of_getElem? wantedAt)
      obtain ⟨_, rfl, wantedLength, wantedOf⟩ := wanted.array_inv
      obtain ⟨_, rfl, foundLength, foundOf⟩ := found.array_inv
      obtain ⟨_, otherWanted, below⟩ := wantedOf position value wantedAt
      obtain ⟨_, otherFound, facingBelow⟩ := foundOf position _ foundAt
      obtain ⟨otherLeft, otherRight, facing, both⟩ := ih each below facingBelow
      have stillAligned := (wantedLength.symm.trans aligned).trans foundLength
      exact ⟨otherLeft, otherRight, .item stillAligned otherWanted otherFound facing, both⟩

/-- What two nodes report by themselves, they report with their members in another order, with the
same path and the same word. -/
theorem Own.reordered {left otherLeft : Template} {right otherRight : Json}
    {difference : Difference} (owned : Own mode left right (.difference difference))
    (distinct : left.DistinctKeys) (wanted : left.Reordered otherLeft)
    (found : right.Reordered otherRight) :
    ∃ other, Own mode otherLeft otherRight (.difference other) ∧ other.path = difference.path ∧
      other.mismatch.word = difference.mismatch.word := by
  cases owned with
  | kind plain different =>
      rw [isCapture_iff_of_reordered wanted] at plain
      rw [wanted.kind_eq, found.kind_eq] at different
      exact ⟨_, .kind plain different, rfl, rfl⟩
  | value plain alike scalar unequal =>
      have sameLeft := wanted.eq_of_scalar scalar
      have sameRight := found.eq_of_scalar (alike ▸ scalar)
      subst sameLeft sameRight
      exact ⟨_, .value plain alike scalar unequal, rfl, rfl⟩
  | @missing members others key value included absent =>
      obtain ⟨names, _⟩ := Tree.distinctKeys_object.mp distinct
      obtain ⟨_, rfl, _, wantedOf⟩ := wanted.object_inv
      obtain ⟨_, rfl, keys, _⟩ := found.object_inv
      obtain ⟨_, wantedAt, _⟩ := wantedOf key value (names.lookup_iff.mpr included)
      rw [lookup_eq_none_iff_not_mem, keys.mem_iff, ← lookup_eq_none_iff_not_mem] at absent
      exact ⟨_, .missing (mem_of_lookup_eq_some wantedAt) absent, rfl, rfl⟩
  | @unexpected members others key value exactly included absent =>
      obtain ⟨_, rfl, wantedKeys, _⟩ := wanted.object_inv
      obtain ⟨_, rfl, keys, _⟩ := found.object_inv
      have present := keys.mem_iff.mp (List.mem_map_of_mem (f := Prod.fst) included)
      obtain ⟨_, there⟩ := exists_lookup_of_mem present
      rw [wantedKeys.mem_iff] at absent
      exact ⟨_, .unexpected exactly (mem_of_lookup_eq_some there) absent, rfl, rfl⟩
  | length different =>
      obtain ⟨_, rfl, wantedLength, _⟩ := wanted.array_inv
      obtain ⟨_, rfl, foundLength, _⟩ := found.array_inv
      rw [wantedLength, foundLength] at different
      exact ⟨_, .length different, rfl, rfl⟩

section Whole

variable {expected otherExpected : Template} {actual otherActual : Json}

private theorem exists_reordered_difference (distinct : expected.DistinctKeys)
    (wanted : expected.Reordered otherExpected) (found : actual.Reordered otherActual)
    {difference : Difference}
    (member : difference ∈ differencesOf (findings mode [] expected actual)) :
    ∃ other ∈ differencesOf (findings mode [] otherExpected otherActual),
      (other.path, other.mismatch.word) = (difference.path, difference.mismatch.word) := by
  obtain ⟨place, left, right, own, facing, owned, rfl⟩ := mem_differences_iff.mp member
  have leftKeys := distinct.at? (facing.expected_at distinct)
  obtain ⟨otherLeft, otherRight, facing, leftOrder, rightOrder⟩ :=
    facing.reordered distinct wanted found
  obtain ⟨other, owned, path, word⟩ := owned.reordered leftKeys leftOrder rightOrder
  refine ⟨_, mem_differences_iff.mpr ⟨place, _, _, other, facing, owned, rfl⟩, ?_⟩
  rw [path, word]

private theorem exists_reordered_capture (policy : CapturePolicy) (distinct : expected.DistinctKeys)
    (wanted : expected.Reordered otherExpected) (found : actual.Reordered otherActual)
    {name : Text} {value : Json}
    (bound : (compare mode policy .empty [] expected actual).2.captures.get? name = some value) :
    ∃ place other, Facing otherExpected otherActual place (.string (.capture name)) other ∧
      value.Reordered other := by
  obtain ⟨place, facing⟩ := facing_of_captured bound
  obtain ⟨_, other, facing, leaf, order⟩ := facing.reordered distinct wanted found
  cases leaf
  exact ⟨place, other, facing, order⟩

private theorem differences_reordered (mode : Mode) (expectedKeys : expected.DistinctKeys)
    (actualKeys : actual.DistinctKeys) (wanted : expected.Reordered otherExpected)
    (found : actual.Reordered otherActual) :
    ((differencesOf (findings mode [] expected actual)).map
      fun difference => (difference.path, difference.mismatch.word)).Perm
      ((differencesOf (findings mode [] otherExpected otherActual)).map
        fun difference => (difference.path, difference.mismatch.word)) := by
  have otherKeys := wanted.distinctKeys expectedKeys
  apply perm_map_of_found
  · exact nodup_differences mode expectedKeys actualKeys Prod.fst fun _ => rfl
  · exact nodup_differences mode otherKeys (found.distinctKeys actualKeys) Prod.fst fun _ => rfl
  · intro difference member
    exact exists_reordered_difference expectedKeys wanted found member
  · intro difference member
    exact exists_reordered_difference otherKeys wanted.symm found.symm member

/-- Only one leaf may bind a name: which of several does depends on the order of members. -/
theorem captures_reordered (mode : Mode) (policy : CapturePolicy)
    (distinct : expected.DistinctKeys) (once : (expected.captureLeaves.map Prod.snd).Nodup)
    (wanted : expected.Reordered otherExpected) (found : actual.Reordered otherActual)
    (name : Text) :
    Option.Rel Tree.Reordered
      ((compare mode policy .empty [] expected actual).2.captures.get? name)
      ((compare mode policy .empty [] otherExpected otherActual).2.captures.get? name) := by
  cases after : (compare mode policy .empty [] otherExpected otherActual).2.captures.get? name with
  | some other =>
      obtain ⟨place, value, facing, order⟩ :=
        exists_reordered_capture policy (wanted.distinctKeys distinct) wanted.symm found.symm after
      rw [captured_of_facing mode policy distinct once facing]
      exact .some order.symm
  | none =>
      cases before : (compare mode policy .empty [] expected actual).2.captures.get? name with
      | none => exact .none
      | some value =>
          obtain ⟨place, other, facing, _⟩ :=
            exists_reordered_capture policy distinct wanted found before
          obtain ⟨kept, bound⟩ := exists_captured_of_facing mode policy facing
          rw [after] at bound
          cases bound

/-- Comparing trees with their members in another order, at any depth, finds the same differences
up to order, told by path and word, and so has the same success. Where no name is captured twice,
the same names are bound, to values that are the same up to the order of their members. -/
theorem compare_reordered (mode : Mode) (policy : CapturePolicy)
    (expectedKeys : expected.DistinctKeys) (actualKeys : actual.DistinctKeys)
    (wanted : expected.Reordered otherExpected) (found : actual.Reordered otherActual) :
    ((compare mode policy .empty [] expected actual).2.differences.map
      fun difference => (Path.render difference.path, difference.mismatch.word)).Perm
      ((compare mode policy .empty [] otherExpected otherActual).2.differences.map
        fun difference => (Path.render difference.path, difference.mismatch.word)) ∧
    (compare mode policy .empty [] expected actual).1 =
      (compare mode policy .empty [] otherExpected otherActual).1 ∧
    ((expected.captureLeaves.map Prod.snd).Nodup →
      ∀ name, Option.Rel Tree.Reordered
        ((compare mode policy .empty [] expected actual).2.captures.get? name)
        ((compare mode policy .empty [] otherExpected otherActual).2.captures.get? name)) := by
  have placed := differences_reordered mode expectedKeys actualKeys wanted found
  refine ⟨?_, ?_, ?_⟩
  · have told := placed.map fun entry => (Path.render entry.1, entry.2)
    rw [List.map_map, List.map_map] at told
    rw [compare_empty, compare_empty]
    exact told
  · have lengths := placed.length_eq
    rw [List.length_map, List.length_map] at lengths
    rw [compare_empty, compare_empty, Bool.eq_iff_iff, List.isEmpty_iff_length_eq_zero,
      List.isEmpty_iff_length_eq_zero, lengths]
  · intro once name
    exact captures_reordered mode policy expectedKeys once wanted found name

end Whole

/-- Members in another order inside and outside a member, and inside a captured value. -/
theorem compare_reordered_at_depths :
    let expected : Template := .object [(lit "a", .object
      [(lit "x", .string (.capture (lit "X"))), (lit "y", .boolean true)]), (lit "b", .null)]
    let otherExpected : Template := .object [(lit "b", .null), (lit "a", .object
      [(lit "y", .boolean true), (lit "x", .string (.capture (lit "X")))])]
    let actual : Json := .object [(lit "c", .null), (lit "a", .object
      [(lit "y", .boolean false), (lit "x", .object [(lit "p", .null), (lit "q", .null)])])]
    let otherActual : Json := .object [(lit "a", .object
      [(lit "x", .object [(lit "q", .null), (lit "p", .null)]), (lit "y", .boolean false)]),
      (lit "c", .null)]
    expected.DistinctKeys ∧ actual.DistinctKeys ∧ expected.Reordered otherExpected ∧
      actual.Reordered otherActual ∧ (expected.captureLeaves.map Prod.snd).Nodup ∧
      (compare .exact .last .empty [] expected actual).2.differences.map
        (fun difference => Path.render difference.path) = [lit "$.a.y", lit "$.b", lit "$.c"] ∧
      (compare .exact .last .empty [] otherExpected otherActual).2.differences.map
        (fun difference => Path.render difference.path) = [lit "$.b", lit "$.a.y", lit "$.c"] ∧
      Option.Rel Tree.Reordered
        ((compare .exact .last .empty [] expected actual).2.captures.get? (lit "X"))
        ((compare .exact .last .empty [] otherExpected otherActual).2.captures.get? (lit "X")) := by
  intro expected otherExpected actual otherActual
  have expectedKeys : expected.DistinctKeys := by
    simp [expected, Bindings.Distinct, lit]
  have actualKeys : actual.DistinctKeys := by
    simp [actual, Bindings.Distinct, lit]
  have wanted : expected.Reordered otherExpected := by
    apply @Tree.Reordered.cons _ _ [_] [] _ _ _ (by decide)
    · apply @Tree.Reordered.cons _ _ [_] [] _ _ _ (by decide) .string
      exact @Tree.Reordered.cons _ _ [] [] _ _ _ (by decide) .boolean .nil
    · exact @Tree.Reordered.cons _ _ [] [] _ _ _ (by decide) .null .nil
  have found : actual.Reordered otherActual := by
    apply @Tree.Reordered.cons _ _ [_] [] _ _ _ (by decide) .null
    apply @Tree.Reordered.cons _ _ [] [] _ _ _ (by decide) _ .nil
    apply @Tree.Reordered.cons _ _ [_] [] _ _ _ (by decide) .boolean
    apply @Tree.Reordered.cons _ _ [] [] _ _ _ (by decide) _ .nil
    apply @Tree.Reordered.cons _ _ [_] [] _ _ _ (by decide) .null
    exact @Tree.Reordered.cons _ _ [] [] _ _ _ (by decide) .null .nil
  have once : (expected.captureLeaves.map Prod.snd).Nodup := by decide
  have alike := compare_reordered .exact .last expectedKeys actualKeys wanted found
  refine ⟨expectedKeys, actualKeys, wanted, found, once, ?_, ?_, alike.2.2 once (lit "X")⟩
  · rw [compare_empty]
    cbv
  · rw [compare_empty]
    cbv

end Comparison

end JsonTemplate
