import JsonTemplate.Proofs.Comparison.Facing
import JsonTemplate.Proofs.Comparison.Worklist
import JsonTemplate.Proofs.Json.Telling
import JsonTemplate.Proofs.Path
import Mathlib

set_option autoImplicit false

/-!
# Differences are true and can be found again

The path of a difference leads to the nodes that it shows, or to the object that lacks its last
key, and what the difference says of them is so. The paths of one comparison lead apart, and so
do their texts.
-/

namespace JsonTemplate

namespace Path

/-- Neither of two paths leads through the end of the other. -/
def Apart (left right : Path) : Prop :=
  ¬ left <+: right ∧ ¬ right <+: left

private theorem apart_of_steps {base left right : Path} {first second : Segment}
    (different : first ≠ second) (leftBelow : base ++ [first] <+: left)
    (rightBelow : base ++ [second] <+: right) : Apart left right := by
  obtain ⟨leftRest, rfl⟩ := leftBelow
  obtain ⟨rightRest, rfl⟩ := rightBelow
  simp only [Apart, List.append_assoc, List.singleton_append, List.prefix_append_right_inj,
    List.cons_prefix_cons]
  exact ⟨fun both => different both.1, fun both => different both.1.symm⟩

private theorem Apart.render_ne {left right : Path} (apart : Apart left right) :
    render left ≠ render right := by
  intro same
  exact apart.1 (eq_of_render_eq same ▸ List.prefix_rfl)

end Path

namespace Comparison

/-- A place holds a member of an object of one tree that the object there of the other lacks. -/
def OnlyIn {α β : Type} (owner : Tree α) (other : Tree β) (place : Path) : Prop :=
  ∃ parent key members others, place = parent ++ [.key key] ∧
    owner.at? parent = some (.object members) ∧ other.at? parent = some (.object others) ∧
    key ∉ others.map Prod.fst

def Located (mode : Mode) (expected : Template) (actual : Json) (difference : Difference) : Prop :=
  match difference.mismatch with
  | .value _ _ | .kind _ _ =>
      ∃ (left : Template) (right : Json), expected.at? difference.path = some left ∧
        actual.at? difference.path = some right ∧
        difference.mismatch.expectedText? = some (Json.render left.toJson) ∧
        difference.mismatch.actualText? = some (Json.render right) ∧
        Json.render left.toJson ≠ Json.render right
  | .length _ _ =>
      ∃ left right, expected.at? difference.path = some (.array left) ∧
        actual.at? difference.path = some (.array right) ∧
        difference.mismatch.expectedText? = some (Numeral.ofNat left.length) ∧
        difference.mismatch.actualText? = some (Numeral.ofNat right.length) ∧
        Numeral.ofNat left.length ≠ Numeral.ofNat right.length
  | .missing _ =>
      OnlyIn expected actual difference.path ∧
        ∃ left : Template, expected.at? difference.path = some left ∧
          difference.mismatch.expectedText? = some (Json.render left.toJson) ∧
          difference.mismatch.actualText? = none
  | .unexpected _ =>
      mode = .exact ∧ OnlyIn actual expected difference.path ∧
        ∃ right, actual.at? difference.path = some right ∧
          difference.mismatch.expectedText? = none ∧
          difference.mismatch.actualText? = some (Json.render right)

/-- What two nodes report by themselves is located where they stand. -/
theorem Own.located {mode : Mode} {expected left : Template} {actual right : Json} {place : Path}
    {difference : Difference} (leads : expected.at? place = some left)
    (found : actual.at? place = some right) (leftKeys : left.DistinctKeys)
    (rightKeys : right.DistinctKeys) (owned : Own mode left right (.difference difference)) :
    Located mode expected actual ⟨place ++ difference.path, difference.mismatch⟩ := by
  cases owned with
  | kind _ different =>
      rw [← List.append_nil place] at leads found
      refine ⟨left, right, leads, found, rfl, rfl, fun same => different ?_⟩
      rw [← Template.kind_toJson]
      exact Json.kind_eq_of_render_eq same
  | value _ _ scalar unequal =>
      rw [← List.append_nil place] at leads found
      exact ⟨left, right, leads, found, rfl, rfl,
        fun same => unequal (sameScalar_of_render_eq scalar same)⟩
  | @length wanted others different =>
      rw [← List.append_nil place] at leads found
      exact ⟨wanted, others, leads, found, rfl, rfl,
        fun same => different (Numeral.ofNat_injective same)⟩
  | @missing members others key wanted included absent =>
      have located := (Tree.distinctKeys_object.mp leftKeys).1.lookup_iff.mpr included
      exact ⟨⟨place, key, members, others, rfl, leads, found, lookup_eq_none_iff_not_mem.mp absent⟩,
        wanted, Tree.at?_key leads located, rfl, rfl⟩
  | @unexpected members others key value exactly included absent =>
      have located := (Tree.distinctKeys_object.mp rightKeys).1.lookup_iff.mpr included
      exact ⟨exactly, ⟨place, key, others, members, rfl, found, leads, absent⟩,
        value, Tree.at?_key found located, rfl, rfl⟩

private theorem located_of_mem {mode : Mode} {expected : Template} {actual : Json}
    {difference : Difference} (expectedKeys : expected.DistinctKeys)
    (actualKeys : actual.DistinctKeys)
    (member : .difference difference ∈ findings mode [] expected actual) :
    Located mode expected actual difference := by
  obtain ⟨place, left, right, own, facing, owned, rfl⟩ :=
    mem_differences_iff.mp (mem_differencesOf.mpr member)
  have leads := facing.expected_at expectedKeys
  have found := facing.actual_at
  exact owned.located leads found (expectedKeys.at? leads) (actualKeys.at? found)

/-! ## Paths of one comparison -/

private theorem Reports.stays_below {mode : Mode} {path : Path} {expected : Template}
    {actual : Json}
    {found : List Finding} (reported : Reports mode path expected actual found)
    {difference : Difference} (member : difference ∈ differencesOf found) :
    path <+: difference.path := by
  obtain ⟨place, left, right, own, _, _, same⟩ :=
    (reported.mem_iff _).mp (mem_differencesOf.mp member)
  cases own with
  | capture => cases same
  | difference own =>
      cases same
      rw [List.append_assoc]
      exact List.prefix_append path _

private theorem unexpected_apart (mode : Mode) (path : Path) (expected : List (Text × Template))
    {actual : List (Text × Json)} (distinct : Bindings.Distinct actual) :
    (differencesOf (unexpectedFindings mode path expected actual)).Pairwise
      fun left right => Path.Apart left.path right.path := by
  rw [unexpectedFindings_eq]
  split
  · rw [differencesOf_map, List.pairwise_map]
    refine ((List.pairwise_map.mp distinct).filter _).imp fun different => ?_
    exact Path.apart_of_steps (fun same => different (Segment.key.inj same))
      List.prefix_rfl List.prefix_rfl
  · exact .nil

/-- What is found stays below a place, and its differences lead apart. -/
structure Separate (path : Path) (found : List Finding) : Prop where
  below : ∀ difference ∈ differencesOf found, path <+: difference.path
  apart : (differencesOf found).Pairwise fun left right => Path.Apart left.path right.path

theorem Separate.single (path : Path) (mismatch : Mismatch) :
    Separate path [.difference ⟨path, mismatch⟩] where
  below difference member := by
    cases List.mem_singleton.mp member
    exact List.prefix_rfl
  apart := List.pairwise_singleton _ _

/-- Differences part at the latest where the steps to two parts of a container part. -/
theorem apart_flatMap {α : Type} {items : List α} {inner : α → List Finding} {path : Path}
    {step : α → Segment} (different : items.Pairwise fun first second => step first ≠ step second)
    (each : ∀ item ∈ items, Separate (path ++ [step item]) (inner item)) :
    (differencesOf (items.flatMap inner)).Pairwise
      fun left right => Path.Apart left.path right.path := by
  rw [differencesOf_flatMap, List.pairwise_flatMap]
  constructor
  · intro item member
    exact (each item member).apart
  · refine different.imp_of_mem ?_
    intro first second firstMember secondMember unequal left leftInside right rightInside
    exact Path.apart_of_steps unequal ((each first firstMember).below left leftInside)
      ((each second secondMember).below right rightInside)

theorem Reports.apart {mode : Mode} {path : Path} {expected : Template} {actual : Json}
    {found : List Finding} (reported : Reports mode path expected actual found)
    (expectedKeys : expected.DistinctKeys) (actualKeys : actual.DistinctKeys) :
    (differencesOf found).Pairwise fun left right => Path.Apart left.path right.path := by
  induction reported with
  | capture => exact .nil
  | kind => exact List.pairwise_singleton _ _
  | same => exact .nil
  | value => exact List.pairwise_singleton _ _
  | length => exact List.pairwise_singleton _ _
  | @object path expected actual inner absent reports ih =>
      obtain ⟨expectedDistinct, eachExpected⟩ := Tree.distinctKeys_object.mp expectedKeys
      obtain ⟨actualDistinct, eachActual⟩ := Tree.distinctKeys_object.mp actualKeys
      have each : ∀ member ∈ expected, Separate (path ++ [.key member.1]) (inner member) := by
        rintro ⟨key, wanted⟩ included
        cases located : actual.lookup key with
        | none =>
            rw [absent key wanted included located]
            exact .single _ _
        | some found =>
            refine ⟨fun _ => (reports key wanted found included located).stays_below, ?_⟩
            exact ih key wanted found included located (eachExpected _ included)
              (eachActual _ (mem_of_lookup_eq_some located))
      rw [← unexpectedFindings_eq, differencesOf_append, List.pairwise_append]
      refine ⟨apart_flatMap ?_ each, unexpected_apart _ _ _ actualDistinct, ?_⟩
      · refine (List.pairwise_map.mp expectedDistinct).imp ?_
        exact fun different same => different (Segment.key.inj same)
      · intro left leftInside right rightInside
        rw [differencesOf_flatMap] at leftInside
        obtain ⟨member, included, inside⟩ := List.mem_flatMap.mp leftInside
        obtain ⟨_, key, value, _, fresh, same⟩ :=
          mem_unexpectedFindings_iff.mp (mem_differencesOf.mp rightInside)
        cases same
        refine Path.apart_of_steps (fun same => fresh ?_) ((each member included).below left inside)
          List.prefix_rfl
        exact List.mem_map.mpr ⟨member, included, Segment.key.inj same⟩
  | @array path expected actual inner aligned reports ih =>
      have each : ∀ position ∈ List.range expected.length,
          Separate (path ++ [.index position]) (inner position) := by
        intro position within
        obtain ⟨wanted, wantedAt⟩ := mem_range_length_iff.mp within
        obtain ⟨found, foundAt⟩ := exists_getElem?_of_aligned aligned wantedAt
        refine ⟨fun _ => (reports position wanted found wantedAt foundAt).stays_below, ?_⟩
        exact ih position wanted found wantedAt foundAt
          (Tree.distinctKeys_array.mp expectedKeys wanted (List.mem_of_getElem? wantedAt))
          (Tree.distinctKeys_array.mp actualKeys found (List.mem_of_getElem? foundAt))
      refine apart_flatMap (List.nodup_range.imp ?_) each
      exact fun different same => different (Int.ofNat.inj (Segment.index.inj same))

/-- What is told of each difference tells them apart when it includes the path. -/
theorem nodup_differences {β : Type} (mode : Mode) {expected : Template} {actual : Json}
    (expectedKeys : expected.DistinctKeys) (actualKeys : actual.DistinctKeys)
    {view : Difference → β} (pathOf : β → Path)
    (leads : ∀ difference, pathOf (view difference) = difference.path) :
    ((differencesOf (findings mode [] expected actual)).map view).Nodup := by
  have apart := (reports_findings mode [] expected actual).apart expectedKeys actualKeys
  apply List.pairwise_map.mpr
  apply apart.imp
  intro first second both same
  have paths := congrArg pathOf same
  rw [leads, leads] at paths
  exact both.1 (paths ▸ List.prefix_rfl)

/-- Entries that are different from each other are the same up to order when each list has what
the other has. -/
theorem perm_map_of_found {α β γ : Type} {left : List α} {right : List β} {f : α → γ} {g : β → γ}
    (leftNodup : (left.map f).Nodup) (rightNodup : (right.map g).Nodup)
    (there : ∀ item ∈ left, ∃ other ∈ right, g other = f item)
    (back : ∀ item ∈ right, ∃ other ∈ left, f other = g item) :
    (left.map f).Perm (right.map g) := by
  apply (List.perm_ext_iff_of_nodup leftNodup rightNodup).mpr
  intro entry
  rw [List.mem_map, List.mem_map]
  constructor
  · intro ⟨item, included, same⟩
    obtain ⟨other, found, equal⟩ := there item included
    exact ⟨other, found, equal.trans same⟩
  · intro ⟨item, included, same⟩
    obtain ⟨other, found, equal⟩ := back item included
    exact ⟨other, found, equal.trans same⟩

/-- Every difference of a comparison from the root is so at the end of its path, which its path
text tells. No two of them have one path text, and no path leads through the end of another. -/
theorem differences_located (mode : Mode) (policy : CapturePolicy) {expected : Template}
    {actual : Json} (expectedKeys : expected.DistinctKeys) (actualKeys : actual.DistinctKeys) :
    (∀ difference ∈ (compare mode policy .empty [] expected actual).2.differences,
      Located mode expected actual difference) ∧
    (compare mode policy .empty [] expected actual).2.differences.Pairwise fun first second =>
      Path.render first.path ≠ Path.render second.path ∧
        ¬ first.path <+: second.path ∧ ¬ second.path <+: first.path := by
  rw [compare_empty]
  constructor
  · intro difference member
    exact located_of_mem expectedKeys actualKeys (mem_differencesOf.mp member)
  · have apart := (reports_findings mode [] expected actual).apart expectedKeys actualKeys
    exact apart.imp fun both => ⟨both.render_ne, both⟩

/-- A value, a missing property and two unexpected ones, at two depths. -/
theorem differences_located_at_depths :
    let expected : Template := .object
      [(lit "a", .array [.boolean true, .string (.capture (lit "X"))]), (lit "b", .null)]
    let actual : Json := .object
      [(lit "a", .array [.boolean false, .object []]), (lit "b c", .null), (lit "c", .null)]
    expected.DistinctKeys ∧ actual.DistinctKeys ∧
      (compare .exact .last .empty [] expected actual).2.differences.map
        (fun difference => (Path.render difference.path, difference.mismatch.word)) =
        [(lit "$.a[0]", lit "VALUE_MISMATCH"), (lit "$.b", lit "MISSING_PROPERTY"),
          (lit "$['b c']", lit "UNEXPECTED_PROPERTY"), (lit "$.c", lit "UNEXPECTED_PROPERTY")] ∧
      ∀ difference ∈ (compare .exact .last .empty [] expected actual).2.differences,
        Located .exact expected actual difference := by
  intro expected actual
  have expectedKeys : expected.DistinctKeys := by
    simp [expected, Bindings.Distinct, lit]
  have actualKeys : actual.DistinctKeys := by
    simp [actual, Bindings.Distinct, lit]
  refine ⟨expectedKeys, actualKeys, ?_, (differences_located .exact .last expectedKeys actualKeys).1⟩
  rw [compare_empty]
  cbv

end Comparison

end JsonTemplate
