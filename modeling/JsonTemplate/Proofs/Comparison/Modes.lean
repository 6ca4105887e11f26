import JsonTemplate.Proofs.Comparison.Accepts
import JsonTemplate.Proofs.Comparison.Located

set_option autoImplicit false

/-!
# Exact mode and subset mode

Exact mode finds what subset mode finds and the unexpected properties besides, which leave the
others in their order. After a comparison that subset mode passes, these are the keys that actual
objects have beyond the expected objects that they face.
-/

namespace JsonTemplate

namespace Mismatch

def isUnexpected : Mismatch → Bool
  | .unexpected _ => true
  | _ => false

private theorem not_isUnexpected_eq (mismatch : Mismatch) :
    (!mismatch.isUnexpected) = decide (mismatch.word ≠ lit "UNEXPECTED_PROPERTY") := by
  cases mismatch <;> rfl

private theorem isUnexpected_iff {mismatch : Mismatch} :
    mismatch.isUnexpected = true ↔ ∃ value, mismatch = .unexpected value := by
  cases mismatch <;> simp [isUnexpected]

end Mismatch

def Finding.isCommon : Finding → Bool
  | .difference found => !found.mismatch.isUnexpected
  | .capture _ _ => true

namespace Comparison

/-! ## The findings of both modes -/

private theorem differencesOf_filter_common (found : List Finding) :
    differencesOf (found.filter Finding.isCommon) =
      (differencesOf found).filter fun difference => !difference.mismatch.isUnexpected := by
  rw [differencesOf, differencesOf, List.filterMap_filter, List.filter_filterMap]
  congr 1
  funext finding
  cases finding with
  | difference difference => simp [Finding.isCommon, Finding.difference?, Option.filter]
  | capture => rfl

private theorem capturesOf_filter_common (found : List Finding) :
    capturesOf (found.filter Finding.isCommon) = capturesOf found := by
  rw [capturesOf, capturesOf, List.filterMap_filter]
  congr 1
  funext finding
  cases finding with
  | difference difference => simp [Finding.captured?]
  | capture => rfl

/-- Whatever exact mode reports, subset mode reports without the unexpected properties. -/
theorem Reports.subset {path : Path} {expected : Template} {actual : Json} {found : List Finding}
    (reported : Reports .exact path expected actual found) :
    Reports .subset path expected actual (found.filter Finding.isCommon) := by
  induction reported with
  | capture => exact .capture
  | kind plain different => exact .kind plain different
  | same plain equal => exact .same plain equal
  | value plain alike scalar unequal => exact .value plain alike scalar unequal
  | length different => exact .length different
  | @object path expected actual inner absent _ ih =>
      have unexpected : ∀ members : List (Text × Json),
          (members.map fun member => Finding.difference
            ⟨path ++ [.key member.1], .unexpected member.2⟩).filter Finding.isCommon = [] := by
        intro members
        rw [List.filter_map, List.map_eq_nil_iff, List.filter_eq_nil_iff]
        exact fun member _ => Bool.false_ne_true
      have whole := @Reports.object .subset path expected actual
        (fun member => (inner member).filter Finding.isCommon) ?_ ih
      · rw [List.filter_append, List.filter_flatMap, if_pos rfl, unexpected]
        exact whole
      · intro key wanted included located
        rw [absent key wanted included located]
        rfl
  | array aligned _ ih =>
      rw [List.filter_flatMap]
      exact .array aligned ih

private theorem findings_subset (path : Path) (expected : Template) (actual : Json) :
    findings .subset path expected actual =
      (findings .exact path expected actual).filter Finding.isCommon :=
  (reports_findings .exact path expected actual).subset.eq_findings.symm

/-! ## Unexpected properties -/

private theorem OnlyIn.at?_eq_none {α β : Type} {owner : Tree α} {other : Tree β} {place : Path}
    (only : OnlyIn owner other place) : other.at? place = none := by
  obtain ⟨parent, key, members, others, rfl, _, object, absent⟩ := only
  rw [Tree.at?_append, object, Option.bind_some, Tree.at?_cons, Tree.child?_key,
    lookup_eq_none_iff_not_mem.mpr absent]
  rfl

/-- No property that only one tree has stands at a string of the other, or inside it. -/
theorem OnlyIn.not_inside_string {α β : Type} {owner : Tree α} {other : Tree β}
    {place above : Path} {leaf : β} (only : OnlyIn owner other place)
    (string : other.at? above = some (.string leaf)) : ¬ above <+: place := by
  intro inside
  have nowhere := only.at?_eq_none
  obtain ⟨parent, key, members, others, rfl, _, object, _⟩ := only
  rcases List.prefix_concat_iff.mp inside with rfl | ⟨rest, rfl⟩
  · rw [nowhere] at string
    cases string
  · rw [Tree.at?_append, string] at object
    cases rest <;> cases object

private theorem Own.eq_unexpected {mode : Mode} {left : Template} {right found : Json}
    {difference : Difference} (owned : Own mode left right (.difference difference))
    (unexpected : difference.mismatch = .unexpected found) :
    ∃ key wanted others, difference.path = [.key key] ∧ left = .object wanted ∧
      right = .object others ∧ (key, found) ∈ others ∧ key ∉ wanted.map Prod.fst := by
  cases owned with
  | unexpected _ included absent =>
      cases unexpected
      exact ⟨_, _, _, rfl, rfl, rfl, included, absent⟩
  | _ => cases unexpected

/-- Where subset mode finds no difference, exact mode finds what actual objects have beyond the
objects that they face. -/
theorem mem_unexpected_iff {expected : Template} {actual : Json}
    (expectedKeys : expected.DistinctKeys) (actualKeys : actual.DistinctKeys)
    (nothing : differencesOf (findings .subset [] expected actual) = [])
    {difference : Difference} :
    difference ∈ differencesOf (findings .exact [] expected actual) ↔
      ∃ value, difference.mismatch = .unexpected value ∧
        OnlyIn actual expected difference.path ∧ actual.at? difference.path = some value := by
  constructor
  · intro member
    have unexpected : difference.mismatch.isUnexpected = true := by
      rw [findings_subset, differencesOf_filter_common, List.filter_eq_nil_iff] at nothing
      simpa using nothing difference member
    obtain ⟨value, same⟩ := Mismatch.isUnexpected_iff.mp unexpected
    refine ⟨value, same, ?_⟩
    obtain ⟨place, left, right, own, facing, owned, rfl⟩ := mem_differences_iff.mp member
    obtain ⟨key, wanted, others, step, rfl, rfl, included, absent⟩ := owned.eq_unexpected same
    have object := facing.actual_at
    have keys := (Tree.distinctKeys_object.mp (actualKeys.at? object)).1
    simp only [step]
    exact ⟨⟨place, key, others, wanted, rfl, object, facing.expected_at expectedKeys, absent⟩,
      Tree.at?_key object (keys.lookup_iff.mpr included)⟩
  · rintro ⟨value, same, ⟨parent, key, members, others, path, owner, object, absent⟩, found⟩
    -- Nothing differs above the object, so the comparison comes to it.
    obtain ⟨right, facing⟩ := (accepts_iff.mp nothing).facing object
    have met := facing.actual_at
    rw [owner] at met
    cases met
    rw [path, Tree.at?_append, owner, Option.bind_some, Tree.at?_cons, Tree.child?_key,
      Option.bind_eq_some_iff] at found
    obtain ⟨child, located, whole⟩ := found
    cases whole
    have remaining := Own.unexpected rfl (mem_of_lookup_eq_some located) absent
    refine mem_differences_iff.mpr ⟨parent, _, _, _, facing, remaining, ?_⟩
    obtain ⟨place, mismatch⟩ := difference
    cases same
    cases path
    rfl

/-- Without the unexpected properties, exact mode finds the differences that subset mode finds, in
their order, and it captures the same. Where subset mode finds none, exact mode finds one
unexpected property for each key that an actual object has beyond the object it faces. None of
them is inside a captured value or inside another one. -/
theorem exact_extends_subset (policy : CapturePolicy) {expected : Template} {actual : Json}
    (expectedKeys : expected.DistinctKeys) (actualKeys : actual.DistinctKeys) :
    let exactly := compare .exact policy .empty [] expected actual
    let leniently := compare .subset policy .empty [] expected actual
    exactly.2.differences.filter
        (fun difference => difference.mismatch.word ≠ lit "UNEXPECTED_PROPERTY") =
      leniently.2.differences ∧
    exactly.2.captures = leniently.2.captures ∧
    (exactly.1 = true → leniently.1 = true) ∧
    (leniently.1 = true →
      (∀ difference, difference ∈ exactly.2.differences ↔
        ∃ value, difference.mismatch = .unexpected value ∧
          OnlyIn actual expected difference.path ∧ actual.at? difference.path = some value) ∧
      (exactly.2.differences.map Difference.path).Nodup ∧
      (∀ place name, expected.at? place = some (.string (.capture name)) →
        ∀ difference ∈ exactly.2.differences, ¬ place <+: difference.path) ∧
      exactly.2.differences.Pairwise fun first second =>
        ¬ first.path <+: second.path ∧ ¬ second.path <+: first.path) := by
  intro exactly leniently
  have common : exactly.2.differences.filter
      (fun difference => difference.mismatch.word ≠ lit "UNEXPECTED_PROPERTY") =
        leniently.2.differences := by
    simp only [exactly, leniently, compare_empty, findings_subset, differencesOf_filter_common,
      Mismatch.not_isUnexpected_eq]
  refine ⟨common, ?_, ?_, ?_⟩
  · simp only [exactly, leniently, compare_empty, findings_subset, capturesOf_filter_common]
  · simp only [exactly, leniently, compare_empty, List.isEmpty_iff] at common ⊢
    intro nothing
    rw [← common, nothing]
    rfl
  · simp only [exactly, leniently, compare_empty, List.isEmpty_iff]
    intro nothing
    have unexpected := @mem_unexpected_iff expected actual expectedKeys actualKeys nothing
    have apart := (reports_findings .exact [] expected actual).apart expectedKeys actualKeys
    refine ⟨fun difference => unexpected, ?_, ?_, apart⟩
    · rw [List.Nodup, List.pairwise_map]
      refine apart.imp ?_
      intro first second both same
      exact both.1 (same ▸ List.prefix_rfl)
    · intro place name capture difference member
      obtain ⟨_, _, only, _⟩ := unexpected.mp member
      exact only.not_inside_string capture

/-- Keys that only the actual objects have, inside an array and at the root. The captured object has
keys of its own. -/
theorem exact_extends_subset_at_depths :
    let expected : Template := .object
      [(lit "a", .array [.object [(lit "b", .string (.capture (lit "X")))]]), (lit "c", .null)]
    let actual : Json := .object
      [(lit "z", .object [(lit "y", .null)]), (lit "c", .null),
        (lit "a", .array [.object [(lit "d", .boolean true), (lit "b", .object [(lit "e", .null)])]])]
    expected.DistinctKeys ∧ actual.DistinctKeys ∧
      (compare .subset .last .empty [] expected actual).1 = true ∧
      (compare .exact .last .empty [] expected actual).2.differences.map
        (fun difference => (Path.render difference.path, difference.mismatch.word)) =
        [(lit "$.a[0].d", lit "UNEXPECTED_PROPERTY"), (lit "$.z", lit "UNEXPECTED_PROPERTY")] ∧
      (compare .exact .last .empty [] expected actual).2.captures =
        (compare .subset .last .empty [] expected actual).2.captures ∧
      ∀ difference ∈ (compare .exact .last .empty [] expected actual).2.differences,
        OnlyIn actual expected difference.path := by
  intro expected actual
  have expectedKeys : expected.DistinctKeys := by
    simp [expected, Bindings.Distinct, lit]
  have actualKeys : actual.DistinctKeys := by
    simp [actual, Bindings.Distinct, lit]
  have passed : (compare .subset .last .empty [] expected actual).1 = true := by
    rw [compare_empty]
    cbv
  obtain ⟨_, captures, _, extra⟩ := exact_extends_subset .last expectedKeys actualKeys
  refine ⟨expectedKeys, actualKeys, passed, ?_, captures, ?_⟩
  · rw [compare_empty]
    cbv
  · intro difference member
    obtain ⟨_, _, only, _⟩ := ((extra passed).1 difference).mp member
    exact only

end Comparison

end JsonTemplate
