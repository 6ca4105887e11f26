import JsonTemplate.Proofs.Comparison.Facing
import JsonTemplate.Proofs.Comparison.Worklist
import Mathlib.Data.List.Basic
import Mathlib.Data.List.Induction

set_option autoImplicit false

/-!
# What is captured

The captures of a comparison are the values that face the capture leaves of the template, one for
each leaf that is reached, in document order. Names are kept in the order of their first leaf;
which leaf gives the value is up to the policy, and differences do not depend on it.
-/

namespace JsonTemplate

def Slot.captured? : Slot → Option Text
  | .capture name => some name
  | _ => none

/-- The captures of a template in document order, each with its place. -/
def Template.captureLeaves (template : Template) : List (Path × Text) :=
  template.leaves.filterMap fun (place, slot) => slot.captured?.map fun name => (place, name)

namespace Template

theorem mem_captureLeaves_iff {template : Template} (distinct : template.DistinctKeys)
    {place : Path} {name : Text} :
    (place, name) ∈ template.captureLeaves ↔
      template.at? place = some (.string (.capture name)) := by
  have picked : (place, name) ∈ template.picked Slot.captured? ↔ _ := Tree.mem_picked_iff distinct
  refine picked.trans ⟨?_, fun leads => ⟨_, leads, rfl⟩⟩
  intro ⟨slot, leads, taken⟩
  cases slot <;> cases taken
  exact leads

private theorem captureLeaves_array (items : List Template) :
    captureLeaves (.array items) = items.zipIdx.flatMap fun (item, position) =>
      item.captureLeaves.map fun (place, name) => (.index position :: place, name) :=
  Tree.picked_array Slot.captured? items

private theorem captureLeaves_object (members : List (Text × Template)) :
    captureLeaves (.object members) = members.flatMap fun (key, value) =>
      value.captureLeaves.map fun (place, name) => (.key key :: place, name) :=
  Tree.picked_object Slot.captured? members

end Template

namespace Comparison

/-! ## Captures in document order -/

def reachedLeaves (expected : Template) (actual : Json) : List (Path × Text) :=
  expected.captureLeaves.filter fun leaf => Reachable expected actual leaf.1

def valueAt? (actual : Json) (leaf : Path × Text) : Option (Text × Json) :=
  (actual.at? leaf.1).map fun value => (leaf.2, value)

private theorem captures_below {expected wanted : Template} {actual found : Json} {step : Segment}
    (left : expected.child? step = some wanted) (right : actual.child? step = some found)
    (on : goesOn expected actual [] step = true) (leaves : List (Path × Text)) :
    ((leaves.map fun (place, name) => (step :: place, name)).filter
      fun leaf => Reachable expected actual leaf.1).filterMap (valueAt? actual) =
      (leaves.filter fun leaf => Reachable wanted found leaf.1).filterMap (valueAt? found) := by
  have below : ∀ place, Reachable expected actual (step :: place) ↔ Reachable wanted found place :=
    fun place => (reachable_cons_iff left right).trans (and_iff_right on)
  rw [List.filter_map, List.filterMap_map]
  congr 1
  · funext ⟨place, name⟩
    simp [valueAt?, right]
  · congr 1
    funext ⟨place, name⟩
    exact decide_eq_decide.mpr (below place)

private theorem no_captures_below {expected : Template} {actual : Json} {step : Segment}
    (off : goesOn expected actual [] step = false) (leaves : List (Path × Text)) :
    ((leaves.map fun (place, name) => (step :: place, name)).filter
      fun leaf => Reachable expected actual leaf.1) = [] := by
  rw [List.filter_map, List.map_eq_nil_iff, List.filter_eq_nil_iff]
  rintro ⟨place, name⟩ _ reachable
  have on := of_decide_eq_true reachable 0 (Nat.zero_lt_succ _)
  exact Bool.false_ne_true (off.symm.trans on)

/-- A capture below the root is only reached through two containers of one kind. -/
theorem reachedLeaves_eq_nil {expected : Template} {actual : Json}
    (distinct : expected.DistinctKeys) (plain : ¬ expected.IsCapture)
    (off : ∀ step, goesOn expected actual [] step = false) : reachedLeaves expected actual = [] := by
  rw [reachedLeaves, List.filter_eq_nil_iff]
  rintro ⟨place, name⟩ listed reachable
  have leads := (Template.mem_captureLeaves_iff distinct).mp listed
  cases place with
  | nil => exact plain ⟨name, Option.some.inj leads⟩
  | cons step rest =>
      have on := of_decide_eq_true reachable 0 (Nat.zero_lt_succ _)
      exact Bool.false_ne_true ((off step).symm.trans on)

private theorem goesOn_leaf {expected : Template} {actual : Json}
    (leaf : expected.kind.IsScalar ∨ expected.kind ≠ actual.kind) (step : Segment) :
    goesOn expected actual [] step = false := by
  obtain ⟨noArrays, noObjects⟩ := kind_ne_of_not_scalar leaf
  rw [Bool.eq_false_iff]
  intro on
  rcases goesOn_root on with ⟨_, _, _, _, rfl, rfl, _⟩ | ⟨_, _, rfl, rfl, _⟩
  · exact noObjects ⟨rfl, rfl⟩
  · exact noArrays ⟨rfl, rfl⟩

private theorem capturesOf_unexpectedFindings (mode : Mode) (path : Path)
    (expected : List (Text × Template)) (actual : List (Text × Json)) :
    capturesOf (unexpectedFindings mode path expected actual) = [] := by
  rw [List.eq_nil_iff_forall_not_mem]
  rintro ⟨name, value⟩ captured
  obtain ⟨_, _, _, _, _, same⟩ := mem_unexpectedFindings_iff.mp (mem_capturesOf.mp captured)
  cases same

theorem Reports.captures {mode : Mode} {path : Path} {expected : Template} {actual : Json}
    {found : List Finding} (reported : Reports mode path expected actual found)
    (distinct : expected.DistinctKeys) :
    capturesOf found = (reachedLeaves expected actual).filterMap (valueAt? actual) := by
  induction reported with
  | @capture path name actual =>
      have root : Reachable (.string (.capture name)) actual [] := reachable_nil _ _
      simp [reachedLeaves, Template.captureLeaves, Tree.leaves, Slot.captured?, root, valueAt?]
      rfl
  | kind plain different =>
      rw [reachedLeaves_eq_nil distinct plain (goesOn_leaf (.inr different))]
      rfl
  | same plain equal =>
      rw [reachedLeaves_eq_nil distinct plain (goesOn_leaf (.inl equal.isScalar))]
      rfl
  | value plain _ scalar =>
      rw [reachedLeaves_eq_nil distinct plain (goesOn_leaf (.inl scalar))]
      rfl
  | @length path expected actual different =>
      have plain : ¬ Template.IsCapture (.array expected) := by
        rintro ⟨name, same⟩
        cases same
      rw [reachedLeaves_eq_nil distinct plain fun step => by simp [goesOn, different]]
      rfl
  | @object path expected actual inner absent _ ih =>
      obtain ⟨keys, each⟩ := Tree.distinctKeys_object.mp distinct
      rw [← unexpectedFindings_eq, capturesOf_append, capturesOf_unexpectedFindings, List.append_nil,
        capturesOf_flatMap, reachedLeaves, Template.captureLeaves_object, List.filter_flatMap,
        List.filterMap_flatMap]
      refine List.flatMap_congr ?_
      rintro ⟨key, wanted⟩ included
      cases located : actual.lookup key with
      | none =>
          have off : goesOn (.object expected) (.object actual) [] (.key key) = false := by
            simp [goesOn, located]
          rw [absent key wanted included located, no_captures_below off]
          rfl
      | some found =>
          have on : goesOn (.object expected) (.object actual) [] (.key key) = true := by
            simp [goesOn, located]
          have below : (Tree.object expected).child? (.key key) = some wanted :=
            keys.lookup_iff.mpr included
          have facing : (Tree.object actual).child? (.key key) = some found := located
          rw [captures_below below facing on]
          exact ih key wanted found included located (each _ included)
  | @array path expected actual inner aligned _ ih =>
      have each := Tree.distinctKeys_array.mp distinct
      have positions : List.range expected.length = expected.zipIdx.map Prod.snd := by
        rw [List.zipIdx_map_snd, List.range_eq_range']
      rw [positions, List.flatMap_map, capturesOf_flatMap, reachedLeaves,
        Template.captureLeaves_array, List.filter_flatMap, List.filterMap_flatMap]
      refine List.flatMap_congr ?_
      rintro ⟨wanted, position⟩ included
      have wantedAt := List.mk_mem_zipIdx_iff_getElem?.mp included
      obtain ⟨found, foundAt⟩ := exists_getElem?_of_aligned aligned wantedAt
      have on : goesOn (.array expected) (.array actual) [] (.index position) = true := by
        simp [goesOn, aligned]
      have below : (Tree.array expected).child? (.index position) = some wanted := wantedAt
      have facing : (Tree.array actual).child? (.index position) = some found := foundAt
      rw [captures_below below facing on]
      exact ih position wanted found wantedAt foundAt (each wanted (List.mem_of_getElem? wantedAt))

private theorem captures_eq (mode : Mode) (policy : CapturePolicy) {expected : Template}
    (distinct : expected.DistinctKeys) (actual : Json) :
    (compare mode policy .empty [] expected actual).2.captures =
      captureAll policy [] ((reachedLeaves expected actual).filterMap (valueAt? actual)) := by
  rw [compare_empty, (reports_findings mode [] expected actual).captures distinct]

private theorem value_of_reached {expected : Template} {actual : Json}
    (distinct : expected.DistinctKeys)
    {leaf : Path × Text} (reached : leaf ∈ reachedLeaves expected actual) :
    ∃ value, actual.at? leaf.1 = some value := by
  obtain ⟨listed, reachable⟩ := List.mem_filter.mp reached
  have leads := (Template.mem_captureLeaves_iff distinct).mp listed
  obtain ⟨value, facing⟩ := facing_of_reachable leads (of_decide_eq_true reachable)
  exact ⟨value, facing.actual_at⟩

private theorem map_fst_values {actual : Json} {leaves : List (Path × Text)}
    (each : ∀ leaf ∈ leaves, ∃ value, actual.at? leaf.1 = some value) :
    (leaves.filterMap (valueAt? actual)).map Prod.fst = leaves.map Prod.snd := by
  induction leaves with
  | nil => rfl
  | cons leaf rest ih =>
      obtain ⟨value, found⟩ := each leaf List.mem_cons_self
      have captured : valueAt? actual leaf = some (leaf.2, value) := by rw [valueAt?, found]; rfl
      rw [List.filterMap_cons_some captured, List.map_cons, List.map_cons,
        ih fun other member => each other (List.mem_cons_of_mem leaf member)]

/-! ## Which value is kept -/

private theorem captureAll_concat (policy : CapturePolicy) (captures : Bindings Json)
    (added : List (Text × Json)) (name : Text) (value : Json) :
    captureAll policy captures (added ++ [(name, value)]) =
      capture policy name value (captureAll policy captures added) := by
  rw [captureAll, List.foldl_append]
  rfl

private theorem map_fst_capture (policy : CapturePolicy) (name : Text) (value : Json)
    (captures : Bindings Json) :
    (capture policy name value captures).map Prod.fst =
      if name ∈ captures.map Prod.fst then captures.map Prod.fst
      else captures.map Prod.fst ++ [name] := by
  unfold capture
  split
  · next kept bound =>
      have member := List.mem_map_of_mem (f := Prod.fst) (mem_of_lookup_eq_some bound)
      rw [if_pos member]
  · exact Bindings.map_fst_set captures name value

/-- Names are kept in the order in which they are first captured. -/
theorem map_fst_captureAll (policy : CapturePolicy) (added : List (Text × Json)) :
    (captureAll policy [] added).map Prod.fst = (added.map Prod.fst).eraseDups := by
  induction added using List.reverseRecOn with
  | nil => rfl
  | append_singleton added entry ih =>
      obtain ⟨name, value⟩ := entry
      rw [captureAll_concat, map_fst_capture, ih, List.map_append, List.map_singleton,
        Bindings.eraseDups_concat]

theorem distinct_captureAll (policy : CapturePolicy) (added : List (Text × Json)) :
    Bindings.Distinct (captureAll policy [] added) := by
  induction added using List.reverseRecOn with
  | nil => exact List.nodup_nil
  | append_singleton added entry ih =>
      rw [captureAll_concat]
      unfold capture
      split
      · exact ih
      · exact ih.set _ _

private theorem lookup_capture_last (name : Text) (value : Json) (captures : Bindings Json)
    (other : Text) : (capture .last name value captures).lookup other =
      if other = name then some value else captures.lookup other := by
  rw [← Bindings.lookup_set]
  unfold capture
  cases captures.get? name <;> rfl

private theorem lookup_capture_first (name : Text) (value : Json) (captures : Bindings Json)
    (other : Text) : (capture .first name value captures).lookup other =
      (captures.lookup other).or (if other = name then some value else none) := by
  unfold capture
  cases bound : captures.lookup name with
  | some kept =>
      simp only [Bindings.get?, bound]
      by_cases same : other = name
      · subst same
        simp [bound]
      · simp [same]
  | none =>
      simp only [Bindings.get?, bound, Bindings.lookup_set]
      by_cases same : other = name
      · subst same
        simp [bound]
      · simp [same]

private theorem lookup_captureAll_last (added : List (Text × Json)) (name : Text) :
    (captureAll .last [] added).lookup name = added.reverse.lookup name := by
  induction added using List.reverseRecOn with
  | nil => rfl
  | append_singleton added entry ih =>
      rw [captureAll_concat, lookup_capture_last, ih, List.reverse_append,
        List.reverse_singleton, List.singleton_append, lookup_cons_eq]

private theorem lookup_captureAll_first (added : List (Text × Json)) (name : Text) :
    (captureAll .first [] added).lookup name = added.lookup name := by
  induction added using List.reverseRecOn with
  | nil => rfl
  | append_singleton added entry ih =>
      rw [captureAll_concat, lookup_capture_first, ih, List.lookup_append, lookup_cons_eq]
      rfl

private theorem captureAll_of_distinct (policy : CapturePolicy) {added : List (Text × Json)}
    (distinct : Bindings.Distinct added) : captureAll policy [] added = added := by
  induction added using List.reverseRecOn with
  | nil => rfl
  | append_singleton added entry ih =>
      obtain ⟨name, value⟩ := entry
      rw [Bindings.Distinct, List.map_append, List.nodup_append] at distinct
      obtain ⟨before, _, apart⟩ := distinct
      have fresh : name ∉ added.map Prod.fst := by
        intro member
        exact apart name member name List.mem_cons_self rfl
      have unbound : Bindings.get? added name = none := lookup_eq_none_iff_not_mem.mpr fresh
      rw [captureAll_concat, ih before, ← Bindings.set_of_fresh fresh]
      simp only [capture, unbound]

private theorem mem_of_captured {policy : CapturePolicy} {added : List (Text × Json)} {name : Text}
    {value : Json} (bound : (captureAll policy [] added).get? name = some value) :
    (name, value) ∈ added := by
  rw [Bindings.get?] at bound
  cases policy with
  | last =>
      rw [lookup_captureAll_last] at bound
      exact List.mem_reverse.mp (mem_of_lookup_eq_some bound)
  | first =>
      rw [lookup_captureAll_first] at bound
      exact mem_of_lookup_eq_some bound

/-- A value that is kept under a name faces one of the name's leaves. -/
theorem facing_of_captured {mode : Mode} {policy : CapturePolicy} {expected : Template}
    {actual value : Json} {name : Text}
    (bound : (compare mode policy .empty [] expected actual).2.captures.get? name = some value) :
    ∃ place, Facing expected actual place (.string (.capture name)) value := by
  rw [compare_empty] at bound
  exact mem_captures_iff.mp (mem_of_captured bound)

/-- A name is bound when one of its leaves has a value to face. -/
theorem exists_captured_of_facing (mode : Mode) (policy : CapturePolicy) {expected : Template}
    {actual value : Json} {place : Path} {name : Text}
    (facing : Facing expected actual place (.string (.capture name)) value) :
    ∃ kept, (compare mode policy .empty [] expected actual).2.captures.get? name = some kept := by
  rw [compare_empty]
  apply exists_lookup_of_mem
  rw [map_fst_captureAll, List.mem_eraseDups]
  exact List.mem_map_of_mem (f := Prod.fst) (mem_captures_iff.mpr ⟨place, facing⟩)

/-- Where no name is captured twice, a name has the value that faces its leaf. -/
theorem captured_of_facing (mode : Mode) (policy : CapturePolicy) {expected : Template}
    {actual value : Json} {place : Path} {name : Text} (distinct : expected.DistinctKeys)
    (once : (expected.captureLeaves.map Prod.snd).Nodup)
    (facing : Facing expected actual place (.string (.capture name)) value) :
    (compare mode policy .empty [] expected actual).2.captures.get? name = some value := by
  have names : (capturesOf (findings mode [] expected actual)).map Prod.fst =
      (reachedLeaves expected actual).map Prod.snd := by
    rw [(reports_findings mode [] expected actual).captures distinct]
    exact map_fst_values fun leaf reached => value_of_reached distinct reached
  have different : Bindings.Distinct (capturesOf (findings mode [] expected actual)) := by
    rw [Bindings.Distinct, names]
    exact once.sublist (List.filter_sublist.map _)
  rw [compare_empty, Bindings.get?, captureAll_of_distinct policy different,
    different.lookup_iff, mem_captures_iff]
  exact ⟨place, facing⟩

/-- Of all values of a name, looking it up gives the one of its first leaf. -/
theorem lookup_values {actual value : Json} {before after : List (Path × Text)} {place : Path}
    {name : Text} (fresh : name ∉ before.map Prod.snd) (found : actual.at? place = some value) :
    ((before ++ (place, name) :: after).filterMap (valueAt? actual)).lookup name = some value := by
  have captured : valueAt? actual (place, name) = some (name, value) := by
    rw [valueAt?, found]
    rfl
  have nothing : (before.filterMap (valueAt? actual)).lookup name = none := by
    rw [lookup_eq_none_iff_not_mem]
    intro member
    obtain ⟨entry, listed, rfl⟩ := List.mem_map.mp member
    obtain ⟨leaf, included, value⟩ := List.mem_filterMap.mp listed
    obtain ⟨_, _, rfl⟩ := Option.map_eq_some_iff.mp value
    exact fresh (List.mem_map_of_mem included)
  rw [List.filterMap_append, List.filterMap_cons_some captured, List.lookup_append, nothing,
    lookup_cons_eq, if_pos rfl]
  rfl

/-- The names captured are those of the capture leaves that a comparison reaches, in the order
of the first leaf of each. Under the last policy a name has the value at its last reached leaf,
under the first policy the value at its first one. The differences are the same. -/
theorem captures_of_reached_leaves (mode : Mode) {expected : Template} {actual : Json}
    (distinct : expected.DistinctKeys) :
    (∀ place name, (place, name) ∈ reachedLeaves expected actual ↔
      expected.at? place = some (.string (.capture name)) ∧ Reachable expected actual place) ∧
    (reachedLeaves expected actual).Sublist expected.captureLeaves ∧
    (∀ policy, (compare mode policy .empty [] expected actual).2.captures.map Prod.fst =
      ((reachedLeaves expected actual).map Prod.snd).eraseDups) ∧
    (∀ before place name after,
      reachedLeaves expected actual = before ++ (place, name) :: after →
      name ∉ after.map Prod.snd →
      ∃ value, actual.at? place = some value ∧
        (compare mode .last .empty [] expected actual).2.captures.get? name = some value) ∧
    (∀ before place name after,
      reachedLeaves expected actual = before ++ (place, name) :: after →
      name ∉ before.map Prod.snd →
      ∃ value, actual.at? place = some value ∧
        (compare mode .first .empty [] expected actual).2.captures.get? name = some value) ∧
    (compare mode .last .empty [] expected actual).2.differences =
      (compare mode .first .empty [] expected actual).2.differences := by
  refine ⟨?_, List.filter_sublist, ?_, ?_, ?_, ?_⟩
  · intro place name
    rw [reachedLeaves, List.mem_filter, Template.mem_captureLeaves_iff distinct,
      decide_eq_true_iff]
  · intro policy
    rw [captures_eq mode policy distinct, map_fst_captureAll,
      map_fst_values fun leaf reached => value_of_reached distinct reached]
  · intro before place name after split fresh
    have member : (place, name) ∈ reachedLeaves expected actual := by simp [split]
    obtain ⟨value, found⟩ := value_of_reached distinct member
    refine ⟨value, found, ?_⟩
    rw [Bindings.get?, captures_eq mode .last distinct, lookup_captureAll_last,
      ← List.filterMap_reverse, split, List.reverse_append, List.reverse_cons, List.append_assoc]
    exact lookup_values (by simpa using fresh) found
  · intro before place name after split fresh
    have member : (place, name) ∈ reachedLeaves expected actual := by simp [split]
    obtain ⟨value, found⟩ := value_of_reached distinct member
    refine ⟨value, found, ?_⟩
    rw [Bindings.get?, captures_eq mode .first distinct, lookup_captureAll_first, split]
    exact lookup_values fresh found
  · rw [compare_empty, compare_empty]

/-- A name captured at two depths, and captures cut off by an array of another length and by a
missing member. -/
theorem captures_of_reached_leaves_cut_off :
    let expected : Template := .object
      [(lit "a", .array [.string (.capture (lit "X")), .string (.capture (lit "Y"))]),
        (lit "b", .array [.string (.capture (lit "Z"))]), (lit "c", .string (.capture (lit "X"))),
        (lit "d", .string (.capture (lit "X")))]
    let actual : Json := .object
      [(lit "c", .boolean true), (lit "b", .array []), (lit "a", .array [.null, .object []])]
    expected.DistinctKeys ∧
      (compare .exact .last .empty [] expected actual).2.captures.map Prod.fst =
        [lit "X", lit "Y"] ∧
      (compare .exact .last .empty [] expected actual).2.captures.get? (lit "X") =
        some (.boolean true) ∧
      (compare .exact .first .empty [] expected actual).2.captures.get? (lit "X") = some .null := by
  intro expected actual
  have distinct : expected.DistinctKeys := by simp [expected, Bindings.Distinct, lit]
  have reached : reachedLeaves expected actual =
      [([.key (lit "a"), .index 0], lit "X"), ([.key (lit "a"), .index 1], lit "Y"),
        ([.key (lit "c")], lit "X")] := by decide
  obtain ⟨_, _, names, last, first, _⟩ :=
    @captures_of_reached_leaves .exact expected actual distinct
  refine ⟨distinct, ?_, ?_, ?_⟩
  · rw [names, reached]
    decide
  · obtain ⟨value, found, captured⟩ := last [_, _] _ _ [] reached List.not_mem_nil
    cases found
    exact captured
  · obtain ⟨value, found, captured⟩ := first [] _ _ [_, _] reached List.not_mem_nil
    cases found
    exact captured

end Comparison

end JsonTemplate
