import JsonTemplate.Comparison
import JsonTemplate.Proofs.Bindings
import JsonTemplate.Proofs.Decimal.Value
import JsonTemplate.Proofs.Tree

set_option autoImplicit false

/-!
# The rules of a comparison

`Reports` gives the comparison as rules, one for each way in which two values can meet.
A pair of values has exactly one report, and `findings` computes it.
-/

namespace JsonTemplate

def Template.IsCapture (template : Template) : Prop :=
  ∃ name, template = .string (.capture name)

def Kind.IsScalar (kind : Kind) : Prop :=
  kind ≠ .array ∧ kind ≠ .object

/-- Lists of one length have items at the same positions. -/
theorem exists_getElem?_of_aligned {α β : Type} {left : List α} {right : List β}
    (aligned : left.length = right.length) {position : Nat} {item : α}
    (there : left[position]? = some item) : ∃ other, right[position]? = some other := by
  obtain ⟨within, _⟩ := List.getElem?_eq_some_iff.mp there
  exact ⟨_, List.getElem?_eq_getElem (aligned ▸ within)⟩

theorem mem_range_length_iff {α : Type} {items : List α} {position : Nat} :
    position ∈ List.range items.length ↔ ∃ item, items[position]? = some item := by
  rw [List.mem_range, ← Option.isSome_iff_exists, isSome_getElem?]

/-- A finding seen from further up: `base` leads to the place from which it was found. -/
def Finding.under (base : Path) : Finding → Finding
  | .difference ⟨path, mismatch⟩ => .difference ⟨base ++ path, mismatch⟩
  | .capture name value => .capture name value

namespace Comparison

/-- Scalars that are the same. Numbers are compared by the rational numbers that they
denote; a slot stands for the text it was written as. -/
inductive SameScalar : Template → Json → Prop where
  | null : SameScalar .null .null
  | boolean {value : Bool} : SameScalar (.boolean value) (.boolean value)
  | number {wanted found : Number} :
      wanted.toRat = found.toRat → SameScalar (.number wanted) (.number found)
  | string {leaf : Slot} : SameScalar (.string leaf) (.string leaf.text)

theorem SameScalar.isScalar {expected : Template} {actual : Json}
    (same : SameScalar expected actual) : expected.kind.IsScalar := by
  cases same <;> exact ⟨nofun, nofun⟩

theorem SameScalar.kind_eq {expected : Template} {actual : Json}
    (same : SameScalar expected actual) : expected.kind = actual.kind := by
  cases same <;> rfl

/-- What is reported of two values at a place. The reports of an object's members and
of an array's items are given by `inner`, in the order of the template. -/
inductive Reports (mode : Mode) : Path → Template → Json → List Finding → Prop where
  | capture {path : Path} {name : Text} {actual : Json} :
      Reports mode path (.string (.capture name)) actual [.capture name actual]
  | kind {path : Path} {expected : Template} {actual : Json} :
      ¬ expected.IsCapture → expected.kind ≠ actual.kind →
      Reports mode path expected actual [.difference ⟨path, .kind expected.toJson actual⟩]
  | same {path : Path} {expected : Template} {actual : Json} :
      ¬ expected.IsCapture → SameScalar expected actual →
      Reports mode path expected actual []
  | value {path : Path} {expected : Template} {actual : Json} :
      ¬ expected.IsCapture → expected.kind = actual.kind → expected.kind.IsScalar →
      ¬ SameScalar expected actual →
      Reports mode path expected actual [.difference ⟨path, .value expected.toJson actual⟩]
  | object {path : Path} {expected : List (Text × Template)} {actual : List (Text × Json)}
      {inner : Text × Template → List Finding} :
      (∀ key wanted, (key, wanted) ∈ expected → actual.lookup key = none →
        inner (key, wanted) =
          [.difference ⟨path ++ [.key key], .missing wanted.toJson⟩]) →
      (∀ key wanted found, (key, wanted) ∈ expected → actual.lookup key = some found →
        Reports mode (path ++ [.key key]) wanted found (inner (key, wanted))) →
      Reports mode path (.object expected) (.object actual)
        (expected.flatMap inner ++
          if mode = .exact then
            (actual.filter fun member => member.1 ∉ expected.map Prod.fst).map fun member =>
              .difference ⟨path ++ [.key member.1], .unexpected member.2⟩
          else [])
  | length {path : Path} {expected : List Template} {actual : List Json} :
      expected.length ≠ actual.length →
      Reports mode path (.array expected) (.array actual)
        [.difference ⟨path, .length expected.length actual.length⟩]
  | array {path : Path} {expected : List Template} {actual : List Json}
      {inner : Nat → List Finding} :
      expected.length = actual.length →
      (∀ (position : Nat) wanted found, expected[position]? = some wanted →
        actual[position]? = some found →
        Reports mode (path ++ [.index position]) wanted found (inner position)) →
      Reports mode path (.array expected) (.array actual)
        ((List.range expected.length).flatMap inner)

/-- Where a comparison starts decides about the start of every path and nothing else. -/
theorem Reports.under {mode : Mode} {path : Path} {expected : Template} {actual : Json}
    {found : List Finding} (reported : Reports mode path expected actual found) (base : Path) :
    Reports mode (base ++ path) expected actual (found.map (Finding.under base)) := by
  induction reported with
  | capture => exact .capture
  | kind plain different => exact .kind plain different
  | same plain equal => exact .same plain equal
  | value plain alike scalar different => exact .value plain alike scalar different
  | object absent _ ih =>
      rw [List.map_append, List.map_flatMap, apply_ite (List.map (Finding.under base)),
        List.map_map, List.map_nil]
      have pathOf : ∀ (member : Text × Json) (path : Path),
          base ++ (path ++ [.key member.1]) = base ++ path ++ [.key member.1] := by simp
      simp only [Function.comp_def, Finding.under, pathOf]
      refine .object ?_ ?_
      · intro key wanted member missing
        simp [absent key wanted member missing, Finding.under]
      · intro key wanted found member located
        simpa using ih key wanted found member located
  | length different => exact .length different
  | @array path expected actual inner aligned _ ih =>
      rw [List.map_flatMap]
      refine .array aligned ?_
      intro position wanted found left right
      simpa using ih position wanted found left right

/-! ## The pieces of `findings` -/

theorem unexpectedFindings_eq (mode : Mode) (path : Path) (expected : List (Text × Template))
    (actual : List (Text × Json)) :
    unexpectedFindings mode path expected actual =
      if mode = .exact then
        (actual.filter fun member => member.1 ∉ expected.map Prod.fst).map fun member =>
          .difference ⟨path ++ [.key member.1], .unexpected member.2⟩
      else [] := by
  cases mode with
  | subset => rfl
  | exact =>
      simp only [unexpectedFindings, unexpectedMembers, ↓reduceIte]
      congr 2
      funext member
      rw [Bool.eq_iff_iff, Option.isNone_iff_eq_none, lookup_eq_none_iff_not_mem,
        decide_eq_true_iff]

theorem mem_unexpectedFindings_iff {mode : Mode} {path : Path} {expected : List (Text × Template)}
    {actual : List (Text × Json)} {finding : Finding} :
    finding ∈ unexpectedFindings mode path expected actual ↔ mode = .exact ∧
      ∃ key found, (key, found) ∈ actual ∧ key ∉ expected.map Prod.fst ∧
        finding = .difference ⟨path ++ [.key key], .unexpected found⟩ := by
  rw [unexpectedFindings_eq]
  constructor
  · intro member
    split at member
    · next exactly =>
        obtain ⟨⟨key, found⟩, remaining, rfl⟩ := List.mem_map.mp member
        obtain ⟨included, absent⟩ := List.mem_filter.mp remaining
        exact ⟨exactly, key, found, included, of_decide_eq_true absent, rfl⟩
    · cases member
  · rintro ⟨exactly, key, found, included, absent, rfl⟩
    rw [if_pos exactly]
    exact List.mem_map.mpr ⟨(key, found),
      List.mem_filter.mpr ⟨included, decide_eq_true absent⟩, rfl⟩

private theorem memberFindings_eq (mode : Mode) (path : Path) (actual : List (Text × Json))
    {expected : List (Text × Template)} {inner : Text × Template → List Finding}
    (absent : ∀ key wanted, (key, wanted) ∈ expected → actual.lookup key = none →
      inner (key, wanted) = [.difference ⟨path ++ [.key key], .missing wanted.toJson⟩])
    (present : ∀ key wanted found, (key, wanted) ∈ expected → actual.lookup key = some found →
      inner (key, wanted) = findings mode (path ++ [.key key]) wanted found) :
    memberFindings mode path actual expected = expected.flatMap inner := by
  induction expected with
  | nil => rfl
  | cons member rest ih =>
      obtain ⟨key, wanted⟩ := member
      have others := ih (fun key wanted member => absent key wanted (.tail _ member))
        (fun key wanted found member => present key wanted found (.tail _ member))
      rw [memberFindings, others, List.flatMap_cons]
      congr 1
      split
      · next missing => exact (absent key wanted (.head _) missing).symm
      · next found located => exact (present key wanted found (.head _) located).symm

private theorem itemFindings_eq (mode : Mode) (path : Path) {expected : List Template}
    {actual : List Json} {inner : Nat → List Finding} (position : Nat)
    (aligned : expected.length = actual.length)
    (each : ∀ (offset : Nat) wanted found, expected[offset]? = some wanted →
      actual[offset]? = some found →
      inner (position + offset) =
        findings mode (path ++ [.index (position + offset : Nat)]) wanted found) :
    itemFindings mode path position expected actual =
      (List.range' position expected.length).flatMap inner := by
  induction expected generalizing actual position with
  | nil => simp [itemFindings]
  | cons wanted others ih =>
      cases actual with
      | nil => simp at aligned
      | cons found rest =>
          have first := each 0 wanted found rfl rfl
          have tail := ih (position + 1) (Nat.succ.inj aligned) fun offset wanted found left right => by
            have shifted := each (offset + 1) wanted found left right
            rwa [show position + (offset + 1) = position + 1 + offset by omega] at shifted
          rw [itemFindings, tail, List.length_cons, List.range'_succ, List.flatMap_cons]
          congr 1
          exact first.symm

/-! ## The rules and `findings` -/

theorem kind_ne_of_not_scalar {expected : Template} {actual : Json}
    (leaf : expected.kind.IsScalar ∨ expected.kind ≠ actual.kind) :
    ¬ (expected.kind = .array ∧ actual.kind = .array) ∧
      ¬ (expected.kind = .object ∧ actual.kind = .object) := by
  rcases leaf with ⟨noArray, noObject⟩ | different
  · exact ⟨fun both => noArray both.1, fun both => noObject both.1⟩
  · exact ⟨fun both => different (both.1.trans both.2.symm),
      fun both => different (both.1.trans both.2.symm)⟩

/-- Only captures and pairs of containers of one kind are no leaves. -/
theorem findings_eq_leafFindings (mode : Mode) (path : Path) {expected : Template}
    {actual : Json} (plain : ¬ expected.IsCapture)
    (leaf : expected.kind.IsScalar ∨ expected.kind ≠ actual.kind) :
    findings mode path expected actual = leafFindings path expected actual := by
  obtain ⟨noArrays, noObjects⟩ := kind_ne_of_not_scalar leaf
  rw [findings.eq_def]
  split
  · exact absurd ⟨_, rfl⟩ plain
  · exact absurd ⟨rfl, rfl⟩ noArrays
  · exact absurd ⟨rfl, rfl⟩ noObjects
  · rfl

private theorem leafFindings_of_kind_ne (path : Path) {expected : Template} {actual : Json}
    (different : expected.kind ≠ actual.kind) :
    leafFindings path expected actual = [.difference ⟨path, .kind expected.toJson actual⟩] := by
  cases expected <;> cases actual <;> first | rfl | exact absurd rfl different

theorem leafFindings_of_same (path : Path) {expected : Template} {actual : Json}
    (same : SameScalar expected actual) : leafFindings path expected actual = [] := by
  cases same with
  | null => rfl
  | boolean => simp [leafFindings]
  | number equal => simp [leafFindings, (Number.sameValue_iff _ _).mpr equal]
  | string => simp [leafFindings]

theorem leafFindings_of_not_same (path : Path) {expected : Template} {actual : Json}
    (alike : expected.kind = actual.kind) (scalar : expected.kind.IsScalar)
    (different : ¬ SameScalar expected actual) :
    leafFindings path expected actual = [.difference ⟨path, .value expected.toJson actual⟩] := by
  cases expected with
  | null =>
      cases actual <;> cases alike
      exact absurd .null different
  | boolean wanted =>
      cases actual <;> cases alike
      next found =>
        have unequal : wanted ≠ found := fun same => different (same ▸ .boolean)
        simp [leafFindings, differs, unequal, Template.toJson, Tree.map]
  | number wanted =>
      cases actual <;> cases alike
      next found =>
        have unequal : ¬ wanted.sameValue found = true := fun same =>
          different (.number ((Number.sameValue_iff _ _).mp same))
        simp [leafFindings, differs, unequal, Template.toJson, Tree.map]
  | string leaf =>
      cases actual <;> cases alike
      next found =>
        have unequal : leaf.text ≠ found := fun same => different (same ▸ .string)
        simp [leafFindings, differs, unequal, Template.toJson, Tree.map]
  | array items => exact absurd rfl scalar.1
  | object members => exact absurd rfl scalar.2

theorem Reports.eq_findings {mode : Mode} {path : Path} {expected : Template} {actual : Json}
    {found : List Finding} (reported : Reports mode path expected actual found) :
    found = findings mode path expected actual := by
  induction reported with
  | capture => simp [findings]
  | kind plain different =>
      rw [findings_eq_leafFindings mode _ plain (.inr different),
        leafFindings_of_kind_ne _ different]
  | same plain equal =>
      rw [findings_eq_leafFindings mode _ plain (.inl equal.isScalar), leafFindings_of_same _ equal]
  | value plain alike scalar different =>
      rw [findings_eq_leafFindings mode _ plain (.inl scalar),
        leafFindings_of_not_same _ alike scalar different]
  | object absent _ ih =>
      rw [findings, memberFindings_eq mode _ _ absent ih, unexpectedFindings_eq]
  | length different => simp [findings, different, differs]
  | @array path expected actual inner aligned _ ih =>
      rw [findings, if_pos aligned, List.range_eq_range']
      exact (itemFindings_eq mode path 0 aligned (by simpa only [Nat.zero_add] using ih)).symm

private theorem reports_leaf (mode : Mode) (path : Path) {expected : Template} {actual : Json}
    (plain : ¬ expected.IsCapture)
    (leaf : expected.kind.IsScalar ∨ expected.kind ≠ actual.kind) :
    Reports mode path expected actual (findings mode path expected actual) := by
  rw [findings_eq_leafFindings mode path plain leaf]
  by_cases alike : expected.kind = actual.kind
  · have scalar : expected.kind.IsScalar := leaf.resolve_right (absurd alike)
    by_cases same : SameScalar expected actual
    · rw [leafFindings_of_same path same]
      exact .same plain same
    · rw [leafFindings_of_not_same path alike scalar same]
      exact .value plain alike scalar same
  · rw [leafFindings_of_kind_ne path alike]
    exact .kind plain alike

def memberReport (mode : Mode) (path : Path) (actual : List (Text × Json))
    (member : Text × Template) : List Finding :=
  match actual.lookup member.1 with
  | none => [.difference ⟨path ++ [.key member.1], .missing member.2.toJson⟩]
  | some found => findings mode (path ++ [.key member.1]) member.2 found

private theorem memberReport_missing {mode : Mode} {path : Path} {actual : List (Text × Json)}
    {key : Text}
    {wanted : Template} (missing : actual.lookup key = none) :
    memberReport mode path actual (key, wanted) =
      [.difference ⟨path ++ [.key key], .missing wanted.toJson⟩] := by
  simp only [memberReport, missing]

private theorem memberReport_located {mode : Mode} {path : Path} {actual : List (Text × Json)}
    {key : Text}
    {wanted : Template} {found : Json} (located : actual.lookup key = some found) :
    memberReport mode path actual (key, wanted) =
      findings mode (path ++ [.key key]) wanted found := by
  simp only [memberReport, located]

/-- The rules leave no pair of values without a report. -/
theorem reports_findings (mode : Mode) (path : Path) (expected : Template) (actual : Json) :
    Reports mode path expected actual (findings mode path expected actual) := by
  induction expected using Tree.inductionOn generalizing path actual with
  | array items ih =>
      cases actual with
      | array others =>
          rw [findings]
          split
          · next aligned =>
              have each : ∀ (position : Nat) wanted found, items[position]? = some wanted →
                  others[position]? = some found →
                  Reports mode (path ++ [.index position]) wanted found
                    (findings mode (path ++ [.index position]) (items.getD position .null)
                      (others.getD position .null)) := by
                intro position wanted found left right
                rw [List.getD_eq_getElem?_getD, List.getD_eq_getElem?_getD, left, right]
                exact ih wanted (List.mem_of_getElem? left) _ found
              have whole := Reports.array aligned each
              rwa [List.range_eq_range', ← itemFindings_eq mode path 0 aligned] at whole
              intro position wanted found left right
              simp only [Nat.zero_add, List.getD_eq_getElem?_getD, left, right, Option.getD_some]
          · next different => exact .length different
      | _ => exact reports_leaf mode path (by simp [Template.IsCapture]) (.inr (by simp [Tree.kind]))
  | object members ih =>
      cases actual with
      | object others =>
          rw [findings, unexpectedFindings_eq, memberFindings_eq mode path others
            (fun _ _ _ missing => memberReport_missing missing)
            (fun _ _ _ _ located => memberReport_located located)]
          refine .object (fun _ _ _ missing => memberReport_missing missing) ?_
          intro key wanted found member located
          rw [memberReport_located located]
          exact ih key wanted member _ found
      | _ => exact reports_leaf mode path (by simp [Template.IsCapture]) (.inr (by simp [Tree.kind]))
  | string leaf =>
      cases leaf with
      | capture name => rw [findings]; exact .capture
      | literal text =>
          exact reports_leaf mode path (by simp [Template.IsCapture])
            (.inl (by simp [Tree.kind, Kind.IsScalar]))
      | call name =>
          exact reports_leaf mode path (by simp [Template.IsCapture])
            (.inl (by simp [Tree.kind, Kind.IsScalar]))
  | _ =>
      exact reports_leaf mode path (by simp [Template.IsCapture])
        (.inl (by simp [Tree.kind, Kind.IsScalar]))

theorem reports_iff {mode : Mode} {path : Path} {expected : Template} {actual : Json}
    {found : List Finding} :
    Reports mode path expected actual found ↔ found = findings mode path expected actual :=
  ⟨Reports.eq_findings, fun same => same ▸ reports_findings mode path expected actual⟩

end Comparison

end JsonTemplate
