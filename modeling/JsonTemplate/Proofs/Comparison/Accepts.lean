import JsonTemplate.Proofs.Comparison.Facing
import JsonTemplate.Proofs.Comparison.Worklist

set_option autoImplicit false

/-!
# Where nothing differs

`Accepts` gives the rules by which a document meets a template. They hold exactly where a
comparison finds no difference, whatever it captures.
-/

namespace JsonTemplate.Comparison

/-- The rules by which a document meets a template. -/
inductive Accepts (mode : Mode) : Template → Json → Prop where
  | capture {name : Text} {actual : Json} : Accepts mode (.string (.capture name)) actual
  | scalar {expected : Template} {actual : Json} :
      ¬ expected.IsCapture → SameScalar expected actual → Accepts mode expected actual
  | array {expected : List Template} {actual : List Json} :
      expected.length = actual.length →
      (∀ (position : Nat) wanted found, expected[position]? = some wanted →
        actual[position]? = some found → Accepts mode wanted found) →
      Accepts mode (.array expected) (.array actual)
  | object {expected : List (Text × Template)} {actual : List (Text × Json)} :
      (∀ key ∈ expected.map Prod.fst, key ∈ actual.map Prod.fst) →
      (mode = .exact → ∀ key ∈ actual.map Prod.fst, key ∈ expected.map Prod.fst) →
      (∀ key wanted found, (key, wanted) ∈ expected → actual.lookup key = some found →
        Accepts mode wanted found) →
      Accepts mode (.object expected) (.object actual)

theorem Accepts.kind_eq {mode : Mode} {expected : Template} {actual : Json}
    (accepted : Accepts mode expected actual) (plain : ¬ expected.IsCapture) :
    expected.kind = actual.kind := by
  cases accepted with
  | capture => exact absurd ⟨_, rfl⟩ plain
  | scalar _ same => exact same.kind_eq
  | array => rfl
  | object => rfl

theorem Accepts.sameScalar {mode : Mode} {expected : Template} {actual : Json}
    (accepted : Accepts mode expected actual) (plain : ¬ expected.IsCapture)
    (scalar : expected.kind.IsScalar) : SameScalar expected actual := by
  cases accepted with
  | capture => exact absurd ⟨_, rfl⟩ plain
  | scalar _ same => exact same
  | array => exact absurd rfl scalar.1
  | object => exact absurd rfl scalar.2

private theorem no_unexpected_iff {mode : Mode} {path : Path} {expected : List (Text × Template)}
    {actual : List (Text × Json)} :
    differencesOf (unexpectedFindings mode path expected actual) = [] ↔
      (mode = .exact → ∀ key ∈ actual.map Prod.fst, key ∈ expected.map Prod.fst) := by
  constructor
  · intro nothing exactly key member
    obtain ⟨⟨name, value⟩, included, rfl⟩ := List.mem_map.mp member
    by_contra absent
    have reported : ⟨path ++ [.key name], .unexpected value⟩ ∈
        differencesOf (unexpectedFindings mode path expected actual) :=
      mem_differencesOf.mpr
        (mem_unexpectedFindings_iff.mpr ⟨exactly, name, value, included, absent, rfl⟩)
    rw [nothing] at reported
    cases reported
  · intro expectedOnly
    rw [List.eq_nil_iff_forall_not_mem]
    intro difference reported
    obtain ⟨exactly, key, value, included, absent, _⟩ :=
      mem_unexpectedFindings_iff.mp (mem_differencesOf.mp reported)
    exact absent (expectedOnly exactly key (List.mem_map_of_mem included))

/-- A report has no differences exactly where the document meets the template. -/
theorem Reports.accepts_iff {mode : Mode} {path : Path} {expected : Template} {actual : Json}
    {found : List Finding} (reported : Reports mode path expected actual found) :
    differencesOf found = [] ↔ Accepts mode expected actual := by
  induction reported with
  | capture => exact iff_of_true rfl .capture
  | kind plain different =>
      exact iff_of_false (List.cons_ne_nil _ _) fun accepted => different (accepted.kind_eq plain)
  | same plain equal => exact iff_of_true rfl (.scalar plain equal)
  | value plain alike scalar unequal =>
      exact iff_of_false (List.cons_ne_nil _ _) fun accepted =>
        unequal (accepted.sameScalar plain scalar)
  | length different =>
      refine iff_of_false (List.cons_ne_nil _ _) fun accepted => ?_
      cases accepted with
      | scalar _ same => cases same
      | array aligned => exact different aligned
  | @object path expected actual inner absent _ ih =>
      rw [← unexpectedFindings_eq, differencesOf_append, List.append_eq_nil_iff,
        no_unexpected_iff, differencesOf_flatMap, List.flatMap_eq_nil_iff]
      constructor
      · rintro ⟨inside, expectedOnly⟩
        refine .object ?_ expectedOnly ?_
        · intro key member
          obtain ⟨⟨name, wanted⟩, included, same⟩ := List.mem_map.mp member
          cases same
          by_contra missing
          have none := inside (name, wanted) included
          rw [absent name wanted included (lookup_eq_none_iff_not_mem.mpr missing)] at none
          cases none
        · intro key wanted found included located
          exact (ih key wanted found included located).mp (inside (key, wanted) included)
      · intro accepted
        cases accepted with
        | scalar _ same => cases same
        | object present expectedOnly each =>
            refine ⟨?_, expectedOnly⟩
            rintro ⟨key, wanted⟩ included
            obtain ⟨found, located⟩ :=
              exists_lookup_of_mem (present key (List.mem_map_of_mem included))
            exact (ih key wanted found included located).mpr
              (each key wanted found included located)
  | @array path expected actual inner aligned _ ih =>
      rw [differencesOf_flatMap, List.flatMap_eq_nil_iff]
      constructor
      · intro inside
        refine .array aligned fun position wanted found wantedAt foundAt => ?_
        exact (ih position wanted found wantedAt foundAt).mp
          (inside position (mem_range_length_iff.mpr ⟨wanted, wantedAt⟩))
      · intro accepted position within
        obtain ⟨wanted, wantedAt⟩ := mem_range_length_iff.mp within
        obtain ⟨found, foundAt⟩ := exists_getElem?_of_aligned aligned wantedAt
        cases accepted with
        | scalar _ same => cases same
        | array _ each =>
            exact (ih position wanted found wantedAt foundAt).mpr
              (each position wanted found wantedAt foundAt)

theorem accepts_iff {mode : Mode} {path : Path} {expected : Template} {actual : Json} :
    differencesOf (findings mode path expected actual) = [] ↔ Accepts mode expected actual :=
  (reports_findings mode path expected actual).accepts_iff

theorem compare_iff_accepts {mode : Mode} {policy : CapturePolicy} {before : Comparison}
    {path : Path} {expected : Template} {actual : Json} :
    (compare mode policy before path expected actual).1 = true ↔ Accepts mode expected actual := by
  rw [compare_eq, List.isEmpty_iff, accepts_iff]

/-- Where nothing differs, every node of the template has a node to face. -/
theorem Accepts.facing {mode : Mode} {expected left : Template} {actual : Json} {place : Path}
    (accepted : Accepts mode expected actual) (leads : expected.at? place = some left) :
    ∃ right, Facing expected actual place left right := by
  induction place generalizing expected actual with
  | nil =>
      cases leads
      exact ⟨actual, .here⟩
  | cons step rest ih =>
      obtain ⟨child, below, further⟩ := Option.bind_eq_some_iff.mp leads
      rcases Tree.container_of_child? below with
        ⟨members, key, rfl, rfl, found⟩ | ⟨items, position, rfl, rfl, found⟩
      · cases accepted with
        | scalar _ same => cases same
        | object present _ each =>
            have included := mem_of_lookup_eq_some found
            obtain ⟨value, located⟩ :=
              exists_lookup_of_mem (present key (List.mem_map_of_mem included))
            obtain ⟨right, facing⟩ := ih (each key child value included located) further
            exact ⟨right, .member included located facing⟩
      · cases accepted with
        | scalar _ same => cases same
        | array aligned each =>
            obtain ⟨item, foundAt⟩ := exists_getElem?_of_aligned aligned found
            obtain ⟨right, facing⟩ := ih (each position child item found foundAt) further
            exact ⟨right, .item aligned found foundAt facing⟩

end JsonTemplate.Comparison
