import JsonTemplate.Proofs.Comparison.Captures
import JsonTemplate.Proofs.Comparison.SameValue
import Mathlib

set_option autoImplicit false

/-!
# Filling in templates

A template with a value for each of its captures is a document. A comparison finds no difference
exactly when some values make it a document that passes with every string standing for itself, and
what the comparison captured are such values.
-/

namespace JsonTemplate

namespace Template

/-- Values by place and name, seen from one step further down. -/
def inside (step : Segment) (assign : Path → Text → Json) : Path → Text → Json :=
  fun place => assign (step :: place)

mutual

/-- The document that a template becomes when each capture is given a value, by its place and
its name. -/
def fill (assign : Path → Text → Json) : Template → Json
  | .null => .null
  | .boolean value => .boolean value
  | .number value => .number value
  | .string (.capture name) => assign [] name
  | .string slot => .string slot.text
  | .array items => .array (fillItems assign 0 items)
  | .object members => .object (fillMembers assign members)

def fillItems (assign : Path → Text → Json) : Nat → List Template → List Json
  | _, [] => []
  | position, item :: rest =>
      fill (inside (.index position) assign) item ::
        fillItems assign (position + 1) rest

def fillMembers (assign : Path → Text → Json) : List (Text × Template) → List (Text × Json)
  | [] => []
  | (key, value) :: rest =>
      (key, fill (inside (.key key) assign) value) :: fillMembers assign rest

end

private theorem fill_array (assign : Path → Text → Json) (items : List Template) :
    fill assign (.array items) = .array (items.mapIdx fun position item =>
      fill (inside (.index position) assign) item) := by
  have shifted : ∀ position, fillItems assign position items = items.mapIdx fun offset item =>
      fill (inside (.index (position + offset : Nat)) assign) item := by
    induction items with
    | nil => intro position; rfl
    | cons item rest ih =>
        intro position
        rw [fillItems, ih, List.mapIdx_cons]
        simp only [Nat.add_zero, Nat.add_right_comm, Nat.add_assoc]
  rw [fill, shifted]
  simp only [Nat.zero_add]

private theorem fill_object (assign : Path → Text → Json) (members : List (Text × Template)) :
    fill assign (.object members) = .object (members.map fun member =>
      (member.1, fill (inside (.key member.1) assign) member.2)) := by
  rw [fill]
  congr 1
  induction members with
  | nil => rfl
  | cons member rest ih => rw [fillMembers, ih, List.map_cons]

/-! ## Filled templates with every string standing for itself -/

private theorem literal_fill_array (assign : Path → Text → Json) (items : List Template) :
    literal (fill assign (.array items)) = .array (items.mapIdx fun position item =>
      literal (fill (inside (.index position) assign) item)) := by
  rw [fill_array, literal_array]
  refine congrArg Tree.array (List.ext_getElem? fun position => ?_)
  rw [List.getElem?_map, List.getElem?_mapIdx, List.getElem?_mapIdx, Option.map_map]
  rfl

private theorem literal_fill_object (assign : Path → Text → Json)
    (members : List (Text × Template)) :
    literal (fill assign (.object members)) = .object (members.map fun member =>
      (member.1, literal (fill (inside (.key member.1) assign) member.2))) := by
  rw [fill_object, literal_object, List.map_map]
  rfl

end Template

namespace Comparison

/-- What a filled template accepts, the template accepts. -/
theorem accepts_of_fill {mode : Mode} {assign : Path → Text → Json} {expected : Template}
    {actual : Json} (accepted : Accepts mode (Template.literal (expected.fill assign)) actual) :
    Accepts mode expected actual := by
  induction expected using Tree.inductionOn generalizing assign actual with
  | null =>
      cases accepted with
      | scalar _ same => cases same; exact .scalar nofun .null
  | boolean value =>
      cases accepted with
      | scalar _ same => cases same; exact .scalar nofun .boolean
  | number value =>
      cases accepted with
      | scalar _ same => cases same with | number equal => exact .scalar nofun (.number equal)
  | string slot =>
      cases slot with
      | capture name => exact .capture
      | literal text =>
          cases accepted with
          | scalar _ same => cases same; exact .scalar nofun .string
      | call name =>
          cases accepted with
          | scalar _ same => cases same; exact .scalar nofun .string
  | array items ih =>
      rw [Template.literal_fill_array] at accepted
      cases accepted with
      | scalar _ same => cases same
      | array aligned each =>
          rw [List.length_mapIdx] at aligned
          refine .array aligned fun position wanted found wantedAt foundAt => ?_
          let filled := Template.fill (Template.inside (.index position) assign) wanted
          refine ih wanted (List.mem_of_getElem? wantedAt)
            (each position (Template.literal filled) found ?_ foundAt)
          rw [List.getElem?_mapIdx, wantedAt]
          rfl
  | object members ih =>
      rw [Template.literal_fill_object] at accepted
      cases accepted with
      | scalar _ same => cases same
      | object present expected each =>
          rw [map_fst_map] at present expected
          refine .object present expected fun key wanted found included located => ?_
          let filled := Template.fill (Template.inside (.key key) assign) wanted
          refine ih key wanted included (each key (Template.literal filled) found ?_ located)
          exact List.mem_map.mpr ⟨(key, wanted), included, rfl⟩

/-- A filled template accepts what the template accepts, if the values given to captures accept what
faces them. -/
theorem Accepts.fill {mode : Mode} {expected : Template} {actual : Json}
    (accepted : Accepts mode expected actual) {assign : Path → Text → Json}
    (values : ∀ place name value, Facing expected actual place (.string (.capture name)) value →
      Accepts mode (Template.literal (assign place name)) value) :
    Accepts mode (Template.literal (expected.fill assign)) actual := by
  induction accepted generalizing assign with
  | capture => exact values [] _ _ .here
  | scalar plain same =>
      cases same with
      | null => exact .scalar nofun .null
      | boolean => exact .scalar nofun .boolean
      | number equal => exact .scalar nofun (.number equal)
      | @string slot =>
          cases slot with
          | capture name => exact absurd ⟨name, rfl⟩ plain
          | literal text => exact .scalar nofun .string
          | call name => exact .scalar nofun .string
  | array aligned _ ih =>
      rw [Template.literal_fill_array]
      refine .array (by rwa [List.length_mapIdx]) fun position wanted found wantedAt foundAt => ?_
      rw [List.getElem?_mapIdx] at wantedAt
      obtain ⟨item, itemAt, rfl⟩ := Option.map_eq_some_iff.mp wantedAt
      refine ih position item found itemAt foundAt fun place name value facing => ?_
      exact values (.index position :: place) name value (.item aligned itemAt foundAt facing)
  | object present expected _ ih =>
      rw [Template.literal_fill_object]
      refine .object ?_ ?_ fun key wanted found included located => ?_
      · rwa [map_fst_map]
      · rwa [map_fst_map]
      · obtain ⟨⟨name, below⟩, member, same⟩ := List.mem_map.mp included
        cases same
        refine ih name below found member located fun place capture value facing => ?_
        exact values (.key name :: place) capture value (.member member located facing)

/-- Values for the captures of a template with which it passes, every string standing for
itself. -/
def Fills (mode : Mode) (policy : CapturePolicy) (expected : Template) (actual : Json)
    (assign : Path → Text → Json) : Prop :=
  (∀ place name, (place, name) ∈ expected.captureLeaves → (assign place name).DistinctKeys) ∧
    (compare mode policy .empty [] (Template.literal (expected.fill assign)) actual).1 = true

/-- The values that captures face fill them. -/
theorem fills_of_facing {mode : Mode} (policy : CapturePolicy) {expected : Template}
    {actual : Json} {assign : Path → Text → Json} (expectedKeys : expected.DistinctKeys)
    (actualKeys : actual.DistinctKeys) (accepted : Accepts mode expected actual)
    (same : ∀ place name value, Facing expected actual place (.string (.capture name)) value →
      assign place name = value) : Fills mode policy expected actual assign := by
  constructor
  · intro place name listed
    have leads := (Template.mem_captureLeaves_iff expectedKeys).mp listed
    obtain ⟨value, facing⟩ := accepted.facing leads
    rw [same place name value facing]
    exact actualKeys.at? facing.actual_at
  · rw [compare_iff_accepts]
    refine accepted.fill fun place name value facing => ?_
    rw [same place name value facing]
    exact accepts_of_sameValue mode (actualKeys.at? facing.actual_at) (.refl value)

/-- A document meets a template exactly when it meets the template with some values filled in.
Where no name is captured twice, the captured values are such values, and in exact mode the filled
template is equal to the document by value. -/
theorem passes_iff_fills (mode : Mode) (policy : CapturePolicy) {expected : Template}
    {actual : Json} (expectedKeys : expected.DistinctKeys) (actualKeys : actual.DistinctKeys) :
    ((compare mode policy .empty [] expected actual).1 = true ↔
      ∃ assign, Fills mode policy expected actual assign) ∧
    ((compare mode policy .empty [] expected actual).1 = true →
      (expected.captureLeaves.map Prod.snd).Nodup →
      ∃ values : Text → Json,
        (∀ place name, (place, name) ∈ expected.captureLeaves →
          (compare mode policy .empty [] expected actual).2.captures.get? name =
            some (values name)) ∧
        Fills mode policy expected actual (fun _ name => values name) ∧
        (mode = .exact → SameValue (expected.fill fun _ name => values name) actual)) := by
  refine ⟨⟨?_, ?_⟩, ?_⟩
  · rw [compare_iff_accepts]
    intro accepted
    -- A name may occur twice and take different values, so the values go by place.
    refine ⟨fun place _ => (actual.at? place).getD .null,
      fills_of_facing policy expectedKeys actualKeys accepted fun place name value facing => ?_⟩
    rw [facing.actual_at]
    rfl
  · rintro ⟨assign, _, filled⟩
    rw [compare_iff_accepts] at filled ⊢
    exact accepts_of_fill filled
  · rw [compare_iff_accepts]
    intro accepted once
    let captures := (compare mode policy .empty [] expected actual).2.captures
    let values : Text → Json := fun name => (captures.get? name).getD .null
    have captured : ∀ place name value,
        Facing expected actual place (.string (.capture name)) value →
        captures.get? name = some value := fun place name value facing =>
      captured_of_facing mode policy expectedKeys once facing
    have faced : ∀ place name value,
        Facing expected actual place (.string (.capture name)) value → values name = value := by
      intro place name value facing
      simp only [values, captured place name value facing, Option.getD_some]
    have fills := fills_of_facing policy expectedKeys actualKeys accepted faced
    refine ⟨values, ?_, fills, ?_⟩
    · intro place name listed
      have leads := (Template.mem_captureLeaves_iff expectedKeys).mp listed
      obtain ⟨value, facing⟩ := accepted.facing leads
      rw [faced place name value facing]
      exact captured place name value facing
    · rintro rfl
      exact sameValue_of_accepts (compare_iff_accepts.mp fills.2)

/-- One of the captured values is a text that looks like a capture itself. -/
theorem passes_iff_fills_with_capture_text :
    let expected : Template := .object
      [(lit "a", .string (.capture (lit "X"))),
        (lit "b", .array [.string (.literal (lit "x")), .string (.capture (lit "Y"))])]
    let actual : Json := .object
      [(lit "b", .array [.string (lit "x"), .object [(lit "c", .null)]]),
        (lit "a", .string (lit "[[Y]]"))]
    expected.DistinctKeys ∧ actual.DistinctKeys ∧
      (compare .exact .first .empty [] expected actual).1 = true ∧
      (expected.captureLeaves.map Prod.snd).Nodup ∧
      ∃ values : Text → Json, values (lit "X") = .string (lit "[[Y]]") ∧
        values (lit "Y") = .object [(lit "c", .null)] ∧
        SameValue (expected.fill fun _ name => values name) actual := by
  intro expected actual
  have expectedKeys : expected.DistinctKeys := by
    simp [expected, Bindings.Distinct, lit]
  have actualKeys : actual.DistinctKeys := by
    simp [actual, Bindings.Distinct, lit]
  have passed : (compare .exact .first .empty [] expected actual).1 = true := by
    rw [compare_empty]
    cbv
  have once : (expected.captureLeaves.map Prod.snd).Nodup := by decide
  obtain ⟨values, captured, _, same⟩ :=
    (passes_iff_fills .exact .first expectedKeys actualKeys).2 passed once
  refine ⟨expectedKeys, actualKeys, passed, once, values, ?_, ?_, same rfl⟩
  · have bound := captured [.key (lit "a")] (lit "X") (by decide)
    rw [compare_empty] at bound
    exact (Option.some.inj bound).symm
  · have bound := captured [.key (lit "b"), .index 1] (lit "Y") (by decide)
    rw [compare_empty] at bound
    exact (Option.some.inj bound).symm

end Comparison

end JsonTemplate
