import JsonTemplate.Proofs.Comparison.Accepts
import JsonTemplate.Proofs.Json.Readable

set_option autoImplicit false

/-!
# Equality by value

What it means for two documents to be equal by value, and that a template in which every
string stands for itself has no findings in exact mode exactly when they are.
-/

namespace JsonTemplate

/-- Documents that are equal by value. The order of an object's keys does not count. -/
inductive SameValue : Json → Json → Prop where
  | null : SameValue .null .null
  | boolean {value : Bool} : SameValue (.boolean value) (.boolean value)
  | number {left right : Number} :
      left.toRat = right.toRat → SameValue (.number left) (.number right)
  | string {text : Text} : SameValue (.string text) (.string text)
  | array {left right : List Json} :
      left.length = right.length →
      (∀ (position : Nat) first second, left[position]? = some first →
        right[position]? = some second → SameValue first second) →
      SameValue (.array left) (.array right)
  | object {left right : List (Text × Json)} :
      (∀ key, key ∈ left.map Prod.fst ↔ key ∈ right.map Prod.fst) →
      (∀ key first second, left.lookup key = some first → right.lookup key = some second →
        SameValue first second) →
      SameValue (.object left) (.object right)

theorem SameValue.refl (value : Json) : SameValue value value := by
  induction value using Tree.inductionOn with
  | null => exact .null
  | boolean => exact .boolean
  | number => exact .number rfl
  | string => exact .string
  | array items ih =>
      refine .array rfl fun position first second left right => ?_
      rw [left] at right
      cases right
      exact ih first (List.mem_of_getElem? left)
  | object members ih =>
      refine .object (fun _ => Iff.rfl) fun key first second left right => ?_
      rw [left] at right
      cases right
      exact ih key first (mem_of_lookup_eq_some left)

theorem SameValue.symm {left right : Json} (same : SameValue left right) : SameValue right left := by
  induction same with
  | null => exact .null
  | boolean => exact .boolean
  | number equal => exact .number equal.symm
  | string => exact .string
  | array aligned _ ih =>
      exact .array aligned.symm fun position first second left right =>
        ih position second first right left
  | object keys _ ih =>
      exact .object (fun key => (keys key).symm) fun key first second left right =>
        ih key second first right left

theorem SameValue.trans {left middle right : Json} (first : SameValue left middle)
    (second : SameValue middle right) : SameValue left right := by
  induction first generalizing right with
  | null => exact second
  | boolean => exact second
  | number equal =>
      cases second with
      | number further => exact .number (equal.trans further)
  | string => exact second
  | @array left middle aligned _ ih =>
      cases second with
      | array further inside =>
          refine .array (aligned.trans further) fun position one other oneAt otherAt => ?_
          obtain ⟨item, middleAt⟩ := exists_getElem?_of_aligned aligned oneAt
          exact ih position one item oneAt middleAt (inside position item other middleAt otherAt)
  | object keys _ ih =>
      cases second with
      | object further inside =>
          refine .object (fun key => (keys key).trans (further key)) ?_
          intro key one other oneAt otherAt
          have present := (keys key).mp (List.mem_map_of_mem (mem_of_lookup_eq_some oneAt))
          obtain ⟨value, middleAt⟩ := exists_lookup_of_mem present
          exact ih key one value oneAt middleAt (inside key value other middleAt otherAt)

/-! ## Templates in which every string stands for itself -/

theorem Template.literal_array (items : List Json) :
    literal (.array items) = .array (items.map literal) :=
  Tree.map_array Slot.literal items

theorem Template.literal_object (members : List (Text × Json)) :
    literal (.object members) = .object (members.map fun member => (member.1, literal member.2)) :=
  Tree.map_object Slot.literal members

theorem Template.literal_leaf {document : Json} {slot : Slot}
    (leaf : (literal document).Leaf slot) : ∃ text, slot = .literal text := by
  obtain ⟨text, _, rfl⟩ := leaf.of_map
  exact ⟨text, rfl⟩

namespace Comparison

theorem differencesOf_eq_nil_iff {found : List Finding} (nothing : capturesOf found = []) :
    differencesOf found = [] ↔ found = [] := by
  cases found with
  | nil => exact iff_of_true rfl rfl
  | cons first rest =>
      cases first with
      | difference difference => exact iff_of_false (List.cons_ne_nil _ _) (List.cons_ne_nil _ _)
      | capture name value => cases nothing

theorem capturesOf_literal (mode : Mode) (path : Path) (wanted found : Json) :
    capturesOf (findings mode path (Template.literal wanted) found) = [] := by
  rw [List.eq_nil_iff_forall_not_mem]
  intro ⟨name, value⟩ captured
  obtain ⟨place, facing⟩ := mem_captures_iff.mp captured
  obtain ⟨text, same⟩ := Template.literal_leaf facing.leaf
  cases same

theorem literal_not_capture (wanted : Json) : ¬ (Template.literal wanted).IsCapture := by
  rintro ⟨name, same⟩
  cases wanted <;> cases same

private theorem findings_literal_eq_nil_iff {mode : Mode} {path : Path} {wanted found : Json} :
    findings mode path (Template.literal wanted) found = [] ↔
      Accepts mode (Template.literal wanted) found := by
  rw [← differencesOf_eq_nil_iff (capturesOf_literal mode path wanted found), accepts_iff]

/-! ## What a template of a document accepts -/

theorem accepts_literal_array_iff {mode : Mode} {items : List Json} {found : Json} :
    Accepts mode (Template.literal (.array items)) found ↔
      ∃ others, found = .array others ∧ items.length = others.length ∧
        ∀ (position : Nat) wanted value, items[position]? = some wanted →
          others[position]? = some value → Accepts mode (Template.literal wanted) value := by
  rw [Template.literal_array]
  constructor
  · intro accepted
    cases accepted with
    | scalar _ same => cases same
    | @array _ others aligned each =>
        refine ⟨others, rfl, by rwa [List.length_map] at aligned, ?_⟩
        intro position wanted value wantedAt valueAt
        refine each position _ value ?_ valueAt
        rw [List.getElem?_map, wantedAt]
        rfl
  · intro ⟨others, same, aligned, each⟩
    subst same
    refine .array (by rwa [List.length_map]) fun position wanted value wantedAt valueAt => ?_
    rw [List.getElem?_map] at wantedAt
    obtain ⟨item, located, rfl⟩ := Option.map_eq_some_iff.mp wantedAt
    exact each position item value located valueAt

theorem accepts_literal_object_iff {mode : Mode} {members : List (Text × Json)} {found : Json} :
    Accepts mode (Template.literal (.object members)) found ↔
      ∃ others, found = .object others ∧
        (∀ key ∈ members.map Prod.fst, key ∈ others.map Prod.fst) ∧
        (mode = .exact → ∀ key ∈ others.map Prod.fst, key ∈ members.map Prod.fst) ∧
        ∀ key wanted value, (key, wanted) ∈ members → others.lookup key = some value →
          Accepts mode (Template.literal wanted) value := by
  rw [Template.literal_object]
  constructor
  · intro accepted
    cases accepted with
    | scalar _ same => cases same
    | @object _ others present expected each =>
        rw [map_fst_map] at present expected
        refine ⟨others, rfl, present, expected, ?_⟩
        intro key wanted value included located
        exact each key _ value (List.mem_map.mpr ⟨(key, wanted), included, rfl⟩) located
  · intro ⟨others, same, present, expected, each⟩
    subst same
    apply Accepts.object
    · rwa [map_fst_map]
    · rwa [map_fst_map]
    · intro key wanted value included located
      obtain ⟨member, inside, same⟩ := List.mem_map.mp included
      cases same
      exact each member.1 member.2 value inside located

theorem SameScalar.sameValue {wanted found : Json}
    (same : SameScalar (Template.literal wanted) found) : SameValue wanted found := by
  cases wanted with
  | null => cases same; exact .null
  | boolean => cases same; exact .boolean
  | number => cases same with | number equal => exact .number equal
  | string => cases same; exact .string
  | array => cases same
  | object => cases same

/-- Where values are the same nothing differs, in either mode. -/
theorem accepts_of_sameValue (mode : Mode) {wanted found : Json} (distinct : wanted.DistinctKeys)
    (same : SameValue wanted found) : Accepts mode (Template.literal wanted) found := by
  induction same with
  | null => exact .scalar (literal_not_capture _) .null
  | boolean => exact .scalar (literal_not_capture _) .boolean
  | number equal => exact .scalar (literal_not_capture _) (.number equal)
  | string => exact .scalar (literal_not_capture _) .string
  | @array items others aligned _ ih =>
      have each := Tree.distinctKeys_array.mp distinct
      refine accepts_literal_array_iff.mpr ⟨others, rfl, aligned, ?_⟩
      intro position item found itemAt foundAt
      exact ih position item found itemAt foundAt (each item (List.mem_of_getElem? itemAt))
  | @object members others keys _ ih =>
      obtain ⟨names, each⟩ := Tree.distinctKeys_object.mp distinct
      refine accepts_literal_object_iff.mpr
        ⟨others, rfl, fun key => (keys key).mp, fun _ key => (keys key).mpr, ?_⟩
      intro key wanted found included located
      exact ih key wanted found (names.lookup_iff.mpr included) located (each _ included)

/-- In exact mode nothing differs only where values are the same. -/
theorem sameValue_of_accepts {wanted found : Json}
    (accepted : Accepts .exact (Template.literal wanted) found) : SameValue wanted found := by
  induction wanted using Tree.inductionOn generalizing found with
  | array items ih =>
      obtain ⟨others, rfl, aligned, each⟩ := accepts_literal_array_iff.mp accepted
      refine .array aligned fun position wanted found wantedAt foundAt => ?_
      exact ih wanted (List.mem_of_getElem? wantedAt) (each position _ found wantedAt foundAt)
  | object members ih =>
      obtain ⟨others, rfl, present, expected, each⟩ := accepts_literal_object_iff.mp accepted
      refine .object (fun key => ⟨present key, expected rfl key⟩) ?_
      intro key wanted found wantedAt foundAt
      have included := mem_of_lookup_eq_some wantedAt
      exact ih key wanted included (each key _ found included foundAt)
  | _ => exact (accepted.sameScalar (literal_not_capture _) ⟨nofun, nofun⟩).sameValue

theorem findings_of_sameValue (mode : Mode) {depth : Nat} (path : Path) {wanted found : Json}
    (readable : Json.Readable depth wanted) (same : SameValue wanted found) :
    findings mode path (Template.literal wanted) found = [] :=
  findings_literal_eq_nil_iff.mpr (accepts_of_sameValue mode readable.distinctKeys same)

theorem findings_eq_nil_iff_sameValue {depth : Nat} {path : Path} {wanted found : Json}
    (readable : Json.Readable depth wanted) :
    findings .exact path (Template.literal wanted) found = [] ↔ SameValue wanted found :=
  ⟨fun nothing => sameValue_of_accepts (findings_literal_eq_nil_iff.mp nothing),
    findings_of_sameValue .exact path readable⟩

theorem sameValue_of_findings {depth : Nat} {path : Path} {wanted found : Json}
    (readable : Json.Readable depth wanted)
    (nothing : findings .exact path (Template.literal wanted) found = []) :
    SameValue wanted found :=
  (findings_eq_nil_iff_sameValue readable).mp nothing

end Comparison

end JsonTemplate
