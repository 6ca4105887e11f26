import JsonTemplate.Proofs.Comparison.Worklist
import JsonTemplate.Proofs.Place

set_option autoImplicit false

/-!
# What faces what

A comparison goes down both trees at once. `Facing` says which node of the template it sets
against which node of the document, and `Own` what such a pair reports by itself. A comparison
finds exactly what the pairs that face each other report, and a place of the template is
reached when both trees go on alike above it.
-/

namespace JsonTemplate

namespace Comparison

/-- The pairs of nodes that a comparison comes to, and the way to them. -/
inductive Facing : Template → Json → Path → Template → Json → Prop where
  | here {expected : Template} {actual : Json} : Facing expected actual [] expected actual
  | member {expected : List (Text × Template)} {actual : List (Text × Json)} {key : Text}
      {wanted left : Template} {found right : Json} {place : Path} :
      (key, wanted) ∈ expected → actual.lookup key = some found →
      Facing wanted found place left right →
      Facing (.object expected) (.object actual) (.key key :: place) left right
  | item {expected : List Template} {actual : List Json} {position : Nat}
      {wanted left : Template} {found right : Json} {place : Path} :
      expected.length = actual.length → expected[position]? = some wanted →
      actual[position]? = some found → Facing wanted found place left right →
      Facing (.array expected) (.array actual) (.index position :: place) left right

/-- What two nodes report by themselves, seen from their place. -/
inductive Own (mode : Mode) : Template → Json → Finding → Prop where
  | capture {name : Text} {actual : Json} :
      Own mode (.string (.capture name)) actual (.capture name actual)
  | kind {expected : Template} {actual : Json} :
      ¬ expected.IsCapture → expected.kind ≠ actual.kind →
      Own mode expected actual (.difference ⟨[], .kind expected.toJson actual⟩)
  | value {expected : Template} {actual : Json} :
      ¬ expected.IsCapture → expected.kind = actual.kind → expected.kind.IsScalar →
      ¬ SameScalar expected actual →
      Own mode expected actual (.difference ⟨[], .value expected.toJson actual⟩)
  | missing {expected : List (Text × Template)} {actual : List (Text × Json)} {key : Text}
      {wanted : Template} :
      (key, wanted) ∈ expected → actual.lookup key = none →
      Own mode (.object expected) (.object actual)
        (.difference ⟨[.key key], .missing wanted.toJson⟩)
  | unexpected {expected : List (Text × Template)} {actual : List (Text × Json)} {key : Text}
      {found : Json} :
      mode = .exact → (key, found) ∈ actual → key ∉ expected.map Prod.fst →
      Own mode (.object expected) (.object actual) (.difference ⟨[.key key], .unexpected found⟩)
  | length {expected : List Template} {actual : List Json} :
      expected.length ≠ actual.length →
      Own mode (.array expected) (.array actual)
        (.difference ⟨[], .length expected.length actual.length⟩)

/-! ## Findings are what facing nodes report -/

private theorem Facing.eq_here {expected left : Template} {actual right : Json} {place : Path}
    (facing : Facing expected actual place left right)
    (leaf : expected.kind.IsScalar ∨ expected.kind ≠ actual.kind) :
    place = [] ∧ left = expected ∧ right = actual := by
  obtain ⟨noArrays, noObjects⟩ := kind_ne_of_not_scalar leaf
  cases facing with
  | here => exact ⟨rfl, rfl, rfl⟩
  | member => exact absurd ⟨rfl, rfl⟩ noObjects
  | item => exact absurd ⟨rfl, rfl⟩ noArrays

private theorem scalar_capture (name : Text) : (Tree.string (Slot.capture name)).kind.IsScalar :=
  ⟨nofun, nofun⟩

private theorem own_capture_iff {mode : Mode} {name : Text} {actual : Json} {own : Finding} :
    Own mode (.string (.capture name)) actual own ↔ own = .capture name actual := by
  constructor
  · intro owned
    cases owned with
    | capture => rfl
    | kind plain => exact absurd ⟨name, rfl⟩ plain
    | value plain => exact absurd ⟨name, rfl⟩ plain
  · rintro rfl
    exact .capture

private theorem own_kind_iff {mode : Mode} {expected : Template} {actual : Json} {own : Finding}
    (plain : ¬ expected.IsCapture) (different : expected.kind ≠ actual.kind) :
    Own mode expected actual own ↔ own = .difference ⟨[], .kind expected.toJson actual⟩ := by
  constructor
  · intro owned
    cases owned with
    | capture => exact absurd ⟨_, rfl⟩ plain
    | kind => rfl
    | value _ alike => exact absurd alike different
    | missing => exact absurd rfl different
    | unexpected => exact absurd rfl different
    | length => exact absurd rfl different
  · rintro rfl
    exact .kind plain different

private theorem own_scalar_iff {mode : Mode} {expected : Template} {actual : Json} {own : Finding}
    (plain : ¬ expected.IsCapture) (alike : expected.kind = actual.kind)
    (scalar : expected.kind.IsScalar) :
    Own mode expected actual own ↔
      ¬ SameScalar expected actual ∧ own = .difference ⟨[], .value expected.toJson actual⟩ := by
  constructor
  · intro owned
    cases owned with
    | capture => exact absurd ⟨_, rfl⟩ plain
    | kind _ different => exact absurd alike different
    | value _ _ _ unequal => exact ⟨unequal, rfl⟩
    | missing => exact absurd rfl scalar.2
    | unexpected => exact absurd rfl scalar.2
    | length => exact absurd rfl scalar.1
  · rintro ⟨unequal, rfl⟩
    exact .value plain alike scalar unequal

private theorem own_array_iff {mode : Mode} {expected : List Template} {actual : List Json}
    {own : Finding} :
    Own mode (.array expected) (.array actual) own ↔ expected.length ≠ actual.length ∧
      own = .difference ⟨[], .length expected.length actual.length⟩ := by
  constructor
  · intro owned
    cases owned with
    | kind _ different => exact absurd rfl different
    | value _ _ scalar => exact absurd rfl scalar.1
    | length different => exact ⟨different, rfl⟩
  · rintro ⟨different, rfl⟩
    exact .length different

private theorem own_object_iff {mode : Mode} {path : Path} {expected : List (Text × Template)}
    {actual : List (Text × Json)} {finding : Finding} :
    (∃ own, Own mode (.object expected) (.object actual) own ∧ finding = own.under path) ↔
      (∃ key wanted, (key, wanted) ∈ expected ∧ actual.lookup key = none ∧
        finding = .difference ⟨path ++ [.key key], .missing wanted.toJson⟩) ∨
      mode = .exact ∧ ∃ key found, (key, found) ∈ actual ∧ key ∉ expected.map Prod.fst ∧
        finding = .difference ⟨path ++ [.key key], .unexpected found⟩ := by
  constructor
  · rintro ⟨own, owned, rfl⟩
    cases owned with
    | kind _ different => exact absurd rfl different
    | value _ _ scalar => exact absurd rfl scalar.2
    | missing included located => exact .inl ⟨_, _, included, located, rfl⟩
    | unexpected exactly included absent => exact .inr ⟨exactly, _, _, included, absent, rfl⟩
  · rintro (⟨key, wanted, included, located, rfl⟩ | ⟨exactly, key, found, included, absent, rfl⟩)
    · exact ⟨_, .missing included located, rfl⟩
    · exact ⟨_, .unexpected exactly included absent, rfl⟩

/-- What nodes that face each other report, seen from the root of `path`. -/
def Told (mode : Mode) (path : Path) (expected : Template) (actual : Json)
    (finding : Finding) : Prop :=
  ∃ place left right own, Facing expected actual place left right ∧ Own mode left right own ∧
    finding = own.under (path ++ place)

private theorem Told.of_own {mode : Mode} {path : Path} {expected : Template} {actual : Json}
    {own : Finding} (owned : Own mode expected actual own) :
    Told mode path expected actual (own.under path) :=
  ⟨[], expected, actual, own, .here, owned, by rw [List.append_nil]⟩

/-- A pair with nothing below it reports what it reports by itself. -/
theorem told_leaf_iff {mode : Mode} {path : Path} {expected : Template} {actual : Json}
    {finding : Finding} (leaf : expected.kind.IsScalar ∨ expected.kind ≠ actual.kind) :
    Told mode path expected actual finding ↔
      ∃ own, Own mode expected actual own ∧ finding = own.under path := by
  constructor
  · rintro ⟨place, left, right, own, facing, owned, rfl⟩
    obtain ⟨rfl, rfl, rfl⟩ := facing.eq_here leaf
    exact ⟨own, owned, by rw [List.append_nil]⟩
  · rintro ⟨own, owned, rfl⟩
    exact .of_own owned

private theorem told_object_iff {mode : Mode} {path : Path} {expected : List (Text × Template)}
    {actual : List (Text × Json)} {finding : Finding} :
    Told mode path (.object expected) (.object actual) finding ↔
      (∃ own, Own mode (.object expected) (.object actual) own ∧ finding = own.under path) ∨
      ∃ key wanted found, (key, wanted) ∈ expected ∧ actual.lookup key = some found ∧
        Told mode (path ++ [.key key]) wanted found finding := by
  constructor
  · rintro ⟨place, left, right, own, facing, owned, rfl⟩
    cases facing with
    | here => exact .inl ⟨own, owned, by rw [List.append_nil]⟩
    | member included located facing =>
        exact .inr ⟨_, _, _, included, located, _, left, right, own, facing, owned,
          by rw [List.append_assoc]; rfl⟩
  · rintro (⟨own, owned, rfl⟩ | ⟨key, wanted, found, included, located, inside⟩)
    · exact .of_own owned
    · obtain ⟨place, left, right, own, facing, owned, rfl⟩ := inside
      exact ⟨.key key :: place, left, right, own, .member included located facing, owned,
        by rw [List.append_assoc]; rfl⟩

private theorem told_array_iff {mode : Mode} {path : Path} {expected : List Template}
    {actual : List Json} {finding : Finding} (aligned : expected.length = actual.length) :
    Told mode path (.array expected) (.array actual) finding ↔
      ∃ (position : Nat) (wanted : Template) (found : Json), expected[position]? = some wanted ∧
        actual[position]? = some found ∧
        Told mode (path ++ [.index position]) wanted found finding := by
  constructor
  · rintro ⟨place, left, right, own, facing, owned, rfl⟩
    cases facing with
    | here => exact absurd aligned (own_array_iff.mp owned).1
    | item _ wantedAt foundAt facing =>
        exact ⟨_, _, _, wantedAt, foundAt, _, left, right, own, facing, owned,
          by rw [List.append_assoc]; rfl⟩
  · rintro ⟨position, wanted, found, wantedAt, foundAt, inside⟩
    obtain ⟨place, left, right, own, facing, owned, rfl⟩ := inside
    exact ⟨.index position :: place, left, right, own, .item aligned wantedAt foundAt facing, owned,
      by rw [List.append_assoc]; rfl⟩

private theorem told_length_iff {mode : Mode} {path : Path} {expected : List Template}
    {actual : List Json} {finding : Finding} (different : expected.length ≠ actual.length) :
    Told mode path (.array expected) (.array actual) finding ↔
      finding = .difference ⟨path, .length expected.length actual.length⟩ := by
  constructor
  · rintro ⟨place, left, right, own, facing, owned, rfl⟩
    cases facing with
    | here =>
        obtain ⟨_, rfl⟩ := own_array_iff.mp owned
        simp [Finding.under]
    | item aligned => exact absurd aligned different
  · rintro rfl
    exact ⟨[], _, _, _, .here, .length different, by simp [Finding.under]⟩

/-- What the members of an object report: that they are missing, or what is told below them. -/
theorem mem_members_iff {mode : Mode} {path : Path} {expected : List (Text × Template)}
    {actual : List (Text × Json)} {inner : Text × Template → List Finding} {finding : Finding}
    (absent : ∀ key wanted, (key, wanted) ∈ expected → actual.lookup key = none →
      inner (key, wanted) = [.difference ⟨path ++ [.key key], .missing wanted.toJson⟩])
    (present : ∀ key wanted found, (key, wanted) ∈ expected → actual.lookup key = some found →
      (finding ∈ inner (key, wanted) ↔ Told mode (path ++ [.key key]) wanted found finding)) :
    finding ∈ expected.flatMap inner ↔
      (∃ key wanted, (key, wanted) ∈ expected ∧ actual.lookup key = none ∧
        finding = .difference ⟨path ++ [.key key], .missing wanted.toJson⟩) ∨
      ∃ key wanted found, (key, wanted) ∈ expected ∧ actual.lookup key = some found ∧
        Told mode (path ++ [.key key]) wanted found finding := by
  rw [List.mem_flatMap]
  constructor
  · rintro ⟨⟨key, wanted⟩, included, inside⟩
    cases located : actual.lookup key with
    | none =>
        rw [absent key wanted included located, List.mem_singleton] at inside
        exact .inl ⟨key, wanted, included, located, inside⟩
    | some found =>
        exact .inr ⟨key, wanted, found, included, located,
          (present key wanted found included located).mp inside⟩
  · rintro (⟨key, wanted, included, located, same⟩ | ⟨key, wanted, found, included, located, told⟩)
    · refine ⟨(key, wanted), included, ?_⟩
      rw [absent key wanted included located, List.mem_singleton, same]
    · exact ⟨(key, wanted), included, (present key wanted found included located).mpr told⟩

theorem Reports.mem_iff {mode : Mode} {path : Path} {expected : Template} {actual : Json}
    {found : List Finding} (reported : Reports mode path expected actual found)
    (finding : Finding) : finding ∈ found ↔ Told mode path expected actual finding := by
  induction reported with
  | @capture path name actual =>
      rw [told_leaf_iff (.inl (scalar_capture name)), List.mem_singleton]
      simp only [own_capture_iff, exists_eq_left, Finding.under]
  | kind plain different =>
      rw [told_leaf_iff (.inr different), List.mem_singleton]
      simp only [own_kind_iff plain different, exists_eq_left, Finding.under, List.append_nil]
  | same plain equal =>
      rw [told_leaf_iff (.inl equal.isScalar)]
      simp [own_scalar_iff plain equal.kind_eq equal.isScalar, equal]
  | value plain alike scalar unequal =>
      rw [told_leaf_iff (.inl scalar), List.mem_singleton]
      simp [own_scalar_iff plain alike scalar, unequal, Finding.under]
  | @object path expected actual inner absent _ ih =>
      rw [← unexpectedFindings_eq, List.mem_append, mem_members_iff absent ih,
        mem_unexpectedFindings_iff, told_object_iff, own_object_iff, or_right_comm]
  | length different => rw [List.mem_singleton, told_length_iff different]
  | @array path expected actual inner aligned _ ih =>
      rw [List.mem_flatMap, told_array_iff aligned]
      constructor
      · rintro ⟨position, within, inside⟩
        obtain ⟨wanted, wantedAt⟩ := mem_range_length_iff.mp within
        obtain ⟨found, foundAt⟩ := exists_getElem?_of_aligned aligned wantedAt
        exact ⟨position, wanted, found, wantedAt, foundAt,
          (ih position wanted found wantedAt foundAt).mp inside⟩
      · rintro ⟨position, wanted, found, wantedAt, foundAt, told⟩
        exact ⟨position, mem_range_length_iff.mpr ⟨wanted, wantedAt⟩,
          (ih position wanted found wantedAt foundAt).mpr told⟩

/-- A comparison finds what the nodes that face each other report. -/
theorem mem_findings_iff {mode : Mode} {path : Path} {expected : Template} {actual : Json}
    {finding : Finding} :
    finding ∈ findings mode path expected actual ↔
      ∃ place left right own, Facing expected actual place left right ∧ Own mode left right own ∧
        finding = own.under (path ++ place) :=
  (reports_findings mode path expected actual).mem_iff finding

/-- What is found from the root is what nodes that face each other report, seen from there. -/
theorem mem_differences_iff {mode : Mode} {expected : Template} {actual : Json}
    {difference : Difference} :
    difference ∈ differencesOf (findings mode [] expected actual) ↔
      ∃ place left right own, Facing expected actual place left right ∧
        Own mode left right (.difference own) ∧
        difference = ⟨place ++ own.path, own.mismatch⟩ := by
  rw [mem_differencesOf, mem_findings_iff]
  constructor
  · intro ⟨place, left, right, own, facing, owned, same⟩
    cases own with
    | capture => cases same
    | difference own => exact ⟨place, left, right, own, facing, owned, Finding.difference.inj same⟩
  · intro ⟨place, left, right, own, facing, owned, same⟩
    exact ⟨place, left, right, .difference own, facing, owned, congrArg _ same⟩

/-- The captures found are the values that face capture leaves. -/
theorem mem_captures_iff {mode : Mode} {path : Path} {expected : Template} {actual value : Json}
    {name : Text} :
    (name, value) ∈ capturesOf (findings mode path expected actual) ↔
      ∃ place, Facing expected actual place (.string (.capture name)) value := by
  rw [mem_capturesOf, mem_findings_iff]
  constructor
  · intro ⟨place, left, right, own, facing, owned, same⟩
    cases owned with
    | capture =>
        cases same
        exact ⟨place, facing⟩
    | _ => cases same
  · intro ⟨place, facing⟩
    exact ⟨place, _, _, _, facing, .capture, rfl⟩

/-! ## Where the nodes stand -/

theorem Facing.actual_at {expected left : Template} {actual right : Json} {place : Path}
    (facing : Facing expected actual place left right) : actual.at? place = some right := by
  induction facing with
  | here => rfl
  | member _ located _ ih => rw [Tree.at?_cons, Tree.child?_key, located, Option.bind_some, ih]
  | item _ _ foundAt _ ih => rw [Tree.at?_cons, Tree.child?_index, foundAt, Option.bind_some, ih]

theorem Facing.expected_at {expected left : Template} {actual right : Json} {place : Path}
    (distinct : expected.DistinctKeys) (facing : Facing expected actual place left right) :
    expected.at? place = some left := by
  induction facing with
  | here => rfl
  | member included _ _ ih =>
      cases distinct with
      | object keys each =>
          rw [Tree.at?_cons, Tree.child?_key, keys.lookup_iff.mpr included, Option.bind_some,
            ih (each _ _ included)]
  | item _ wantedAt _ _ ih =>
      cases distinct with
      | array each =>
          rw [Tree.at?_cons, Tree.child?_index, wantedAt, Option.bind_some,
            ih (each _ (List.mem_of_getElem? wantedAt))]

theorem Facing.leaf {expected : Template} {actual right : Json} {place : Path} {slot : Slot}
    (facing : Facing expected actual place (.string slot) right) : expected.Leaf slot := by
  generalize string : Tree.string slot = left at facing
  induction facing with
  | here =>
      subst string
      exact .string
  | member included _ _ ih => exact .member included (ih string)
  | item _ wantedAt _ _ ih => exact .item (List.mem_of_getElem? wantedAt) (ih string)

/-! ## Places that are reached -/

/-- Both trees go on with a step behind a place: from two objects, of which the actual one has
the key, or from two arrays of one length. -/
def goesOn (expected : Template) (actual : Json) (place : Path) (step : Segment) : Bool :=
  match expected.at? place, actual.at? place, step with
  | some (.object _), some (.object found), .key key => (found.lookup key).isSome
  | some (.array wanted), some (.array found), _ => wanted.length = found.length
  | _, _, _ => false

def Reachable (expected : Template) (actual : Json) (place : Path) : Prop :=
  ∀ (depth : Nat) (above : depth < place.length),
    goesOn expected actual (place.take depth) place[depth] = true

instance (expected : Template) (actual : Json) (place : Path) :
    Decidable (Reachable expected actual place) :=
  inferInstanceAs (Decidable (∀ (depth : Nat) (above : depth < place.length),
    goesOn expected actual (place.take depth) place[depth] = true))

theorem reachable_nil (expected : Template) (actual : Json) : Reachable expected actual [] := nofun

theorem reachable_cons_iff {expected wanted : Template} {actual found : Json} {step : Segment}
    {place : Path} (left : expected.child? step = some wanted)
    (right : actual.child? step = some found) :
    Reachable expected actual (step :: place) ↔
      goesOn expected actual [] step = true ∧ Reachable wanted found place := by
  have below : ∀ depth (above : depth < place.length),
      goesOn expected actual (step :: place.take depth) place[depth] =
        goesOn wanted found (place.take depth) place[depth] := by
    intro depth above
    simp only [goesOn, Tree.at?_cons, left, right, Option.bind_some]
  constructor
  · intro reachable
    refine ⟨reachable 0 (Nat.zero_lt_succ _), fun depth above => ?_⟩
    rw [← below depth above]
    exact reachable (depth + 1) (Nat.succ_lt_succ above)
  · rintro ⟨first, further⟩ depth above
    cases depth with
    | zero => exact first
    | succ depth =>
        have within : depth < place.length := Nat.lt_of_succ_lt_succ above
        exact (below depth within).trans (further depth within)

theorem goesOn_root {expected : Template} {actual : Json} {step : Segment}
    (on : goesOn expected actual [] step = true) :
    (∃ wanted found key value, expected = .object wanted ∧ actual = .object found ∧
      step = .key key ∧ found.lookup key = some value) ∨
      ∃ wanted found, expected = .array wanted ∧ actual = .array found ∧
        wanted.length = found.length := by
  unfold goesOn at on
  split at on
  · next wanted found key left right =>
      cases left
      cases right
      obtain ⟨value, located⟩ := Option.isSome_iff_exists.mp on
      exact .inl ⟨_, _, _, value, rfl, rfl, rfl, located⟩
  · next wanted found left right =>
      cases left
      cases right
      exact .inr ⟨_, _, rfl, rfl, of_decide_eq_true on⟩
  · cases on

theorem Facing.reachable {expected left : Template} {actual right : Json} {place : Path}
    (distinct : expected.DistinctKeys) (facing : Facing expected actual place left right) :
    Reachable expected actual place := by
  induction facing with
  | here => exact reachable_nil _ _
  | @member expected actual key wanted left found right place included located _ ih =>
      cases distinct with
      | object keys each =>
          have below : (Tree.object expected).child? (.key key) = some wanted :=
            keys.lookup_iff.mpr included
          have facingBelow : (Tree.object actual).child? (.key key) = some found := located
          refine (reachable_cons_iff below facingBelow).mpr ⟨?_, ih (each _ _ included)⟩
          simp [goesOn, located]
  | @item expected actual position wanted left found right place aligned wantedAt foundAt _ ih =>
      cases distinct with
      | array each =>
          have below : (Tree.array expected).child? (.index position) = some wanted := wantedAt
          have facingBelow : (Tree.array actual).child? (.index position) = some found := foundAt
          refine (reachable_cons_iff below facingBelow).mpr
            ⟨?_, ih (each _ (List.mem_of_getElem? wantedAt))⟩
          simp [goesOn, aligned]

/-- A node of the template that is reached has a node to face. -/
theorem facing_of_reachable {expected left : Template} {actual : Json} {place : Path}
    (leads : expected.at? place = some left) (reachable : Reachable expected actual place) :
    ∃ right, Facing expected actual place left right := by
  induction place generalizing expected actual with
  | nil =>
      cases leads
      exact ⟨actual, .here⟩
  | cons step rest ih =>
      obtain ⟨child, below, further⟩ := Option.bind_eq_some_iff.mp leads
      rcases goesOn_root (reachable 0 (Nat.zero_lt_succ _)) with
        ⟨wanted, found, key, value, rfl, rfl, rfl, located⟩ | ⟨wanted, found, rfl, rfl, aligned⟩
      · have facingBelow : (Tree.object found).child? (.key key) = some value := located
        obtain ⟨_, later⟩ := (reachable_cons_iff below facingBelow).mp reachable
        obtain ⟨right, facing⟩ := ih further later
        exact ⟨right, .member (mem_of_lookup_eq_some below) located facing⟩
      · rcases Tree.container_of_child? below with
          ⟨_, _, same, _⟩ | ⟨_, position, same, rfl, wantedAt⟩
        · cases same
        · cases same
          obtain ⟨value, foundAt⟩ := exists_getElem?_of_aligned aligned wantedAt
          have facingBelow : (Tree.array found).child? (.index position) = some value := foundAt
          obtain ⟨_, later⟩ := (reachable_cons_iff below facingBelow).mp reachable
          obtain ⟨right, facing⟩ := ih further later
          exact ⟨right, .item aligned wantedAt foundAt facing⟩

theorem facing_iff {expected left : Template} {actual right : Json} {place : Path}
    (distinct : expected.DistinctKeys) :
    Facing expected actual place left right ↔ expected.at? place = some left ∧
      actual.at? place = some right ∧ Reachable expected actual place := by
  constructor
  · intro facing
    exact ⟨facing.expected_at distinct, facing.actual_at, facing.reachable distinct⟩
  · rintro ⟨leads, found, reachable⟩
    obtain ⟨other, facing⟩ := facing_of_reachable leads reachable
    rw [facing.actual_at] at found
    cases found
    exact facing

end Comparison

end JsonTemplate
