import JsonTemplate.Proofs.Comparison.Located
import JsonTemplate.Proofs.Comparison.SameValue

set_option autoImplicit false

/-!
# Comparing the other way round

When every string stands for itself, exact mode looks at both documents alike. Exchanging them
exchanges the two sides of every difference, and a missing property with an unexpected one,
although these are found in two different passes.
-/

namespace JsonTemplate

def Mismatch.mirror : Mismatch → Mismatch
  | .value expected actual => .value actual expected
  | .kind expected actual => .kind actual expected
  | .missing expected => .unexpected expected
  | .unexpected actual => .missing actual
  | .length expected actual => .length actual expected

def Difference.mirror (difference : Difference) : Difference :=
  ⟨difference.path, difference.mismatch.mirror⟩

@[simp] theorem Difference.mirror_mirror (difference : Difference) :
    difference.mirror.mirror = difference := by
  obtain ⟨path, mismatch⟩ := difference
  cases mismatch <;> rfl

def exchangedWord (word : Text) : Text :=
  if word = lit "MISSING_PROPERTY" then lit "UNEXPECTED_PROPERTY"
  else if word = lit "UNEXPECTED_PROPERTY" then lit "MISSING_PROPERTY"
  else word

/-- What a difference tells besides its sentence: the path, the word, and both sides. -/
def Difference.told (difference : Difference) : Text × Text × Option Text × Option Text :=
  (Path.render difference.path, difference.mismatch.word, difference.mismatch.expectedText?,
    difference.mismatch.actualText?)

def exchangedSides : Text × Text × Option Text × Option Text →
    Text × Text × Option Text × Option Text
  | (path, word, expected, actual) => (path, exchangedWord word, actual, expected)

private theorem Difference.told_mirror (difference : Difference) :
    difference.mirror.told = exchangedSides difference.told := by
  obtain ⟨path, mismatch⟩ := difference
  cases mismatch <;> rfl

namespace Template

private theorem toJson_literal (document : Json) : (literal document).toJson = document := by
  induction document using Tree.inductionOn with
  | array items ih =>
      rw [literal_array, toJson, Tree.map_array, List.map_map]
      congr 1
      exact (List.map_congr_left ih).trans (List.map_id items)
  | object members ih =>
      rw [literal_object, toJson, Tree.map_object, List.map_map]
      congr 1
      refine (List.map_congr_left fun member included => ?_).trans (List.map_id members)
      exact Prod.ext rfl (ih member.1 member.2 included)
  | _ => rfl

private theorem kind_literal (document : Json) : (literal document).kind = document.kind := by
  cases document <;> rfl

private theorem literal_eq_array {document : Json} {items : List Template}
    (same : literal document = .array items) :
    ∃ others, document = .array others ∧ items = others.map literal := by
  cases document with
  | array others =>
      rw [literal_array] at same
      exact ⟨others, rfl, (Tree.array.inj same).symm⟩
  | _ => cases same

private theorem literal_eq_object {document : Json} {members : List (Text × Template)}
    (same : literal document = .object members) :
    ∃ others, document = .object others ∧
      members = others.map fun member => (member.1, literal member.2) := by
  cases document with
  | object others =>
      rw [literal_object] at same
      exact ⟨others, rfl, (Tree.object.inj same).symm⟩
  | _ => cases same

end Template

namespace Comparison

private theorem SameScalar.mirror {left right : Json}
    (same : SameScalar (Template.literal left) right) :
    SameScalar (Template.literal right) left := by
  cases left with
  | null => cases same; exact .null
  | boolean => cases same; exact .boolean
  | number => cases same with | number equal => exact .number equal.symm
  | string => cases same; exact .string
  | array => cases same
  | object => cases same

private theorem Facing.mirror {first second right : Json} {left : Template} {place : Path}
    (facing : Facing (Template.literal first) second place left right)
    (distinct : first.DistinctKeys) :
    ∃ node, left = Template.literal node ∧
      Facing (Template.literal second) first place (Template.literal right) node := by
  generalize same : Template.literal first = template at facing
  induction facing generalizing first with
  | here => exact ⟨first, same.symm, .here⟩
  | @member _ others _ _ _ found _ _ included located _ ih =>
      obtain ⟨members, rfl, rfl⟩ := Template.literal_eq_object same
      obtain ⟨names, each⟩ := Tree.distinctKeys_object.mp distinct
      obtain ⟨⟨name, value⟩, inside, entry⟩ := List.mem_map.mp included
      obtain ⟨rfl, rfl⟩ := Prod.mk.inj entry
      obtain ⟨node, leads, facing⟩ := ih (each _ inside) rfl
      refine ⟨node, leads, ?_⟩
      rw [Template.literal_object]
      refine .member ?_ (names.lookup_iff.mpr inside) facing
      exact List.mem_map.mpr ⟨(name, found), mem_of_lookup_eq_some located, rfl⟩
  | @item _ others position _ _ found _ _ aligned wantedAt foundAt _ ih =>
      obtain ⟨items, rfl, rfl⟩ := Template.literal_eq_array same
      rw [List.length_map] at aligned
      rw [List.getElem?_map] at wantedAt
      obtain ⟨value, valueAt, rfl⟩ := Option.map_eq_some_iff.mp wantedAt
      have each := Tree.distinctKeys_array.mp distinct value (List.mem_of_getElem? valueAt)
      obtain ⟨node, leads, facing⟩ := ih each rfl
      refine ⟨node, leads, ?_⟩
      rw [Template.literal_array]
      refine .item ?_ ?_ valueAt facing
      · rw [List.length_map, aligned]
      · rw [List.getElem?_map, foundAt]
        rfl

/-- What two nodes report by themselves is reported from the other side too. A key that only one
of two objects has is missing or unexpected. -/
theorem Own.mirror {left right : Json} {difference : Difference}
    (owned : Own .exact (Template.literal left) right (.difference difference)) :
    Own .exact (Template.literal right) left (.difference difference.mirror) := by
  generalize same : Template.literal left = template at owned
  cases owned with
  | kind plain different =>
      subst same
      rw [Template.kind_literal] at different
      have mirrored : Own .exact (Template.literal right) left
          (.difference ⟨[], .kind (Template.literal right).toJson left⟩) := by
        apply Own.kind (literal_not_capture right)
        rw [Template.kind_literal]
        exact different.symm
      rw [Template.toJson_literal] at mirrored ⊢
      exact mirrored
  | value plain alike scalar unequal =>
      subst same
      rw [alike] at scalar
      rw [Template.kind_literal] at alike
      have mirrored : Own .exact (Template.literal right) left
          (.difference ⟨[], .value (Template.literal right).toJson left⟩) := by
        apply Own.value (literal_not_capture right)
        · rw [Template.kind_literal, alike]
        · rwa [Template.kind_literal]
        · exact fun other => unequal other.mirror
      rw [Template.toJson_literal] at mirrored ⊢
      exact mirrored
  | @missing _ others key wanted included absent =>
      obtain ⟨members, rfl, rfl⟩ := Template.literal_eq_object same
      obtain ⟨⟨name, value⟩, inside, entry⟩ := List.mem_map.mp included
      obtain ⟨rfl, rfl⟩ := Prod.mk.inj entry
      rw [Template.toJson_literal, Template.literal_object]
      apply Own.unexpected rfl inside
      rw [map_fst_map]
      exact lookup_eq_none_iff_not_mem.mp absent
  | @unexpected _ others key found _ included absent =>
      obtain ⟨members, rfl, rfl⟩ := Template.literal_eq_object same
      rw [map_fst_map] at absent
      have inside : (key, Template.literal found) ∈
          others.map fun member => (member.1, Template.literal member.2) :=
        List.mem_map.mpr ⟨(key, found), included, rfl⟩
      have mirrored := @Own.missing .exact _ members _ _ inside
        (lookup_eq_none_iff_not_mem.mpr absent)
      rw [Template.toJson_literal] at mirrored
      rw [Template.literal_object]
      exact mirrored
  | @length _ others different =>
      obtain ⟨items, rfl, rfl⟩ := Template.literal_eq_array same
      have mirrored := @Own.length .exact (others.map Template.literal) items
        (by rw [List.length_map] at different ⊢; exact different.symm)
      rw [List.length_map] at mirrored ⊢
      rw [Template.literal_array]
      exact mirrored

private theorem mirror_mem {first second : Json} (distinct : first.DistinctKeys)
    {difference : Difference}
    (member : difference ∈ differencesOf (findings .exact [] (Template.literal first) second)) :
    difference.mirror ∈ differencesOf (findings .exact [] (Template.literal second) first) := by
  obtain ⟨place, left, right, own, facing, owned, rfl⟩ := mem_differences_iff.mp member
  obtain ⟨node, rfl, mirrored⟩ := facing.mirror distinct
  exact mem_differences_iff.mpr ⟨place, _, _, own.mirror, mirrored, owned.mirror, rfl⟩

/-- Exact comparison where every string stands for itself tells the same from both sides: what is
told of the differences one way round is, with the sides exchanged and a missing property for an
unexpected one, what is told of those the other way round, up to order. -/
theorem compare_mirrored (policy : CapturePolicy) {first second : Json}
    (firstKeys : first.DistinctKeys) (secondKeys : second.DistinctKeys) :
    ((compare .exact policy .empty [] (Template.literal first) second).2.differences.map
      fun difference => exchangedSides difference.told).Perm
      ((compare .exact policy .empty [] (Template.literal second) first).2.differences.map
        Difference.told) := by
  rw [compare_empty, compare_empty]
  have mirrored : ((differencesOf (findings .exact [] (Template.literal first) second)).map
      Difference.mirror).Perm
      ((differencesOf (findings .exact [] (Template.literal second) first)).map id) := by
    apply perm_map_of_found
    · exact nodup_differences .exact (firstKeys.map _) secondKeys Difference.path fun _ => rfl
    · exact nodup_differences .exact (secondKeys.map _) firstKeys Difference.path fun _ => rfl
    · intro difference member
      exact ⟨difference.mirror, mirror_mem firstKeys member, rfl⟩
    · intro difference member
      exact ⟨difference.mirror, mirror_mem secondKeys member, difference.mirror_mirror⟩
  rw [List.map_id] at mirrored
  have told := mirrored.map Difference.told
  rw [List.map_map] at told
  simpa only [Function.comp_def, Difference.told_mirror] using told

/-- Every sort of difference, one of them inside an array. -/
theorem compare_mirrored_of_every_sort :
    let first : Json := .object [(lit "a", .null), (lit "b", .array [.boolean true, .null]),
      (lit "c", .array []), (lit "d", .string (lit "[[X]]"))]
    let second : Json := .object [(lit "d", .string (lit "x")), (lit "c", .array [.null]),
      (lit "b", .array [.boolean false, .object []]), (lit "e", .object [])]
    first.DistinctKeys ∧ second.DistinctKeys ∧
      (compare .exact .last .empty [] (Template.literal first) second).2.differences.map
        Difference.told =
        [(lit "$.a", lit "MISSING_PROPERTY", some (lit "null"), none),
          (lit "$.b[0]", lit "VALUE_MISMATCH", some (lit "true"), some (lit "false")),
          (lit "$.b[1]", lit "TYPE_MISMATCH", some (lit "null"), some (lit "\x7b\x7d")),
          (lit "$.c", lit "ARRAY_LENGTH_MISMATCH", some (lit "0"), some (lit "1")),
          (lit "$.d", lit "VALUE_MISMATCH", some (lit "\"[[X]]\""), some (lit "\"x\"")),
          (lit "$.e", lit "UNEXPECTED_PROPERTY", none, some (lit "\x7b\x7d"))] ∧
      ((compare .exact .last .empty [] (Template.literal first) second).2.differences.map
        fun difference => exchangedSides difference.told).Perm
        ((compare .exact .last .empty [] (Template.literal second) first).2.differences.map
          Difference.told) := by
  intro first second
  have firstKeys : first.DistinctKeys := by simp [first, Bindings.Distinct, lit]
  have secondKeys : second.DistinctKeys := by simp [second, Bindings.Distinct, lit]
  refine ⟨firstKeys, secondKeys, ?_, compare_mirrored .last firstKeys secondKeys⟩
  rw [compare_empty]
  cbv

end Comparison

end JsonTemplate
