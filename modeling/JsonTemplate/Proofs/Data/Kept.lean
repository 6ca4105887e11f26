import JsonTemplate.Proofs.Data.Held

set_option autoImplicit false

/-!
# What is asked of held documents

The questions that are asked of the blocks of a suite, told of the document that the data holds:
whether it counts as given, what it is gone through as, whether it is a certain text or can be a
key.
-/

namespace JsonTemplate

namespace Data

variable {pool : Pool} {value : Json} {data : Data}

/-- Data holds a document that is nested no deeper than can be written. -/
structure Keeps (pool : Pool) (value : Json) (data : Data) : Prop where
  holds : Holds pool value data
  shallow : value.nesting ≤ mostWritten

theorem Keeps.null : Keeps pool .null .null := ⟨.null, Nat.zero_le _⟩

theorem Keeps.string {text : Text} : Keeps pool (.string text) (.text text) :=
  ⟨.string, Nat.zero_le _⟩

theorem Keeps.list {items : List Json} (keeps : Keeps pool (.array items) data) :
    ∃ held, data.opened pool = .list held ∧ List.Forall₂ (Keeps pool) items held := by
  obtain ⟨held, opened, each⟩ := keeps.holds.list
  obtain ⟨_, less⟩ := Tree.nesting_array_le_iff.mp keeps.shallow
  exact ⟨held, opened, forall₂_imp_of_mem each fun item member part holds =>
    ⟨holds, (less item member).le⟩⟩

theorem Keeps.entries {members : List (Text × Json)} (keeps : Keeps pool (.object members) data) :
    ∃ entries, data.opened pool = .mapping entries ∧
      List.Forall₂ (EntryFor (Keeps pool)) members entries := by
  obtain ⟨entries, opened, each⟩ := keeps.holds.entries
  obtain ⟨_, less⟩ := Tree.nesting_object_le_iff.mp keeps.shallow
  exact ⟨entries, opened, forall₂_imp_of_mem each fun member included entry ⟨key, holds⟩ =>
    ⟨key, holds, (less member included).le⟩⟩

def counts : Json → Bool
  | .null => false
  | .boolean value => value
  | .number (.integer value) => value ≠ 0
  | .number (.decimal value) => !Binary64.equalsInt (Binary64.ofDecimal value) 0
  | .string content => !content.isEmpty
  | .array items => !items.isEmpty
  | .object members => !members.isEmpty

theorem isTrue_held (holds : Holds pool value data) : data.isTrue pool = counts value := by
  cases value with
  | null | boolean | string => cases holds; rfl
  | number value => cases holds; cases value <;> rfl
  | array items =>
      obtain ⟨held, opened, each⟩ := holds.list
      rw [isTrue, opened]
      cases each <;> rfl
  | object members =>
      obtain ⟨entries, opened, each⟩ := holds.entries
      rw [isTrue, opened]
      cases each <;> rfl

/-- What a value is gone through as: an object as its keys, a string as its characters. -/
def parts? : Json → Option (List Json)
  | .array items => some items
  | .object members => some (members.map fun member => .string member.1)
  | .string content => some (content.map fun point => .string [point])
  | _ => none

theorem counts_of_parts? {parts : List Json} (found : parts? value = some parts) :
    counts value = !parts.isEmpty := by
  cases value <;> cases found <;> simp [counts]

theorem items?_kept (keeps : Keeps pool value data) :
    Option.Rel (List.Forall₂ (Keeps pool)) (parts? value) (data.items? pool) := by
  cases value with
  | null | boolean => cases keeps.holds; exact .none
  | number value => cases keeps.holds; cases value <;> exact .none
  | string text =>
      cases keeps.holds
      refine .some ?_
      rw [List.forall₂_map_left_iff, List.forall₂_map_right_iff]
      exact List.forall₂_same.mpr fun point _ => .string
  | array items =>
      obtain ⟨held, opened, each⟩ := keeps.list
      rw [items?, opened]
      exact .some each
  | object members =>
      obtain ⟨entries, opened, each⟩ := keeps.entries
      rw [items?, opened]
      refine .some ?_
      rw [List.forall₂_map_left_iff, List.forall₂_map_right_iff]
      exact each.imp fun member entry ⟨key, _⟩ => key ▸ .string

def members? : Json → Option (List (Text × Json))
  | .object members => some members
  | _ => none

theorem members?_of_parts? (none : parts? value = none) : members? value = .none := by
  cases value <;> first | rfl | cases none

theorem entries?_kept (keeps : Keeps pool value data) :
    Option.Rel (List.Forall₂ (EntryFor (Keeps pool))) (members? value) (data.entries? pool) := by
  cases value with
  | null | boolean | string => cases keeps.holds; exact .none
  | number value => cases keeps.holds; cases value <;> exact .none
  | array items =>
      obtain ⟨held, opened, _⟩ := keeps.list
      rw [entries?, opened]
      exact .none
  | object members =>
      obtain ⟨entries, opened, each⟩ := keeps.entries
      rw [entries?, opened]
      exact .some each

theorem isTrue_of_entries? {entries : List (Data × Data)}
    (listed : data.entries? pool = some entries) : data.isTrue pool = !entries.isEmpty := by
  rw [entries?] at listed
  split at listed
  · next opened =>
      cases listed
      rw [isTrue, opened]
  · cases listed

theorem sameKey_text_iff (holds : Holds pool value data) {key : Text} :
    data.sameKey (.text key) = true ↔ value = .string key := by
  cases value with
  | null | boolean => cases holds; simp [sameKey, sameScalar, asInt?]
  | number value => cases holds; cases value <;> simp [ofNumber, sameKey, sameScalar, asInt?]
  | string text => cases holds; simp [sameKey, sameScalar]
  | array items =>
      obtain ⟨held, opened, _⟩ := holds.list
      refine iff_of_false ?_ (by simp)
      cases data <;> first | exact Bool.false_ne_true | cases opened
  | object members =>
      obtain ⟨entries, opened, _⟩ := holds.entries
      refine iff_of_false ?_ (by simp)
      cases data <;> first | exact Bool.false_ne_true | cases opened

theorem canBeKey_held (holds : Holds pool value data) :
    data.canBeKey = true ↔ value.nesting = 0 := by
  cases value with
  | null | boolean | string => cases holds; exact iff_of_true rfl rfl
  | number value => cases holds; cases value <;> exact iff_of_true rfl rfl
  | array items =>
      obtain ⟨held, opened, _⟩ := holds.list
      refine iff_of_false ?_ (Nat.succ_ne_zero _)
      cases data <;> first | exact Bool.false_ne_true | cases opened
  | object members =>
      obtain ⟨entries, opened, _⟩ := holds.entries
      refine iff_of_false ?_ (Nat.succ_ne_zero _)
      cases data <;> first | exact Bool.false_ne_true | cases opened

end Data

end JsonTemplate
