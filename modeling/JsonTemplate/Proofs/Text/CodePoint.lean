import JsonTemplate.Text.CodePoint

set_option autoImplicit false

/-!
# Code points and runs of them

A code point is the one with its number. Where a run of code points of one kind ends.
-/

namespace JsonTemplate.CodePoint

theorem ofNat_value (point : CodePoint) : ofNat point.value = point := by
  cases point with
  | scalar character =>
      have valid : character.toNat.isValidChar := character.valid
      rw [ofNat, value, dif_pos valid]
      rfl
  | surrogate offset =>
      have bound := offset.isLt
      have invalid : ¬ (0xD800 + offset.val).isValidChar := by
        unfold Nat.isValidChar
        omega
      have same : (0xD800 + offset.val - 0xD800) % 0x800 = offset.val := by omega
      exact (dif_neg invalid).trans (congrArg surrogate (Fin.ext same))

theorem value_lt (point : CodePoint) : point.value < 0x110000 := by
  cases point with
  | scalar character =>
      have valid : character.toNat.isValidChar := character.valid
      unfold Nat.isValidChar at valid
      rw [value]
      omega
  | surrogate offset =>
      rw [value]
      omega

end JsonTemplate.CodePoint

namespace JsonTemplate.Text

theorem takeWhile_run {kind : CodePoint → Bool} {run rest : Text}
    (all : ∀ point ∈ run, kind point = true) (ends : ∀ point ∈ rest.head?, kind point = false) :
    (run ++ rest).takeWhile kind = run := by
  rw [List.takeWhile_append_of_pos all]
  cases rest with
  | nil => exact List.append_nil run
  | cons point rest => simp [ends point rfl]

theorem dropWhile_run {kind : CodePoint → Bool} {run rest : Text}
    (all : ∀ point ∈ run, kind point = true) (ends : ∀ point ∈ rest.head?, kind point = false) :
    (run ++ rest).dropWhile kind = rest := by
  rw [List.dropWhile_append_of_pos all]
  cases rest with
  | nil => rfl
  | cons point rest => simp [ends point rfl]

/-- A run ends where its first other position stands, so a text has one longest run. -/
theorem run_unique {kind : CodePoint → Bool} {left right before after : Text}
    {first second : CodePoint} (leftRun : ∀ point ∈ left, kind point = true)
    (rightRun : ∀ point ∈ right, kind point = true) (firstEnds : kind first = false)
    (secondEnds : kind second = false) (same : left ++ first :: before = right ++ second :: after) :
    left = right ∧ first = second ∧ before = after := by
  have runs := congrArg (List.takeWhile kind) same
  rw [takeWhile_run leftRun (by simpa using firstEnds),
    takeWhile_run rightRun (by simpa using secondEnds)] at runs
  subst runs
  obtain ⟨ends, rest⟩ := List.cons.inj (List.append_cancel_left same)
  exact ⟨rfl, ends, rest⟩

end JsonTemplate.Text
