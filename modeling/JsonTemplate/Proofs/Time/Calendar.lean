import JsonTemplate.Time.Moment
import Mathlib.Algebra.BigOperators.Group.List.Basic
import Mathlib.Algebra.GroupWithZero.Nat
import Mathlib.Order.Monotone.Basic

set_option autoImplicit false

/-!
# Counting days

Every count of days within the calendar is that of one date, which the calendar has.
-/

namespace JsonTemplate

namespace Calendar

/-! ## Years -/

def yearLength (year : Nat) : Nat :=
  if isLeap year then 366 else 365

private theorem isLeap_iff {year : Nat} :
    isLeap year = true ↔ year % 4 = 0 ∧ (year % 100 ≠ 0 ∨ year % 400 = 0) := by
  simp [isLeap]

private theorem le_yearLength (year : Nat) : 365 ≤ yearLength year := by
  rw [yearLength]
  split <;> decide

private theorem daysBeforeYear_succ (past : Nat) :
    daysBeforeYear (past + 1 + 1) = daysBeforeYear (past + 1) + yearLength (past + 1) := by
  have fours := Nat.succ_div (a := past) (b := 4)
  have hundreds := Nat.succ_div (a := past) (b := 100)
  have quads := Nat.succ_div (a := past) (b := 400)
  have less : past / 100 ≤ past / 4 := by omega
  simp only [daysBeforeYear, Nat.add_sub_cancel, yearLength, isLeap_iff]
  rw [fours, hundreds, quads]
  simp only [Nat.dvd_iff_mod_eq_zero]
  by_cases four : (past + 1) % 4 = 0
  · by_cases hundred : (past + 1) % 100 = 0
    · by_cases quad : (past + 1) % 400 = 0
      · rw [if_pos four, if_pos hundred, if_pos quad, if_pos ⟨four, .inr quad⟩]
        omega
      · rw [if_pos four, if_pos hundred, if_neg quad, if_neg (by omega)]
        omega
    · rw [if_pos four, if_neg hundred, if_neg (by omega), if_pos ⟨four, .inl hundred⟩]
      omega
  · rw [if_neg four, if_neg (by omega), if_neg (by omega), if_neg (by omega)]
    omega

private theorem daysBeforeYear_mono : Monotone daysBeforeYear := by
  refine monotone_nat_of_le_succ fun year => ?_
  cases year with
  | zero => decide
  | succ past => exact daysBeforeYear_succ past ▸ Nat.le_add_right _ _

/-- The days before a year, by the four centuries, centuries, four years and years behind it. -/
theorem daysBeforeYear_periods {quads centuries fours singles : Nat} (century : centuries < 4)
    (four : fours < 25) (single : singles < 4) :
    daysBeforeYear (quads * 400 + centuries * 100 + fours * 4 + singles + 1) =
      quads * 146097 + centuries * 36524 + fours * 1461 + singles * 365 := by
  have byFour : (quads * 400 + centuries * 100 + fours * 4 + singles) / 4 =
      quads * 100 + centuries * 25 + fours := by omega
  have byHundred : (quads * 400 + centuries * 100 + fours * 4 + singles) / 100 =
      quads * 4 + centuries := by omega
  have byFourHundred : (quads * 400 + centuries * 100 + fours * 4 + singles) / 400 = quads := by
    omega
  rw [daysBeforeYear, Nat.add_sub_cancel, byFour, byHundred, byFourHundred]
  omega

private theorem splitYears_spec (count : Nat) :
    1 ≤ (splitYears count).1 ∧
      daysBeforeYear (splitYears count).1 + (splitYears count).2 = count ∧
      (splitYears count).2 < yearLength (splitYears count).1 := by
  simp only [splitYears]
  have quads := Nat.div_add_mod count 146097
  have centuries := Nat.div_add_mod (count % 146097) 36524
  have fours := Nat.div_add_mod (count % 146097 % 36524) 1461
  have singles := Nat.div_add_mod (count % 146097 % 36524 % 1461) 365
  have inQuad : count % 146097 < 146097 := Nat.mod_lt _ (by decide)
  have inCentury : count % 146097 % 36524 < 36524 := Nat.mod_lt _ (by decide)
  have inFour : count % 146097 % 36524 % 1461 < 1461 := Nat.mod_lt _ (by decide)
  have inYear : count % 146097 % 36524 % 1461 % 365 < 365 := Nat.mod_lt _ (by decide)
  generalize count / 146097 = quad at *
  generalize count % 146097 = rest at *
  generalize rest / 36524 = century at *
  generalize rest % 36524 = rest' at *
  generalize rest' / 1461 = four at *
  generalize rest' % 1461 = rest'' at *
  generalize rest'' / 365 = single at *
  generalize rest'' % 365 = day at *
  split
  · next last =>
      -- The last day of a longer period makes its last year a leap year.
      obtain rfl | rfl := last
      · have : four = 0 := by omega
        have : single = 0 := by omega
        subst four single
        have before := @daysBeforeYear_periods quad 3 24 3 (by decide) (by decide) (by decide)
        have year : quad * 400 + 3 * 100 + 24 * 4 + 3 + 1 =
            quad * 400 + 4 * 100 + 0 * 4 + 0 := by omega
        rw [year] at before
        dsimp only
        refine ⟨by omega, by omega, ?_⟩
        rw [yearLength, if_pos (isLeap_iff.mpr (by omega))]
        decide
      · have before := @daysBeforeYear_periods quad century four 3 (by omega) (by omega) (by decide)
        have year : quad * 400 + century * 100 + four * 4 + 3 + 1 =
            quad * 400 + century * 100 + four * 4 + 4 := rfl
        rw [year] at before
        dsimp only
        refine ⟨by omega, by omega, ?_⟩
        rw [yearLength, if_pos (isLeap_iff.mpr (by omega))]
        decide
  · next ordinary =>
      have before := @daysBeforeYear_periods quad century four single (by omega) (by omega)
        (by omega)
      dsimp only
      refine ⟨by omega, by omega, ?_⟩
      exact inYear.trans_le (le_yearLength _)

/-! ## Months -/

private theorem splitMonths_spec {lengths : List Nat} {day : Nat} (inside : day < lengths.sum) :
    ∃ length, lengths[(splitMonths lengths day).1]? = some length ∧
      (splitMonths lengths day).2 < length ∧
      (lengths.take (splitMonths lengths day).1).sum + (splitMonths lengths day).2 = day := by
  induction lengths generalizing day with
  | nil => exact absurd inside (Nat.not_lt_zero day)
  | cons length rest ih =>
      rw [splitMonths]
      split
      · next early => exact ⟨length, rfl, early, by simp⟩
      · next late =>
          rw [List.sum_cons] at inside
          obtain ⟨found, at_, less, same⟩ := @ih (day - length) (by omega)
          refine ⟨found, by simpa using at_, less, ?_⟩
          simp only [List.take_succ_cons, List.sum_cons]
          omega

private theorem sum_monthLengths (year : Nat) : (monthLengths year).sum = yearLength year := by
  rw [monthLengths, yearLength]
  cases isLeap year <;> rfl

theorem daysInMonth_le (year month : Nat) : daysInMonth year month ≤ 31 := by
  have longest : ∀ length ∈ monthLengths year, length ≤ 31 := by
    rw [monthLengths]
    cases isLeap year <;> decide
  rw [daysInMonth]
  split
  · decide
  · cases found : (monthLengths year)[month - 1]? with
    | none => decide
    | some length => exact longest length (List.mem_of_getElem? found)

end Calendar

namespace Date

open Calendar

theorem ofDays_parts (count : Nat) :
    1 ≤ (ofDays count).year ∧ 1 ≤ (ofDays count).month ∧ (ofDays count).month ≤ 12 ∧
      1 ≤ (ofDays count).day ∧
      (ofDays count).day ≤ daysInMonth (ofDays count).year (ofDays count).month ∧
      daysBeforeYear (ofDays count).year ≤ count ∧ (ofDays count).toDays = count := by
  obtain ⟨positive, whole, inYear⟩ := splitYears_spec count
  rw [← sum_monthLengths] at inYear
  obtain ⟨length, found, inMonth, days⟩ := splitMonths_spec inYear
  obtain ⟨month, _⟩ := List.getElem?_eq_some_iff.mp found
  simp only [ofDays, toDays, daysInMonth, Nat.add_sub_cancel, Nat.succ_ne_zero, if_false, found]
  refine ⟨positive, Nat.succ_pos _, month, Nat.succ_pos _, inMonth, by omega, ?_⟩
  change _ + List.sum _ + _ = count
  omega

/-- The dates of the days of the calendar lie in its years. -/
theorem year_ofDays_le {count : Nat} (inside : count < Calendar.days) :
    (ofDays count).year ≤ lastYear := by
  obtain ⟨_, _, _, _, _, before, _⟩ := ofDays_parts count
  by_contra late
  have after : Calendar.days ≤ daysBeforeYear (ofDays count).year :=
    daysBeforeYear_mono (Nat.lt_of_not_le late)
  exact absurd inside (Nat.not_lt.mpr (after.trans before))

theorem toDays_ofDays (count : Nat) : (ofDays count).toDays = count :=
  (ofDays_parts count).2.2.2.2.2.2

end Date

end JsonTemplate
