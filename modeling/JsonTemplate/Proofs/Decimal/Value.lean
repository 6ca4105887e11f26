import JsonTemplate.Decimal.Basic
import JsonTemplate.Proofs.Text.Numeral
import Mathlib.Algebra.Order.Field.Power
import Mathlib.Algebra.Order.Field.Rat
import Mathlib.Tactic.Ring

set_option autoImplicit false

/-!
# The rational value of a number

The reduced form decides equality by value: two numbers have one reduced form exactly
when they denote the same rational number, whatever the size of their exponents.
-/

namespace JsonTemplate

namespace Decimal

def toRat (number : Decimal) : ℚ :=
  (if number.negative then -(number.coefficient : ℚ) else number.coefficient) *
    10 ^ number.exponent

/-- The digits and the exponent bound the magnitude of a number. -/
theorem inRange_of_width {number : Decimal} {width : Nat} (some : 0 < width)
    (bounded : number.coefficient < 10 ^ width) (low : -largestAdjusted ≤ number.exponent)
    (high : number.exponent + width - 1 ≤ largestAdjusted) : number.inRange = true := by
  have most := Numeral.length_ofNat_le some bounded
  have least := List.length_pos_iff.mpr (Numeral.ofNat_ne_nil number.coefficient)
  have range : -largestAdjusted ≤ number.adjusted ∧ number.adjusted ≤ largestAdjusted := by
    rw [adjusted]
    omega
  rw [inRange, decide_eq_true range.1, decide_eq_true range.2]
  rfl

/-- Moving zeros into the exponent keeps the value. -/
theorem strip_value (coefficient : Nat) (exponent : Int) :
    ((strip coefficient exponent).1 : ℚ) * 10 ^ (strip coefficient exponent).2 =
      coefficient * 10 ^ exponent := by
  fun_induction strip coefficient exponent with
  | case1 exponent => simp
  | case2 coefficient exponent nonzero divisible ih =>
      have whole : coefficient = coefficient / 10 * 10 := by omega
      have split : (coefficient : ℚ) = (coefficient / 10 : ℕ) * 10 := by exact_mod_cast whole
      rw [ih, split, zpow_add₀ (by norm_num), zpow_one]
      ring
  | case3 coefficient exponent nonzero last => rfl

/-- A stripped coefficient is zero, with exponent zero, or does not end in a zero. -/
theorem strip_reduced (coefficient : Nat) (exponent : Int) :
    strip coefficient exponent = (0, 0) ∨ (strip coefficient exponent).1 % 10 ≠ 0 := by
  fun_induction strip coefficient exponent with
  | case1 exponent => exact .inl rfl
  | case2 coefficient exponent nonzero divisible ih => exact ih
  | case3 coefficient exponent nonzero last => exact .inr last

/-- The reduced form has the value of the number. -/
theorem reduced_value (number : Decimal) :
    (number.reduced.1 : ℚ) * 10 ^ number.reduced.2 = number.toRat := by
  have value := strip_value number.coefficient number.exponent
  simp only [reduced, toRat]
  split
  · rw [Int.cast_neg, Int.cast_natCast, neg_mul, neg_mul, value]
  · rw [Int.cast_natCast, value]

private theorem reduced_canonical (number : Decimal) :
    number.reduced = (0, 0) ∨ ¬ (10 : ℤ) ∣ number.reduced.1 := by
  rcases strip_reduced number.coefficient number.exponent with zero | last
  · left
    simp [reduced, zero]
  · right
    simp only [reduced]
    split <;> omega

/-- An integer that does not end in a zero times a power of ten has no second such
form with a larger exponent. -/
private theorem exponent_le_of_value {left right : Int × Int}
    (canonical : ¬ (10 : ℤ) ∣ left.1)
    (same : (left.1 : ℚ) * 10 ^ left.2 = right.1 * 10 ^ right.2) : right.2 ≤ left.2 := by
  by_contra larger
  obtain ⟨extra, distance⟩ := Int.eq_ofNat_of_zero_le (show 0 ≤ right.2 - left.2 - 1 by omega)
  have exponent : right.2 = left.2 + (extra + 1 : ℕ) := by push_cast; omega
  have nonzero : (10 : ℚ) ^ left.2 ≠ 0 := zpow_ne_zero _ (by norm_num)
  rw [exponent, zpow_add₀ (by norm_num), zpow_natCast] at same
  have factored : (left.1 : ℚ) = right.1 * 10 ^ (extra + 1) := by
    apply mul_right_cancel₀ nonzero
    rw [same]
    ring
  have integral : left.1 = right.1 * 10 ^ (extra + 1) := by exact_mod_cast factored
  exact canonical ⟨right.1 * 10 ^ extra, by rw [integral]; ring⟩

/-- A value other than zero has one canonical form. -/
private theorem canonical_unique {left right : Int × Int}
    (leftCanonical : ¬ (10 : ℤ) ∣ left.1) (rightCanonical : ¬ (10 : ℤ) ∣ right.1)
    (same : (left.1 : ℚ) * 10 ^ left.2 = right.1 * 10 ^ right.2) : left = right := by
  have exponent : left.2 = right.2 :=
    le_antisymm (exponent_le_of_value rightCanonical same.symm)
      (exponent_le_of_value leftCanonical same)
  rw [exponent] at same
  have coefficient : (left.1 : ℚ) = right.1 :=
    mul_right_cancel₀ (zpow_ne_zero _ (by norm_num)) same
  exact Prod.ext (by exact_mod_cast coefficient) exponent

/-- A canonical form of a nonzero integer does not denote zero. -/
private theorem value_ne_zero {form : Int × Int} (canonical : ¬ (10 : ℤ) ∣ form.1) :
    (form.1 : ℚ) * 10 ^ form.2 ≠ 0 := by
  have nonzero : form.1 ≠ 0 := fun zero => canonical (zero ▸ dvd_zero 10)
  exact mul_ne_zero (by exact_mod_cast nonzero) (zpow_ne_zero _ (by norm_num))

private theorem reduced_eq_iff (left right : Decimal) :
    left.reduced = right.reduced ↔ left.toRat = right.toRat := by
  rw [← reduced_value, ← reduced_value]
  constructor
  · intro same
    rw [same]
  · intro same
    rcases reduced_canonical left with leftZero | leftCanonical <;>
      rcases reduced_canonical right with rightZero | rightCanonical
    · rw [leftZero, rightZero]
    · rw [leftZero] at same
      exact absurd (by simpa using same.symm) (value_ne_zero rightCanonical)
    · rw [rightZero] at same
      exact absurd (by simpa using same) (value_ne_zero leftCanonical)
    · exact canonical_unique leftCanonical rightCanonical same

end Decimal

namespace Number

def toRat (number : Number) : ℚ := number.toDecimal.toRat

@[simp] theorem toRat_integer (value : Int) : (Number.integer value).toRat = value := by
  simp only [toRat, toDecimal, Decimal.toRat, decide_eq_true_eq, zpow_zero, mul_one,
    Nat.cast_natAbs]
  split
  · next negative => rw [abs_of_neg negative, Int.cast_neg, neg_neg]
  · next positive => rw [abs_of_nonneg (not_lt.mp positive)]

@[simp] theorem toRat_decimal (value : Decimal) : (Number.decimal value).toRat = value.toRat := rfl

/-- Equality by value is equality of the rational numbers. -/
theorem sameValue_iff (left right : Number) :
    left.sameValue right = true ↔ left.toRat = right.toRat := by
  rw [sameValue, decide_eq_true_iff, Decimal.reduced_eq_iff]
  rfl

end Number

end JsonTemplate
