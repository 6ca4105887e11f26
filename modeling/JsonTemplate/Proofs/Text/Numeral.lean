import JsonTemplate.Text.Numeral
import Mathlib.Data.List.Induction
import Mathlib.Tactic.Ring

set_option autoImplicit false

/-!
# Values of numerals

The decimal digits of a number are read back as that number, and a run of digits bounds
the number that it denotes. The texts of integers are exactly those that are read as one.
-/

namespace JsonTemplate.Numeral

theorem value_append (left right : Text) :
    value (left ++ right) = value left * 10 ^ right.length + value right := by
  have shift : ∀ start : Nat, right.foldl (fun number digit => number * 10 + digit.digitValue)
      start = start * 10 ^ right.length + value right := by
    unfold value
    induction right with
    | nil => simp
    | cons point right ih =>
        intro start
        rw [List.foldl_cons, List.foldl_cons, ih, ih (0 * 10 + _), List.length_cons, pow_succ]
        ring
  rw [value, List.foldl_append, shift]
  rfl

private theorem value_singleton (point : CodePoint) : value [point] = point.digitValue := by
  simp [value]

theorem digitValue_lt {point : CodePoint} (digit : point.isDigit = true) : point.digitValue < 10 := by
  cases point with
  | surrogate => cases digit
  | scalar character =>
      simp only [CodePoint.isDigit, Char.isDigit, Bool.and_eq_true, decide_eq_true_eq] at digit
      have most : character.toNat ≤ 57 := digit.2
      simp only [CodePoint.digitValue, Char.reduceToNat]
      omega

theorem value_lt {digits : Text} (all : ∀ point ∈ digits, point.isDigit = true) :
    value digits < 10 ^ digits.length := by
  induction digits using List.reverseRecOn with
  | nil => decide
  | append_singleton digits point ih =>
      have before := ih fun other member => all other (List.mem_append_left _ member)
      have last := digitValue_lt (all point (List.mem_append_right _ (List.mem_singleton_self point)))
      rw [value_append, value_singleton, List.length_append, List.length_singleton, pow_succ]
      omega

theorem value_zeros (width : Nat) (digits : Text) :
    value (List.replicate width (.scalar '0') ++ digits) = value digits := by
  induction width with
  | zero => rfl
  | succ width ih =>
      rw [List.replicate_succ, List.cons_append, ← ih]
      rfl

/-! ## The digits of a number -/

private theorem isDigit_digit {number : Nat} (small : number < 10) :
    (digit number).isDigit = true :=
  (by decide : ∀ number < 10, (digit number).isDigit = true) number small

private theorem digitValue_digit {number : Nat} (small : number < 10) :
    (digit number).digitValue = number :=
  (by decide : ∀ number < 10, (digit number).digitValue = number) number small

private theorem digit_ne_zero {number : Nat} (small : number < 10) (positive : 0 < number) :
    digit number ≠ .scalar '0' :=
  (by decide : ∀ number < 10, 0 < number → digit number ≠ .scalar '0') number small positive

theorem hexValue?_digit {number : Nat} (small : number < 16) :
    (digit number).hexValue? = some number :=
  (by decide : ∀ number < 16, (digit number).hexValue? = some number) number small

theorem digit_digitValue {point : CodePoint} (decimal : point.isDigit = true) :
    digit point.digitValue = point := by
  cases point with
  | surrogate => cases decimal
  | scalar character =>
      simp only [CodePoint.isDigit, Char.isDigit, Bool.and_eq_true, decide_eq_true_eq] at decimal
      have least : 48 ≤ character.toNat := decimal.1
      have most : character.toNat ≤ 57 := decimal.2
      have digits : ∀ number < 10, digit number = .scalar (Char.ofNat (48 + number)) := by decide
      have same : 48 + (character.toNat - 48) = character.toNat := by omega
      simp only [CodePoint.digitValue, Char.reduceToNat]
      rw [digits _ (by omega), same, Char.ofNat_toNat]

private theorem digitsOnto_append (number : Nat) (front back : Text) :
    digitsOnto number (front ++ back) = digitsOnto number front ++ back := by
  fun_induction digitsOnto number front with
  | case1 number front small =>
      rw [digitsOnto, if_pos small]
      rfl
  | case2 number front large ih => rw [digitsOnto, if_neg large, ← List.cons_append, ih]

theorem ofNat_of_lt {number : Nat} (small : number < 10) : ofNat number = [digit number] := by
  rw [ofNat, digitsOnto, if_pos small]

theorem ofNat_of_le {number : Nat} (large : 10 ≤ number) :
    ofNat number = ofNat (number / 10) ++ [digit (number % 10)] := by
  rw [ofNat, digitsOnto, if_neg (Nat.not_lt.mpr large), ofNat, ← digitsOnto_append, List.nil_append]

/-- The digits of a number are those of a tenth of it and one more. -/
theorem tenths {motive : Nat → Prop} (small : ∀ number, number < 10 → motive number)
    (large : ∀ number, 10 ≤ number → motive (number / 10) → motive number) (number : Nat) :
    motive number := by
  induction number using Nat.strongRecOn with
  | ind number ih =>
      by_cases less : number < 10
      · exact small number less
      · exact large number (Nat.le_of_not_lt less) (ih (number / 10) (by omega))

theorem isDigit_ofNat (number : Nat) : ∀ point ∈ ofNat number, point.isDigit = true := by
  induction number using tenths with
  | small number less =>
      rw [ofNat_of_lt less]
      intro point member
      rw [List.mem_singleton.mp member]
      exact isDigit_digit less
  | large number more ih =>
      rw [ofNat_of_le more]
      intro point member
      rcases List.mem_append.mp member with before | last
      · exact ih point before
      · rw [List.mem_singleton.mp last]
        exact isDigit_digit (Nat.mod_lt number (by decide))

theorem ofNat_ne_nil (number : Nat) : ofNat number ≠ [] := by
  by_cases less : number < 10
  · rw [ofNat_of_lt less]
    exact List.cons_ne_nil _ _
  · rw [ofNat_of_le (Nat.le_of_not_lt less)]
    simp

theorem value_ofNat (number : Nat) : value (ofNat number) = number := by
  induction number using tenths with
  | small number less => rw [ofNat_of_lt less, value_singleton, digitValue_digit less]
  | large number more ih =>
      rw [ofNat_of_le more, value_append, ih, value_singleton,
        digitValue_digit (Nat.mod_lt number (by decide)), List.length_singleton, pow_one]
      omega

theorem ofNat_injective {left right : Nat} (same : ofNat left = ofNat right) : left = right := by
  rw [← value_ofNat left, same, value_ofNat]

private theorem ofNat_ne_minus {number : Nat} {rest : Text} :
    ofNat number ≠ .scalar '-' :: rest := by
  intro same
  have digit := isDigit_ofNat number (.scalar '-') (same ▸ List.mem_cons_self)
  cases digit

theorem mem_ofInt {number : Int} {point : CodePoint} (member : point ∈ ofInt number) :
    point = .scalar '-' ∨ point.isDigit = true := by
  unfold ofInt at member
  split at member
  · exact (List.mem_cons.mp member).imp_right (isDigit_ofNat _ point)
  · exact .inr (isDigit_ofNat _ point member)

/-- Only zero is written with a zero in front. -/
theorem head?_ofNat {number : Nat} (positive : 0 < number) :
    (ofNat number).head? ≠ some (.scalar '0') := by
  induction number using tenths with
  | small number less =>
      rw [ofNat_of_lt less]
      intro same
      exact digit_ne_zero less positive (Option.some.inj same)
  | large number more ih =>
      obtain ⟨first, others, shape⟩ := List.exists_cons_of_ne_nil (ofNat_ne_nil (number / 10))
      have front := ih (by omega)
      rw [shape] at front
      rw [ofNat_of_le more, shape]
      exact front

theorem length_ofNat_le {number width : Nat} (some : 0 < width) (bounded : number < 10 ^ width) :
    (ofNat number).length ≤ width := by
  induction number using tenths generalizing width with
  | small number less =>
      rw [ofNat_of_lt less]
      exact some
  | large number more ih =>
      obtain ⟨width, rfl⟩ := Nat.exists_eq_add_one.mpr some
      have positive : 0 < width := by
        by_contra none
        rw [Nat.eq_zero_of_not_pos none] at bounded
        omega
      rw [pow_succ] at bounded
      rw [ofNat_of_le more, List.length_append, List.length_singleton]
      have shorter := ih positive (by omega)
      omega

/-! ## Padding -/

theorem isDigit_padded (width number : Nat) :
    ∀ point ∈ padded width number, point.isDigit = true := by
  intro point member
  rcases List.mem_append.mp member with zero | digit
  · rw [List.eq_of_mem_replicate zero]
    rfl
  · exact isDigit_ofNat number point digit

theorem padded_ne_nil (width number : Nat) : padded width number ≠ [] :=
  List.append_ne_nil_of_right_ne_nil _ (ofNat_ne_nil number)

theorem value_padded (width number : Nat) : value (padded width number) = number := by
  rw [padded, value_zeros, value_ofNat]

theorem length_padded {number width : Nat} (some : 0 < width) (bounded : number < 10 ^ width) :
    (padded width number).length = width := by
  have shorter := length_ofNat_le some bounded
  rw [padded, List.length_append, List.length_replicate]
  omega

/-! ## Reading -/

/-- Digits as a number is written with: at least one, and a zero in front only alone. -/
def isProper (digits : Text) : Bool :=
  !digits.isEmpty && digits.all CodePoint.isDigit &&
    (digits.head? != some (.scalar '0') || digits.length == 1)

def toNat? (digits : Text) : Option Nat :=
  if isProper digits then some (value digits) else none

def toInt? : Text → Option Int
  | .scalar '-' :: digits =>
      (toNat? digits).bind fun magnitude => if magnitude = 0 then none else some (-magnitude)
  | digits => (toNat? digits).map Int.ofNat

private theorem isProper_iff {digits : Text} :
    isProper digits = true ↔ digits ≠ [] ∧ (∀ point ∈ digits, point.isDigit = true) ∧
      (digits.head? = some (.scalar '0') → digits.length = 1) := by
  simp [isProper, and_assoc, imp_iff_not_or]

theorem ofNat_value {digits : Text} (proper : isProper digits = true) :
    ofNat (value digits) = digits := by
  induction digits using List.reverseRecOn with
  | nil => cases proper
  | append_singleton front point ih =>
      obtain ⟨_, all, zero⟩ := isProper_iff.mp proper
      have decimal := all point (List.mem_append_right _ (List.mem_singleton_self point))
      have small := digitValue_lt decimal
      cases front with
      | nil => rw [List.nil_append, value_singleton, ofNat_of_lt small, digit_digitValue decimal]
      | cons first middle =>
          -- The digits in front are as proper, and not those of zero, so the last is a remainder.
          have leading : first ≠ .scalar '0' := by
            rintro rfl
            simpa using zero rfl
          have before : ofNat (value (first :: middle)) = first :: middle :=
            ih (isProper_iff.mpr ⟨List.cons_ne_nil _ _,
              fun other member => all other (List.mem_append_left _ member),
              fun same => absurd (Option.some.inj same) leading⟩)
          have positive : value (first :: middle) ≠ 0 := by
            intro none
            rw [none, ofNat_of_lt (by decide)] at before
            exact leading (List.cons.inj before).1.symm
          have last : value (first :: middle ++ [point]) =
              value (first :: middle) * 10 + point.digitValue := by
            rw [value_append, value_singleton, List.length_singleton, pow_one]
          have tenth : value (first :: middle ++ [point]) / 10 = value (first :: middle) := by omega
          have rest : value (first :: middle ++ [point]) % 10 = point.digitValue := by omega
          rw [ofNat_of_le (by omega), tenth, rest, before, digit_digitValue decimal]

private theorem isProper_ofNat (number : Nat) : isProper (ofNat number) = true := by
  refine isProper_iff.mpr ⟨ofNat_ne_nil number, isDigit_ofNat number, ?_⟩
  intro zero
  by_cases positive : 0 < number
  · exact absurd zero (head?_ofNat positive)
  · rw [Nat.eq_zero_of_not_pos positive, ofNat_of_lt (by decide)]
    rfl

private theorem toNat?_eq_some_iff {digits : Text} {number : Nat} :
    toNat? digits = some number ↔ digits = ofNat number := by
  constructor
  · intro read
    unfold toNat? at read
    split at read
    · next proper =>
        cases read
        exact (ofNat_value proper).symm
    · cases read
  · rintro rfl
    rw [toNat?, if_pos (isProper_ofNat number), value_ofNat]

theorem toInt?_eq_some_iff {digits : Text} {number : Int} :
    toInt? digits = some number ↔ digits = ofInt number := by
  constructor
  · intro read
    unfold toInt? at read
    split at read
    · next digits =>
        obtain ⟨magnitude, spelled, read⟩ := Option.bind_eq_some_iff.mp read
        split at read
        · cases read
        · next positive =>
            cases read
            rw [ofInt, if_pos (by omega), toNat?_eq_some_iff.mp spelled, Int.natAbs_neg,
              Int.natAbs_natCast]
    · next unsigned =>
        obtain ⟨magnitude, spelled, same⟩ := Option.map_eq_some_iff.mp read
        cases same
        exact toNat?_eq_some_iff.mp spelled
  · rintro rfl
    by_cases negative : number < 0
    · have magnitude : toNat? (ofNat number.natAbs) = some number.natAbs :=
        toNat?_eq_some_iff.mpr rfl
      have positive : number.natAbs ≠ 0 := by omega
      have same : -(number.natAbs : Int) = number := by omega
      rw [ofInt, if_pos negative, toInt?, magnitude, Option.bind_some, if_neg positive, same]
    · have magnitude : toNat? (ofNat number.natAbs) = some number.natAbs :=
        toNat?_eq_some_iff.mpr rfl
      have same : (number.natAbs : Int) = number := by omega
      rw [ofInt, if_neg negative]
      unfold toInt?
      split
      · next shape => exact absurd shape ofNat_ne_minus
      · rw [magnitude, Option.map_some, Int.ofNat_eq_natCast, same]

theorem isWritable_iff {number : Int} :
    isWritable number = true ↔ number.natAbs < 10 ^ mostDigits := by
  rw [isWritable, decide_eq_true_iff, Nat.pow_eq]

end JsonTemplate.Numeral
