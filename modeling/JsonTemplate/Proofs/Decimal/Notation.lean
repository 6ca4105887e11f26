import JsonTemplate.Decimal.Notation
import JsonTemplate.Proofs.Decimal.Value
import JsonTemplate.Proofs.Json.Readable

set_option autoImplicit false

/-!
# The notation of numbers

What is written for a number is a number literal of documents. It denotes the same
number, and where it shows a point or an exponent it denotes it in the same form.
-/

namespace JsonTemplate

open Json (Digits WholePart FractionPart SignPart ExponentPart NumberLiteral Kept Stored numberOf)

/-- What a number becomes when its notation is read: an integer stays what it is, and a
decimal only becomes an integer where neither a point nor an exponent is written and the
digits are few enough. -/
inductive Restates : Number → Number → Prop where
  | integer {value : Int} : Restates (.integer value) (.integer value)
  | decimal {value : Decimal} :
      .scalar '.' ∈ value.render ∨ .scalar 'E' ∈ value.render →
      Restates (.decimal value) (.decimal value)
  | long {value : Decimal} :
      .scalar '.' ∉ value.render → .scalar 'E' ∉ value.render → value.exponent = 0 →
      Numeral.mostDigits < (Numeral.ofNat value.coefficient).length →
      Restates (.decimal value) (.decimal value)
  | short {value : Decimal} {integer : Int} :
      .scalar '.' ∉ value.render → .scalar 'E' ∉ value.render → value.exponent = 0 →
      (Numeral.ofNat value.coefficient).length ≤ Numeral.mostDigits →
      (integer : ℚ) = value.toRat → Restates (.decimal value) (.integer integer)

theorem Restates.toRat_eq {before after : Number} (restated : Restates before after) :
    before.toRat = after.toRat := by
  cases restated with
  | integer => rfl
  | decimal => rfl
  | long => rfl
  | short _ _ _ _ same => rw [Number.toRat_decimal, Number.toRat_integer, same]

/-- What is written for a number is a literal, and reading it restates the number. -/
def IsRestated (number : Number) : Prop :=
  ∃ again, NumberLiteral number.render again ∧ (Kept number → Kept again) ∧ Restates number again

/-! ## Parts of a notation -/

private theorem digits_ofNat (number : Nat) : Digits (Numeral.ofNat number) :=
  ⟨Numeral.ofNat_ne_nil number, Numeral.isDigit_ofNat number⟩

theorem wholePart_ofNat (number : Nat) : WholePart (Numeral.ofNat number) := by
  rcases Nat.eq_zero_or_pos number with rfl | positive
  · exact .inl (Numeral.ofNat_of_lt (by decide))
  · exact .inr ⟨digits_ofNat number, Numeral.head?_ofNat positive⟩

theorem wholePart_digit {point : CodePoint} (digit : point.isDigit = true) : WholePart [point] := by
  by_cases zero : point = .scalar '0'
  · exact .inl (by rw [zero])
  · refine .inr ⟨⟨List.cons_ne_nil _ _, by simpa using digit⟩, ?_⟩
    intro same
    exact zero (Option.some.inj same)

def minus (negative : Bool) : Text :=
  if negative then [.scalar '-'] else []

private theorem exponentPart_signed (power : Int) :
    ExponentPart (.scalar 'E' :: .scalar (if power < 0 then '-' else '+') ::
      Numeral.ofNat power.natAbs) (some power) := by
  have digits := digits_ofNat power.natAbs
  by_cases negative : power < 0
  · have part : ExponentPart (.scalar 'E' :: ([.scalar '-'] ++ Numeral.ofNat power.natAbs))
        (some (Json.signed true (Numeral.ofNat power.natAbs))) := .power (.inr rfl) .minus digits
    have same : Json.signed true (Numeral.ofNat power.natAbs) = power := by
      rw [Json.signed, if_pos rfl, Numeral.value_ofNat]
      omega
    rw [same] at part
    rwa [if_pos negative]
  · have part : ExponentPart (.scalar 'E' :: ([.scalar '+'] ++ Numeral.ofNat power.natAbs))
        (some (Json.signed false (Numeral.ofNat power.natAbs))) := .power (.inr rfl) .plus digits
    have same : Json.signed false (Numeral.ofNat power.natAbs) = power := by
      rw [Json.signed, if_neg Bool.false_ne_true, Numeral.value_ofNat]
      omega
    rw [same] at part
    rwa [if_neg negative]

namespace Decimal

/-- Filled up with zeros, the digits leave at least one in front of the point. -/
theorem wholePart_filled (number : Nat) {places : Nat} (positive : 0 < places) :
    WholePart ((List.replicate (places + 1 - (Numeral.ofNat number).length) (CodePoint.scalar '0') ++
      Numeral.ofNat number).take (max (places + 1) (Numeral.ofNat number).length - places)) := by
  by_cases short : (Numeral.ofNat number).length ≤ places
  · obtain ⟨more, count⟩ := Nat.exists_eq_add_of_le short
    left
    rw [max_eq_left (by omega), Nat.add_sub_cancel_left,
      show places + 1 - (Numeral.ofNat number).length = more + 1 by omega, List.replicate_succ]
    rfl
  · rw [max_eq_right (by omega),
      show places + 1 - (Numeral.ofNat number).length = 0 by omega, List.replicate_zero,
      List.nil_append]
    rcases wholePart_ofNat number with zero | ⟨digits, noZero⟩
    · rw [zero] at short
      exact absurd positive (by simpa using short)
    · obtain ⟨first, others, shape, _⟩ := digits.head
      obtain ⟨width, count⟩ := Nat.exists_eq_add_one.mpr
        (show 0 < (Numeral.ofNat number).length - places by omega)
      rw [shape] at digits noZero count ⊢
      rw [count, List.take_succ_cons]
      refine .inr ⟨⟨List.cons_ne_nil _ _, fun point member => ?_⟩, noZero⟩
      rcases List.mem_cons.mp member with rfl | later
      · exact digits.2 point List.mem_cons_self
      · exact digits.2 point (List.mem_cons_of_mem _ (List.mem_of_mem_take later))

/-- With a point, the digits in front of it and behind it are those of the coefficient,
possibly with zeros in front. -/
theorem pointed_parts (number : Nat) {places : Nat} (positive : 0 < places) :
    ∃ whole fraction, pointed (Numeral.ofNat number) places = whole ++ .scalar '.' :: fraction ∧
      WholePart whole ∧ Digits fraction ∧ fraction.length = places ∧
      Numeral.value (whole ++ fraction) = number := by
  have whole := wholePart_filled number positive
  generalize filledEq : List.replicate (places + 1 - (Numeral.ofNat number).length)
    (.scalar '0') ++ Numeral.ofNat number = filled at whole
  have width : filled.length = max (places + 1) (Numeral.ofNat number).length := by
    rw [← filledEq, List.length_append, List.length_replicate]
    omega
  have digits : ∀ point ∈ filled, point.isDigit = true := by
    intro point member
    rw [← filledEq] at member
    rcases List.mem_append.mp member with zero | digit
    · rw [List.eq_of_mem_replicate zero]
      rfl
    · exact Numeral.isDigit_ofNat number point digit
  have count : (filled.drop (filled.length - places)).length = places := by
    rw [List.length_drop]
    omega
  refine ⟨filled.take (filled.length - places), filled.drop (filled.length - places), ?_, ?_,
    ⟨?_, fun point member => digits point (List.mem_of_mem_drop member)⟩, count, ?_⟩
  · rw [pointed, if_neg (Nat.ne_of_gt positive), filledEq]
  · rwa [width]
  · intro none
    rw [none] at count
    exact absurd count (Nat.ne_of_lt positive)
  · rw [List.take_append_drop, ← filledEq, Numeral.value_zeros, Numeral.value_ofNat]

def mantissa : Text → Text
  | first :: second :: rest => first :: .scalar '.' :: second :: rest
  | short => short

theorem mantissa_parts (number : Nat) :
    ∃ first fractionText fraction, mantissa (Numeral.ofNat number) = [first] ++ fractionText ∧
      first.isDigit = true ∧ FractionPart fractionText fraction ∧
      first :: fraction = Numeral.ofNat number := by
  have digits := Numeral.isDigit_ofNat number
  obtain ⟨first, others, shape⟩ := List.exists_cons_of_ne_nil (Numeral.ofNat_ne_nil number)
  rw [shape] at digits ⊢
  obtain ⟨digit, behind⟩ := List.forall_mem_cons.mp digits
  cases others with
  | nil => exact ⟨first, [], [], rfl, digit, .none, rfl⟩
  | cons second rest =>
      exact ⟨first, .scalar '.' :: second :: rest, second :: rest, rfl, digit,
        .point ⟨List.cons_ne_nil _ _, behind⟩, rfl⟩

private theorem scientific_parts (number : Nat) (power : Int) :
    ∃ first fractionText fraction,
      scientific (Numeral.ofNat number) power = [first] ++ (fractionText ++
        .scalar 'E' :: .scalar (if power < 0 then '-' else '+') :: Numeral.ofNat power.natAbs) ∧
      first.isDigit = true ∧ FractionPart fractionText fraction ∧
      first :: fraction = Numeral.ofNat number := by
  obtain ⟨first, fractionText, fraction, shape, parts⟩ := mantissa_parts number
  exact ⟨first, fractionText, fraction, congrArg (· ++ _) shape, parts⟩

private theorem render_eq (number : Decimal) :
    number.render = minus number.negative ++
      if number.exponent ≤ 0 ∧ -6 ≤ number.adjusted then
        pointed (Numeral.ofNat number.coefficient) number.exponent.natAbs
      else scientific (Numeral.ofNat number.coefficient) number.adjusted := by
  unfold render minus
  cases number.negative <;> rfl

private theorem inRange_congr {left right : Decimal}
    (coefficient : left.coefficient = right.coefficient)
    (exponent : left.exponent = right.exponent) : left.inRange = right.inRange := by
  rw [inRange, inRange, adjusted, adjusted, coefficient, exponent]

end Decimal

/-! ## Notations as literals -/

private theorem digits_literal (negative : Bool) (number : Nat) :
    NumberLiteral (minus negative ++ Numeral.ofNat number)
      (numberOf negative (Numeral.ofNat number) [] none) := by
  have literal : NumberLiteral (minus negative ++ (Numeral.ofNat number ++ ([] ++ [])))
      (numberOf negative (Numeral.ofNat number) [] none) :=
    .parts (wholePart_ofNat number) .none .none
  rwa [List.append_nil, List.append_nil] at literal

private theorem not_mem_digits {negative : Bool} {number : Nat} {character : Char}
    (notMinus : character ≠ '-') (notDigit : character.isDigit = false) :
    .scalar character ∉ minus negative ++ Numeral.ofNat number := by
  intro member
  rcases List.mem_append.mp member with sign | digit
  · cases negative with
    | false => cases sign
    | true => exact notMinus (CodePoint.scalar.inj (List.mem_singleton.mp sign))
  · exact Json.ne_of_isDigit (Numeral.isDigit_ofNat number _ digit) notDigit rfl

private theorem ofInt_eq (value : Int) :
    Numeral.ofInt value = minus (decide (value < 0)) ++ Numeral.ofNat value.natAbs := by
  unfold Numeral.ofInt minus
  by_cases negative : value < 0 <;> simp [negative]

theorem integer_literal {value : Int} (writable : Numeral.isWritable value = true) :
    NumberLiteral (Numeral.ofInt value) (.integer value) := by
  have short : (Numeral.ofNat value.natAbs).length ≤ Numeral.mostDigits :=
    Numeral.length_ofNat_le (by decide) (Numeral.isWritable_iff.mp writable)
  have literal := digits_literal (decide (value < 0)) value.natAbs
  rw [numberOf, if_pos ⟨rfl, rfl, short⟩, Numeral.value_ofNat, ← ofInt_eq] at literal
  by_cases negative : value < 0
  · rwa [decide_eq_true negative, if_pos rfl, show -(value.natAbs : Int) = value by omega] at literal
  · rwa [decide_eq_false negative, if_neg Bool.false_ne_true,
      show (value.natAbs : Int) = value by omega] at literal

theorem kept_of_writable {value : Int} (writable : Numeral.isWritable value = true) :
    Kept (.integer value) := by
  refine @Decimal.inRange_of_width (Number.integer value).toDecimal Numeral.mostDigits (by decide)
    (Numeral.isWritable_iff.mp writable) ?_ ?_
  · simp only [Number.toDecimal, Decimal.largestAdjusted]
    omega
  · simp only [Number.toDecimal, Decimal.largestAdjusted, Numeral.mostDigits]
    omega

namespace Decimal

theorem render_of_exponent_zero {number : Decimal} (zero : number.exponent = 0) :
    number.render = minus number.negative ++ Numeral.ofNat number.coefficient := by
  have some := List.length_pos_iff.mpr (Numeral.ofNat_ne_nil number.coefficient)
  have positional : number.exponent ≤ 0 ∧ -6 ≤ number.adjusted := by
    rw [adjusted, zero]
    omega
  rw [render_eq, if_pos positional, zero]
  rfl

/-- Parts with a fraction, an exponent or too many digits denote the decimal that has
their digits and their power of ten. -/
theorem numberOf_eq_decimal {number : Decimal} {whole fraction : Text} {exponent : Option Int}
    (parts : fraction ≠ [] ∨ exponent ≠ none ∨ Numeral.mostDigits < whole.length)
    (coefficient : Numeral.value (whole ++ fraction) = number.coefficient)
    (power : exponent.getD 0 - fraction.length = number.exponent) :
    numberOf number.negative whole fraction exponent = .decimal number := by
  have kept : ¬ (fraction.isEmpty = true ∧ exponent.isNone = true ∧
      whole.length ≤ Numeral.mostDigits) := by
    rintro ⟨noFraction, noExponent, short⟩
    rcases parts with fractional | scaled | long
    · exact fractional (List.isEmpty_iff.mp noFraction)
    · exact scaled (Option.isNone_iff_eq_none.mp noExponent)
    · omega
  rw [numberOf, if_neg kept, coefficient, power]

/-- Without a point and an exponent, the number of digits decides about the form. -/
theorem restated_of_exponent_zero {number : Decimal} (zero : number.exponent = 0) :
    IsRestated (.decimal number) := by
  have literal := digits_literal number.negative number.coefficient
  have shape := render_of_exponent_zero zero
  have noPoint : .scalar '.' ∉ number.render := by
    rw [shape]
    exact not_mem_digits (by decide) (by decide)
  have noExponent : .scalar 'E' ∉ number.render := by
    rw [shape]
    exact not_mem_digits (by decide) (by decide)
  rw [← shape] at literal
  refine ⟨_, literal, ?_⟩
  by_cases short : (Numeral.ofNat number.coefficient).length ≤ Numeral.mostDigits
  · rw [numberOf, if_pos ⟨rfl, rfl, short⟩, Numeral.value_ofNat]
    constructor
    · refine fun kept => (inRange_congr ?_ zero.symm).trans kept
      change Int.natAbs _ = _
      split
      · exact Int.natAbs_neg _
      · rfl
    · refine .short noPoint noExponent zero short ?_
      rw [toRat, zero, zpow_zero, mul_one]
      split <;> simp
  · have same : numberOf number.negative (Numeral.ofNat number.coefficient) [] none =
        .decimal number := by
      refine numberOf_eq_decimal (.inr (.inr (Nat.lt_of_not_le short))) ?_ zero.symm
      rw [List.append_nil, Numeral.value_ofNat]
    rw [same]
    exact ⟨id, .long noPoint noExponent zero (Nat.lt_of_not_le short)⟩

private theorem restated_of_pointed {number : Decimal} (negative : number.exponent < 0)
    (near : -6 ≤ number.adjusted) : IsRestated (.decimal number) := by
  obtain ⟨whole, fraction, shape, wholePart, digits, places, value⟩ :=
    pointed_parts number.coefficient (show 0 < number.exponent.natAbs by omega)
  have power : (none : Option Int).getD 0 - fraction.length = number.exponent := by
    rw [places, Option.getD_none]
    omega
  have literal : NumberLiteral
      (minus number.negative ++ (whole ++ (.scalar '.' :: fraction ++ [])))
      (numberOf number.negative whole fraction none) := .parts wholePart (.point digits) .none
  rw [numberOf_eq_decimal (.inl digits.1) value power, List.append_nil] at literal
  have rendered : number.render = minus number.negative ++ (whole ++ .scalar '.' :: fraction) := by
    rw [render_eq, if_pos ⟨Int.le_of_lt negative, near⟩, shape]
  refine ⟨.decimal number, ?_, id, .decimal (.inl ?_)⟩
  · rwa [Number.render, rendered]
  · rw [rendered]
    simp

private theorem restated_of_scientific {number : Decimal}
    (far : ¬ (number.exponent ≤ 0 ∧ -6 ≤ number.adjusted)) : IsRestated (.decimal number) := by
  obtain ⟨first, fractionText, fraction, shape, digit, fractionPart, digits⟩ :=
    scientific_parts number.coefficient number.adjusted
  have power : (some number.adjusted).getD 0 - fraction.length = number.exponent := by
    rw [Option.getD_some, adjusted, ← digits, List.length_cons]
    omega
  have value : Numeral.value ([first] ++ fraction) = number.coefficient := by
    rw [List.singleton_append, digits, Numeral.value_ofNat]
  have literal : NumberLiteral
      (minus number.negative ++ ([first] ++ (fractionText ++ .scalar 'E' ::
        .scalar (if number.adjusted < 0 then '-' else '+') ::
          Numeral.ofNat number.adjusted.natAbs)))
      (numberOf number.negative [first] fraction (some number.adjusted)) :=
    .parts (wholePart_digit digit) fractionPart (exponentPart_signed number.adjusted)
  rw [numberOf_eq_decimal (.inr (.inl (Option.some_ne_none _))) value power] at literal
  have rendered := render_eq number
  rw [if_neg far, shape] at rendered
  refine ⟨.decimal number, ?_, id, .decimal (.inr ?_)⟩
  · rwa [Number.render, rendered]
  · rw [rendered]
    simp

theorem restated (number : Decimal) : IsRestated (.decimal number) := by
  by_cases zero : number.exponent = 0
  · exact restated_of_exponent_zero zero
  · by_cases positional : number.exponent ≤ 0 ∧ -6 ≤ number.adjusted
    · exact restated_of_pointed (by omega) positional.2
    · exact restated_of_scientific positional

end Decimal

/-- Every number that documents hold is restated. -/
theorem Number.restated {number : Number} (stored : Stored number) :
    ∃ again, NumberLiteral number.render again ∧ Kept again ∧ Restates number again := by
  cases number with
  | integer value =>
      exact ⟨_, integer_literal (stored.writable value rfl), stored.kept, .integer⟩
  | decimal value =>
      obtain ⟨again, literal, kept, restates⟩ := value.restated
      exact ⟨again, literal, kept stored.kept, restates⟩

/-! ## Numbers told by their notation -/

private theorem toRat_numberOf_digits (negative : Bool) (number : Nat) :
    (numberOf negative (Numeral.ofNat number) [] none).toRat =
      if negative then -(number : ℚ) else number := by
  unfold numberOf
  split
  · rw [Number.toRat_integer, Numeral.value_ofNat]
    cases negative <;> simp
  · rw [Number.toRat_decimal, Decimal.toRat, List.append_nil, Numeral.value_ofNat]
    simp

/-- The notation of any number is a literal for the same rational number, also where the
number has too many digits to be read back as an integer. -/
theorem Number.literal_render (number : Number) :
    ∃ again, NumberLiteral number.render again ∧ again.toRat = number.toRat := by
  cases number with
  | integer value =>
      have literal := digits_literal (decide (value < 0)) value.natAbs
      rw [← ofInt_eq] at literal
      refine ⟨_, literal, ?_⟩
      rw [toRat_numberOf_digits, toRat_integer]
      by_cases negative : value < 0
      · rw [decide_eq_true negative, if_pos rfl, Nat.cast_natAbs, abs_of_neg negative]
        simp
      · rw [decide_eq_false negative, if_neg Bool.false_ne_true, Nat.cast_natAbs,
          abs_of_nonneg (not_lt.mp negative)]
  | decimal value =>
      obtain ⟨again, literal, _, restates⟩ := value.restated
      exact ⟨again, literal, restates.toRat_eq.symm⟩

end JsonTemplate
