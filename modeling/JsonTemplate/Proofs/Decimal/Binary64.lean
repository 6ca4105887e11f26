import JsonTemplate.Decimal.Binary64
import JsonTemplate.Proofs.Decimal.Notation

set_option autoImplicit false

/-!
# Literals of binary64 numbers

The shortest notation of every finite number of the format is a number literal of documents. Its
digits and its exponent are within bounds that are far from what cannot be kept.
-/

namespace JsonTemplate

open Json (Digits WholePart FractionPart ExponentPart NumberLiteral Kept numberOf)

/-- Stripping makes a coefficient no longer, and moves at most its digits into the exponent. -/
theorem Decimal.strip_bounds {coefficient width : Nat} {exponent : Int}
    (bounded : coefficient < 10 ^ width) :
    (strip coefficient exponent).1 < 10 ^ width ∧
      min exponent 0 ≤ (strip coefficient exponent).2 ∧
      (strip coefficient exponent).2 ≤ max exponent 0 + width := by
  fun_induction strip coefficient exponent generalizing width with
  | case1 exponent =>
      exact ⟨bounded, by omega, by omega⟩
  | case2 coefficient exponent nonzero divisible ih =>
      cases width with
      | zero => omega
      | succ width =>
          obtain ⟨small, low, high⟩ := @ih width (by rw [pow_succ] at bounded; omega)
          refine ⟨small.trans (Nat.pow_lt_pow_right (by decide) (Nat.lt_succ_self width)), ?_, ?_⟩
          all_goals omega
  | case3 coefficient exponent nonzero last =>
      exact ⟨bounded, by omega, by omega⟩

namespace Binary64

namespace Magnitude

structure Bounded (magnitude : Magnitude) : Prop where
  significand : magnitude.significand < 2 ^ 53
  low : -1074 ≤ magnitude.power
  high : magnitude.power ≤ 971

private theorem bounded_of_form {number : Float} {negative : Bool} {magnitude : Magnitude}
    (finite : form number = .finite negative magnitude) : magnitude.Bounded := by
  unfold form at finite
  simp only [Nat.pow_eq] at finite
  split at finite
  · split at finite <;> cases finite
  split at finite
  · cases finite
    constructor <;> dsimp only <;> omega
  · cases finite
    constructor <;> dsimp only <;> omega

variable {magnitude : Magnitude}

theorem Bounded.scaled (bounded : magnitude.Bounded) :
    magnitude.scaled.1 < 10 ^ 1080 ∧ magnitude.scaled.2 < 10 ^ 1080 := by
  obtain ⟨significand, low, high⟩ := bounded
  have large : ∀ {power width : Nat}, power < width → 2 ^ power < 10 ^ width := fun few =>
    (Nat.pow_le_pow_left (by decide) _).trans_lt (Nat.pow_lt_pow_right (by decide) few)
  unfold Magnitude.scaled
  simp only [Nat.pow_eq]
  split
  · refine ⟨?_, @large 2 _ (by decide)⟩
    calc 4 * magnitude.significand * 2 ^ magnitude.power.toNat
        ≤ 2 ^ 55 * 2 ^ magnitude.power.toNat := Nat.mul_le_mul_right _ (by omega)
      _ = 2 ^ (55 + magnitude.power.toNat) := (pow_add 2 55 _).symm
      _ < 10 ^ 1080 := large (by omega)
  · constructor
    · calc 4 * magnitude.significand ≤ 2 ^ 55 := by omega
        _ < 10 ^ 1080 := large (by decide)
    · calc 4 * 2 ^ magnitude.power.natAbs = 2 ^ (2 + magnitude.power.natAbs) :=
            (pow_add 2 2 _).symm
        _ < 10 ^ 1080 := large (by omega)

private theorem leadingPower_bounds {numerator denominator width : Nat} (some : 0 < width)
    (small : numerator < 10 ^ width) (few : denominator < 10 ^ width) :
    -(width : Int) - 1 ≤ leadingPower numerator denominator ∧
      leadingPower numerator denominator ≤ width := by
  have quotient : ∀ {left right : Nat}, left < 10 ^ width →
      (Numeral.ofNat (left / right)).length ≤ width := fun bounded =>
    Numeral.length_ofNat_le some ((Nat.div_le_self _ _).trans_lt bounded)
  have larger := @quotient numerator denominator small
  have smaller := @quotient denominator numerator few
  unfold leadingPower
  dsimp only
  split
  · omega
  · split <;> omega

private theorem onGrid_le (magnitude : Magnitude) (exponent : Int) :
    (magnitude.onGrid exponent).1 ≤ magnitude.scaled.1 * 10 ^ exponent.natAbs := by
  have grown : magnitude.scaled.1 ≤ magnitude.scaled.1 * 10 ^ exponent.natAbs :=
    Nat.le_mul_of_pos_right _ (Nat.pow_pos (by decide))
  unfold onGrid
  dsimp only
  split
  · exact (Nat.div_le_self _ _).trans grown
  · exact Nat.div_le_self _ _

/-- Every try is a multiple of a power of ten next to the number. -/
theorem shortestFrom_bounds (magnitude : Magnitude) (leading : Int) (tries digits : Nat) :
    ∃ places, places ≤ digits + tries ∧
      (magnitude.shortestFrom leading tries digits).2 = leading - places ∧
      (magnitude.shortestFrom leading tries digits).1 ≤
        magnitude.scaled.1 * 10 ^ (leading - places).natAbs + 1 := by
  induction tries generalizing digits with
  | zero =>
      have lower := magnitude.onGrid_le (leading - digits)
      refine ⟨digits, le_rfl, rfl, ?_⟩
      rw [shortestFrom]
      dsimp only
      split <;> omega
  | succ tries ih =>
      have lower := magnitude.onGrid_le (leading - digits)
      obtain ⟨places, few, exponent, small⟩ := ih (digits + 1)
      rw [shortestFrom]
      dsimp only
      split_ifs
      all_goals first
        | exact ⟨digits, by omega, rfl, by omega⟩
        | exact ⟨places, by omega, exponent, small⟩

private theorem shortest_bounds {width : Nat} (some : 0 < width)
    (small : magnitude.scaled.1 < 10 ^ width)
    (few : magnitude.scaled.2 < 10 ^ width) :
    magnitude.shortest.1 < 10 ^ (2 * width + 18) ∧ -(width : Int) - 17 ≤ magnitude.shortest.2 ∧
      magnitude.shortest.2 ≤ 3 * width + 18 := by
  obtain ⟨low, high⟩ := leadingPower_bounds some small few
  rw [shortest]
  dsimp only
  split
  · exact ⟨Nat.pow_pos (by decide), by dsimp only; omega, by dsimp only; omega⟩
  · generalize leadingPower magnitude.scaled.1 magnitude.scaled.2 = leading at low high
    obtain ⟨places, fewPlaces, exponent, coefficient⟩ :=
      magnitude.shortestFrom_bounds leading 16 0
    have bounded : (magnitude.shortestFrom leading 16 0).1 < 10 ^ (2 * width + 18) := by
      calc (magnitude.shortestFrom leading 16 0).1
          ≤ magnitude.scaled.1 * 10 ^ (leading - places).natAbs + 1 := coefficient
        _ ≤ (magnitude.scaled.1 + 1) * 10 ^ (leading - places).natAbs := by
          rw [Nat.succ_mul]
          exact Nat.add_le_add_left (Nat.pow_pos (by decide)) _
        _ ≤ 10 ^ width * 10 ^ (width + 17) :=
          Nat.mul_le_mul small (Nat.pow_le_pow_right (by decide) (by omega))
        _ = 10 ^ (2 * width + 17) := by rw [← pow_add]; congr 1; omega
        _ < 10 ^ (2 * width + 18) := Nat.pow_lt_pow_right (by decide) (Nat.lt_succ_self _)
    obtain ⟨fewDigits, least, most⟩ :=
      @Decimal.strip_bounds _ _ (magnitude.shortestFrom leading 16 0).2 bounded
    exact ⟨fewDigits, by omega, by omega⟩

theorem Bounded.shortest (bounded : magnitude.Bounded) :
    ∃ width, 0 < width ∧ width ≤ 10000 ∧ magnitude.shortest.1 < 10 ^ width ∧
      -10000 ≤ magnitude.shortest.2 ∧ magnitude.shortest.2 ≤ 10000 := by
  obtain ⟨small, few⟩ := bounded.scaled
  obtain ⟨coefficient, low, high⟩ := shortest_bounds (by decide) small few
  exact ⟨_, by decide, by decide, coefficient, by omega, by omega⟩

private theorem shortest_zero (none : magnitude.shortest.1 = 0) : magnitude.shortest.2 = 0 := by
  unfold shortest at none ⊢
  dsimp only at none ⊢
  split
  · rfl
  · next nonzero =>
      rw [if_neg nonzero] at none
      rcases Decimal.strip_reduced _ _ with zero | last
      · rw [zero]
      · rw [none] at last
        exact absurd rfl last

end Magnitude

/-! ## The shortest notation -/

private theorem pointed_literal {whole fraction : Text} {width : Nat} (negative : Bool)
    (wholePart : WholePart whole) (digits : Digits fraction)
    (bounded : Numeral.value (whole ++ fraction) < 10 ^ width) (some : 0 < width)
    (few : width ≤ 10000) (short : fraction.length ≤ 10000) :
    ∃ value, NumberLiteral (minus negative ++ (whole ++ .scalar '.' :: fraction)) value ∧
      Kept value := by
  have literal : NumberLiteral (minus negative ++ (whole ++ (.scalar '.' :: fraction ++ [])))
      (numberOf negative whole fraction none) := .parts wholePart (.point digits) .none
  rw [@Decimal.numberOf_eq_decimal
    ⟨negative, Numeral.value (whole ++ fraction), -(fraction.length : Int)⟩ _ _ none
    (.inl digits.1) rfl (by simp), List.append_nil] at literal
  refine ⟨_, literal, Decimal.inRange_of_width some bounded ?_ ?_⟩
  · simp only [Number.toDecimal, Decimal.largestAdjusted]
    omega
  · simp only [Number.toDecimal, Decimal.largestAdjusted]
    omega

private theorem wholePart_zeros {number zeros : Nat} (plain : number = 0 → zeros = 0) :
    WholePart (Numeral.ofNat number ++ List.replicate zeros (.scalar '0')) := by
  rcases Nat.eq_zero_or_pos number with rfl | positive
  · rw [plain rfl, List.replicate_zero, List.append_nil]
    exact wholePart_ofNat 0
  · obtain ⟨first, others, shape⟩ := List.exists_cons_of_ne_nil (Numeral.ofNat_ne_nil number)
    refine .inr ⟨⟨by simp [shape], fun point member => ?_⟩, ?_⟩
    · rcases List.mem_append.mp member with digit | zero
      · exact Numeral.isDigit_ofNat number point digit
      · rw [List.eq_of_mem_replicate zero]
        rfl
    · have front := Numeral.head?_ofNat positive
      rw [shape] at front ⊢
      exact front

private theorem padded_digits (width number : Nat) :
    Digits (Numeral.padded width number) ∧
      Numeral.value (Numeral.padded width number) = number := by
  refine ⟨⟨?_, Numeral.isDigit_padded width number⟩, Numeral.value_padded width number⟩
  simp [Numeral.padded, Numeral.ofNat_ne_nil]

private theorem exponentPart_padded (power : Int) :
    ExponentPart (lit (if power < 0 then "e-" else "e+") ++ Numeral.padded 2 power.natAbs)
      (some power) := by
  obtain ⟨digits, value⟩ := padded_digits 2 power.natAbs
  by_cases negative : power < 0
  · have part : ExponentPart (.scalar 'e' :: ([.scalar '-'] ++ Numeral.padded 2 power.natAbs))
        (some (Json.signed true (Numeral.padded 2 power.natAbs))) := .power (.inl rfl) .minus digits
    have same : Json.signed true (Numeral.padded 2 power.natAbs) = power := by
      rw [Json.signed, if_pos rfl, value]
      omega
    rw [same] at part
    rw [if_pos negative]
    exact part
  · have part : ExponentPart (.scalar 'e' :: ([.scalar '+'] ++ Numeral.padded 2 power.natAbs))
        (some (Json.signed false (Numeral.padded 2 power.natAbs))) := .power (.inl rfl) .plus digits
    have same : Json.signed false (Numeral.padded 2 power.natAbs) = power := by
      rw [Json.signed, if_neg Bool.false_ne_true, value]
      omega
    rw [same] at part
    rw [if_neg negative]
    exact part

private theorem scientific_literal {number width : Nat} {exponent : Int} (negative : Bool)
    (bounded : number < 10 ^ width) (some : 0 < width) (few : width ≤ 10000)
    (low : -10000 ≤ exponent) (high : exponent ≤ 10000) :
    let leading := exponent + (Numeral.ofNat number).length - 1
    ∃ value, NumberLiteral (minus negative ++ (Decimal.mantissa (Numeral.ofNat number) ++
        lit (if leading < 0 then "e-" else "e+") ++ Numeral.padded 2 leading.natAbs)) value ∧
      Kept value := by
  intro leading
  obtain ⟨first, fractionText, fraction, shape, digit, fractionPart, digits⟩ :=
    Decimal.mantissa_parts number
  have literal := @NumberLiteral.parts negative _ _ _ _ _ (wholePart_digit digit) fractionPart
    (exponentPart_padded leading)
  have same : Numeral.value ([first] ++ fraction) = number := by
    rw [List.singleton_append, digits, Numeral.value_ofNat]
  have power : (Option.some leading).getD 0 - fraction.length = exponent := by
    have long : (Numeral.ofNat number).length = fraction.length + 1 := by rw [← digits]; rfl
    simp only [Option.getD_some, leading, long]
    omega
  rw [@Decimal.numberOf_eq_decimal ⟨negative, number, exponent⟩ _ _ _
    (.inr (.inl (Option.some_ne_none _))) same power] at literal
  refine ⟨.decimal ⟨negative, number, exponent⟩, ?_, ?_⟩
  · rw [shape, List.append_assoc, List.append_assoc]
    exact literal
  · refine @Decimal.inRange_of_width ⟨negative, number, exponent⟩ _ some bounded ?_ ?_
    · simp only [Decimal.largestAdjusted]
      omega
    · simp only [Decimal.largestAdjusted]
      omega

/-- The notation of a magnitude, with a sign or without, is a literal of a number that is kept. -/
theorem magnitudeText_literal {magnitude : Magnitude} (bounded : magnitude.Bounded)
    (negative : Bool) :
    ∃ value, NumberLiteral (minus negative ++ magnitudeText magnitude) value ∧ Kept value := by
  obtain ⟨width, some, few, coefficient, low, high⟩ := bounded.shortest
  have zero := @Magnitude.shortest_zero magnitude
  have long := Numeral.length_ofNat_le some coefficient
  unfold magnitudeText
  generalize magnitude.shortest = shortest at *
  obtain ⟨number, exponent⟩ := shortest
  dsimp only at *
  split
  · exact pointed_literal negative (wholePart_digit (by decide)) ⟨by decide, by decide⟩
      (show Numeral.value (lit "0" ++ lit "0") < 10 ^ 1 by decide) (by decide) (by decide)
      (by decide)
  split
  · split
    · have whole := @wholePart_zeros number exponent.toNat fun none => by rw [zero none]; rfl
      have digits : Digits [.scalar '0'] := ⟨by decide, by decide⟩
      have all := Numeral.value_lt (List.forall_mem_append.mpr ⟨whole.digits.2, digits.2⟩)
      simp only [List.length_append, List.length_replicate, List.length_singleton] at all
      exact pointed_literal negative whole digits all (by omega) (by omega) (by decide)
    · obtain ⟨whole, fraction, shape, wholePart, digits, places, value⟩ :=
        Decimal.pointed_parts number (show 0 < exponent.natAbs by omega)
      rw [← value] at coefficient
      rw [shape]
      exact pointed_literal negative wholePart digits coefficient some few (by omega)
  · exact scientific_literal negative coefficient some few low high

theorem text_literal (words : Words) {number : Float} {negative : Bool} {magnitude : Magnitude}
    (finite : form number = .finite negative magnitude) :
    ∃ value, NumberLiteral (text words number) value ∧ Kept value := by
  have literal := magnitudeText_literal (Magnitude.bounded_of_form finite) negative
  cases negative <;> simpa [text, finite, minus] using literal

end Binary64

end JsonTemplate
