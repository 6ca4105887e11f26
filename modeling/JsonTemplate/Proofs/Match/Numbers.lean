import JsonTemplate.Proofs.Json.Meaning
import JsonTemplate.Proofs.Json.Telling
import JsonTemplate.Proofs.Match.PlaceholderFree

set_option autoImplicit false

/-!
# Matching numbers

Two number literals match exactly when they denote the same rational number, in whatever form and
at whatever size each is written. Otherwise the only difference shows both numbers as literals that
denote them.
-/

namespace JsonTemplate

private theorem placeholderFree_number (number : Number) : PlaceholderFree (.number number) := by
  intro text placeholder leaf
  cases leaf

namespace Json

private theorem denotes_render (number : Number) :
    Denotes (render (.number number)) number.toRat := by
  rw [render_number]
  exact denotes_iff.mpr number.literal_render

/-- A literal that is read is read as a number with the value that it denotes. -/
theorem Denotes.read {text : Text} {value : ℚ} (denotes : Denotes text value)
    {source : Option Text} {found : Json}
    (accepted : (Document.text text).read source = .ok found) :
    ∃ number, found = .number number ∧ number.toRat = value := by
  obtain ⟨number, literal, same⟩ := denotes_iff.mp denotes
  obtain ⟨read, _⟩ := (readText_number_iff literal).mp (read_text_eq_ok_iff.mp accepted)
  exact ⟨number, read, same⟩

end Json

namespace Comparison

private theorem findings_number (mode : Mode) (path : Path) (wanted found : Number) :
    findings mode path (Template.literal (.number wanted)) (.number found) =
      if wanted.toRat = found.toRat then []
      else [.difference ⟨path, .value (.number wanted) (.number found)⟩] := by
  have scalar : (Template.literal (.number wanted)).kind.IsScalar := ⟨nofun, nofun⟩
  rw [findings_eq_leafFindings mode path (literal_not_capture _) (.inl scalar)]
  split
  · next equal => exact leafFindings_of_same path (.number equal)
  · next unequal =>
      refine leafFindings_of_not_same path rfl scalar fun same => unequal ?_
      cases same with
      | number equal => exact equal

end Comparison

namespace Match

variable {σ : Type}

/-- An exact match of two number literals that can be read succeeds exactly when they denote the
same number. Otherwise it reports one value mismatch at the root, and both of its texts are
literals, one for each of the two numbers. -/
theorem run_number_literals (registry : Registry σ) (config : MatchConfig) {first second : Text}
    {left right : ℚ} {firstLabel secondLabel : Option Text} {wanted found : Json}
    (firstDenotes : Json.Denotes first left) (secondDenotes : Json.Denotes second right)
    (readFirst : (Document.text first).read firstLabel = .ok wanted)
    (readSecond : (Document.text second).read secondLabel = .ok found) (world : σ) :
    ∃ result, run registry config .exact (.text first) (.text second) world =
        (.ok result, world) ∧
      result.captures = [] ∧ (result.success = true ↔ left = right) ∧
      (left ≠ right → ∃ mismatch expectedText actualText,
        result.differences = [⟨[], mismatch⟩] ∧ mismatch.word = lit "VALUE_MISMATCH" ∧
        mismatch.expectedText? = some expectedText ∧ Json.Denotes expectedText left ∧
        mismatch.actualText? = some actualText ∧ Json.Denotes actualText right) := by
  obtain ⟨wanted, rfl, leftValue⟩ := firstDenotes.read readFirst
  obtain ⟨found, rfl, rightValue⟩ := secondDenotes.read readSecond
  have ran := run_literal registry config .exact readFirst readSecond
    (placeholderFree_number wanted) world
  rw [Comparison.findings_number, leftValue, rightValue] at ran
  refine ⟨_, ran, rfl, ?_, ?_⟩
  · by_cases equal : left = right
    · rw [if_pos equal]
      exact iff_of_true rfl equal
    · rw [if_neg equal]
      exact iff_of_false Bool.false_ne_true equal
  · intro unequal
    refine ⟨.value (.number wanted) (.number found), _, _, ?_, rfl, rfl, ?_, rfl, ?_⟩
    · rw [if_neg unequal]
      rfl
    · exact leftValue ▸ Json.denotes_render wanted
    · exact rightValue ▸ Json.denotes_render found

/-- One number beyond any size that could be written out, with two coefficients. -/
theorem run_number_literals_beyond_writing :
    ∃ result, run Registry.empty .default .exact (.text (lit "10e999999999999999998"))
        (.text (lit "1E+999999999999999999")) () = (.ok result, ()) ∧
      result.captures = [] ∧ result.success = true := by
  have digits : ∀ {digits : Text}, digits ≠ [] → digits.all CodePoint.isDigit = true →
      Json.Digits digits :=
    fun some all => ⟨some, List.all_eq_true.mp all⟩
  have first : Json.NumberLiteral (lit "10e999999999999999998")
      (.decimal ⟨false, 10, 999999999999999998⟩) := by
    exact @Json.NumberLiteral.parts false (lit "10") [] [] _ _
      (.inr ⟨digits (by decide) (by decide), by decide⟩) .none
      (.power (.inl rfl) .none (digits (by decide) (by decide)))
  have second : Json.NumberLiteral (lit "1E+999999999999999999")
      (.decimal ⟨false, 1, 999999999999999999⟩) := by
    exact @Json.NumberLiteral.parts false (lit "1") [] [] _ _
      (.inr ⟨digits (by decide) (by decide), by decide⟩) .none
      (.power (.inr rfl) .plus (digits (by decide) (by decide)))
  have ten : Numeral.ofNat 10 = lit "10" := by cbv
  have one : Numeral.ofNat 1 = lit "1" := by cbv
  have readFirst : (Document.text (lit "10e999999999999999998")).read none =
      .ok (.number (.decimal ⟨false, 10, 999999999999999998⟩)) := by
    apply Json.read_text_eq_ok_iff.mpr
    refine (Json.readText_number_iff first).mpr ⟨rfl, ?_⟩
    rw [Json.Kept, Number.toDecimal, Decimal.inRange, Decimal.adjusted, ten]
    decide
  have readSecond : (Document.text (lit "1E+999999999999999999")).read none =
      .ok (.number (.decimal ⟨false, 1, 999999999999999999⟩)) := by
    apply Json.read_text_eq_ok_iff.mpr
    refine (Json.readText_number_iff second).mpr ⟨rfl, ?_⟩
    rw [Json.Kept, Number.toDecimal, Decimal.inRange, Decimal.adjusted, one]
    decide
  obtain ⟨result, ran, nothing, succeeds, _⟩ :=
    run_number_literals Registry.empty .default (Json.denotes_iff.mpr ⟨_, first, rfl⟩)
      (Json.denotes_iff.mpr ⟨_, second, rfl⟩) readFirst readSecond ()
  refine ⟨result, ran, nothing, succeeds.mpr ?_⟩
  rw [Number.toRat_decimal, Number.toRat_decimal, Decimal.toRat, Decimal.toRat]
  have power : (10 : ℚ) ^ (999999999999999999 : ℤ) = 10 * 10 ^ (999999999999999998 : ℤ) :=
    zpow_one_add₀ (by norm_num) 999999999999999998
  simp [power]

end Match

end JsonTemplate
