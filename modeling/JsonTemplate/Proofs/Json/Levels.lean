import JsonTemplate.Proofs.Json.Grammar

set_option autoImplicit false

/-!
# The levels of a document

Every array and every object takes a level of the reader's stack, and a number takes one or two.
`Fits` is the grammar with the levels that are left, from the outside to the inside.
-/

namespace JsonTemplate.Json

def isFractionMark (point : CodePoint) : Bool :=
  point = .scalar '.' || point = .scalar 'e' || point = .scalar 'E'

def literalLevels (literal : Text) : Nat :=
  if literal.any isFractionMark then 1 else 2

def scalarLevels (text : Text) : Json → Nat
  | .number _ => literalLevels text
  | _ => 0

def FitsScalar (levels : Nat) (text : Text) (value : Json) : Prop :=
  Scalar Kept text value ∧ scalarLevels text value ≤ levels

/-- A text spells a value that can be read with so many levels left. -/
def Fits : Nat → Text → Json → Prop
  | 0 => FitsScalar 0
  | levels + 1 => Layer (FitsScalar (levels + 1)) (Fits levels)

def FitsWhole (levels : Nat) (text : Text) (value : Json) : Prop :=
  ∃ before core after, text = before ++ (core ++ after) ∧
    Blank before ∧ Fits levels core value ∧ Blank after

/-- So many arrays and objects may stand around each other, whatever the scalars in them are. -/
def deepest : Nat := 990

theorem literalLevels_le (literal : Text) : literalLevels literal ≤ 2 := by
  unfold literalLevels
  split <;> decide

theorem scalarLevels_le (text : Text) (value : Json) : scalarLevels text value ≤ 2 := by
  cases value with
  | number => exact literalLevels_le text
  | _ => exact Nat.zero_le 2

theorem Fits.spells {levels : Nat} {text : Text} {value : Json} (fits : Fits levels text value) :
    Spells Kept levels text value := by
  induction levels generalizing text value with
  | zero => exact fits.1
  | succ levels ih => exact Layer.imp fits And.left ih

/-- Two levels more than there are arrays and objects around each other are enough. -/
theorem Spells.fits {depth levels : Nat} {text : Text} {value : Json}
    (spelled : Spells Kept depth text value) (enough : depth + 2 ≤ levels) :
    Fits levels text value := by
  induction depth generalizing levels text value with
  | zero =>
      obtain ⟨fewer, rfl⟩ := Nat.exists_eq_add_one.mpr (show 0 < levels by omega)
      exact .scalar ⟨spelled, Nat.le_trans (scalarLevels_le text value) (by omega)⟩
  | succ depth ih =>
      obtain ⟨fewer, rfl⟩ := Nat.exists_eq_add_one.mpr (show 0 < levels by omega)
      refine Layer.imp spelled (fun {text value} scalar => ⟨scalar, ?_⟩)
        fun inside => ih inside (by omega)
      exact Nat.le_trans (scalarLevels_le text value) (by omega)

theorem FitsScalar.fits {levels : Nat} {text : Text} {value : Json}
    (scalar : FitsScalar levels text value) : Fits levels text value := by
  cases levels with
  | zero => exact scalar
  | succ levels => exact .scalar scalar

theorem SpellsWhole.fits {text : Text} {value : Json}
    (spelled : SpellsWhole Kept deepest text value) : FitsWhole room text value := by
  obtain ⟨before, core, after, split, blankBefore, spelled, blankAfter⟩ := spelled
  exact ⟨before, core, after, split, blankBefore, spelled.fits (Nat.le_refl _), blankAfter⟩

theorem FitsWhole.spells {levels : Nat} {text : Text} {value : Json}
    (fits : FitsWhole levels text value) : SpellsWhole Kept levels text value := by
  obtain ⟨before, core, after, split, blankBefore, fits, blankAfter⟩ := fits
  exact ⟨before, core, after, split, blankBefore, fits.spells, blankAfter⟩

private theorem isFractionMark_of_isDigit {point : CodePoint} (digit : point.isDigit = true) :
    isFractionMark point = false := by
  simp only [isFractionMark, Bool.or_eq_false_iff, decide_eq_false_iff_not]
  exact ⟨⟨ne_of_isDigit digit (by decide), ne_of_isDigit digit (by decide)⟩,
    ne_of_isDigit digit (by decide)⟩

theorem Digits.any_isFractionMark {digits : Text} (all : ∀ point ∈ digits, point.isDigit = true) :
    digits.any isFractionMark = false := by
  rw [List.any_eq_false]
  intro point member
  rw [isFractionMark_of_isDigit (all point member)]
  exact Bool.false_ne_true

/-- A literal shows a fraction or an exponent exactly if it has one. -/
theorem any_isFractionMark {whole fractionText fraction exponentText : Text}
    {exponent : Option Int} (wholePart : WholePart whole)
    (fractionPart : FractionPart fractionText fraction)
    (exponentPart : ExponentPart exponentText exponent) :
    (whole ++ (fractionText ++ exponentText)).any isFractionMark =
      (!fraction.isEmpty || exponent.isSome) := by
  rw [List.any_append, List.any_append, Digits.any_isFractionMark wholePart.digits.2]
  cases fractionPart with
  | point all =>
      obtain ⟨first, rest, rfl, _⟩ := all.head
      rfl
  | none =>
      cases exponentPart with
      | none => rfl
      | power isLetter => rcases isLetter with rfl | rfl <;> rfl

end JsonTemplate.Json
