import JsonTemplate.Proofs.Bindings
import JsonTemplate.Proofs.Decimal.Value
import JsonTemplate.Proofs.Json.Printer
import Mathlib.Data.List.Induction
import Mathlib.Tactic.FieldSimp

set_option autoImplicit false

/-!
# What the parts of a document denote

The number of a literal, the text of escaped pairs and the members of an object with repeated keys,
each told without the reader.
-/

namespace JsonTemplate

/-- The keys of bindings stand in the order in which they occur first. -/
theorem Bindings.map_fst_ofList {α : Type} (entries : List (Text × α)) :
    (ofList entries).map Prod.fst = (entries.map Prod.fst).eraseDups := by
  induction entries using List.reverseRecOn with
  | nil => rfl
  | append_singleton entries entry ih =>
      have last : ofList (entries ++ [entry]) = set entry.1 entry.2 (ofList entries) := by
        rw [ofList, setAll, List.foldl_append]
        rfl
      rw [last, map_fst_set, ih, List.map_append, List.map_singleton, eraseDups_concat]

/-- The value of a key is the one that was given last. -/
theorem Bindings.lookup_ofList {α : Type} (entries : List (Text × α)) (key : Text) :
    (ofList entries).lookup key = entries.reverse.lookup key := by
  rw [ofList, lookup_setAll]
  exact Option.or_none

private theorem CodePoint.ofNat_valid {number : Nat} (valid : number.isValidChar) :
    ∃ character : Char, ofNat number = .scalar character ∧ character.toNat = number :=
  ⟨Char.ofNatAux number valid, dif_pos valid, rfl⟩

namespace Json

/-! ## Numbers -/

/-- The rational number that a sign, digits before and behind a point and an exponent denote. -/
def denoted (negative : Bool) (whole fraction : Text) (exponent : Option Int) : ℚ :=
  (if negative then -1 else 1) *
    (Numeral.value whole + Numeral.value fraction / 10 ^ fraction.length) * 10 ^ exponent.getD 0

theorem toRat_numberOf (negative : Bool) (whole fraction : Text) (exponent : Option Int) :
    (numberOf negative whole fraction exponent).toRat =
      denoted negative whole fraction exponent := by
  unfold numberOf denoted
  split
  · next plain =>
      obtain ⟨noFraction, noExponent, _⟩ := plain
      rw [List.isEmpty_iff] at noFraction
      rw [Option.isNone_iff_eq_none] at noExponent
      subst noFraction noExponent
      rw [Number.toRat_integer]
      cases negative <;> simp [Numeral.value]
  · have power : (10 : ℚ) ^ fraction.length ≠ 0 := pow_ne_zero _ (by norm_num)
    rw [Number.toRat_decimal, Decimal.toRat, Numeral.value_append, zpow_sub₀ (by norm_num),
      zpow_natCast]
    push_cast
    cases negative
    · simp only [Bool.false_eq_true, if_false]
      field_simp
    · simp only [if_true]
      field_simp

inductive Denotes : Text → ℚ → Prop where
  | parts {negative : Bool} {whole fractionText fraction exponentText : Text}
      {exponent : Option Int} :
      WholePart whole → FractionPart fractionText fraction → ExponentPart exponentText exponent →
      Denotes
        ((if negative then [.scalar '-'] else []) ++ (whole ++ (fractionText ++ exponentText)))
        (denoted negative whole fraction exponent)

/-- The number that is read from a literal has the value that the literal denotes. -/
theorem denotes_iff {text : Text} {value : ℚ} :
    Denotes text value ↔ ∃ number, NumberLiteral text number ∧ number.toRat = value := by
  constructor
  · intro denotes
    cases denotes with
    | parts whole fraction exponent =>
        exact ⟨_, .parts whole fraction exponent, toRat_numberOf _ _ _ _⟩
  · intro ⟨number, literal, same⟩
    subst same
    cases literal with
    | parts whole fraction exponent =>
        rw [toRat_numberOf]
        exact .parts whole fraction exponent

/-! ## Pairs of code units -/

def Paired (high low : CodePoint) : Prop :=
  high.isHighSurrogate = true ∧ low.isLowSurrogate = true

theorem joinPairs_pair {high low : CodePoint} (paired : Paired high low) (after : List Piece) :
    joinPairs (.unit high :: .unit low :: after) =
      CodePoint.joinSurrogates high low :: joinPairs after := by
  rw [joinPairs, paired.1, paired.2]
  rfl

theorem joinPairs_alone {piece : Piece} {after : List Piece}
    (alone : ∀ high low rest, piece :: after = .unit high :: .unit low :: rest →
      ¬ Paired high low) :
    joinPairs (piece :: after) = piece.point :: joinPairs after := by
  rw [joinPairs.eq_def]
  split
  · next high low rest shape =>
      obtain ⟨rfl, rfl⟩ := List.cons.inj shape
      have apart : (high.isHighSurrogate && low.isLowSurrogate) = false := by
        rw [Bool.eq_false_iff, ne_eq, Bool.and_eq_true]
        exact alone high low rest rfl
      rw [if_neg (by rw [apart]; exact Bool.false_ne_true)]
      rfl
  · next shape =>
      obtain ⟨rfl, rfl⟩ := List.cons.inj shape
      rfl
  · next shape => cases shape

theorem not_low_of_high {high : CodePoint} (first : high.isHighSurrogate = true) :
    high.isLowSurrogate = false := by
  cases high with
  | scalar => cases first
  | surrogate offset =>
      have small : offset.val < 0x400 := of_decide_eq_true first
      exact decide_eq_false (Nat.not_le.mpr small)

/-- Nothing is joined across the front of the first half of a pair. -/
theorem joinPairs_append_high (before : List Piece) {high : CodePoint}
    (first : high.isHighSurrogate = true) (after : List Piece) :
    joinPairs (before ++ .unit high :: after) =
      joinPairs before ++ joinPairs (.unit high :: after) := by
  have notLow := not_low_of_high first
  -- The first half of a pair is no second half, so what stands before it cannot take it.
  fun_induction joinPairs before with
  | case1 left right rest joined ih =>
      have paired : Paired left right := Bool.and_eq_true_iff.mp joined
      rw [List.cons_append, List.cons_append, joinPairs_pair paired, ih, List.cons_append]
  | case2 left right rest apart ih =>
      rw [List.cons_append, List.cons_append, joinPairs_alone, ← List.cons_append, ih,
        List.cons_append]
      · rfl
      · intro other next behind same paired
        cases same
        exact apart (Bool.and_eq_true_iff.mpr paired)
  | case3 piece rest single ih =>
      rw [List.cons_append, joinPairs_alone, ih, List.cons_append]
      intro left right behind same paired
      cases rest with
      | nil =>
          cases same
          rw [paired.2] at notLow
          cases notLow
      | cons second others =>
          cases same
          exact single _ _ _ rfl rfl
  | case4 => rfl

theorem joinPairs_of_no_pair {read : List Piece}
    (alone : ∀ before high low after, read = before ++ .unit high :: .unit low :: after →
      ¬ Paired high low) : joinPairs read = read.map Piece.point := by
  induction read with
  | nil => rfl
  | cons piece rest ih =>
      rw [joinPairs_alone fun high low after same => alone [] high low after same, ih,
        List.map_cons]
      rintro before high low after rfl
      exact alone (piece :: before) high low after rfl

/-- The code point of a pair lies beyond the sixteen bits of its halves. -/
theorem joinSurrogates_eq {high low : CodePoint} (paired : Paired high low) :
    ∃ character : Char, CodePoint.joinSurrogates high low = .scalar character ∧
      character.toNat = 0x10000 + (high.value - 0xD800) * 0x400 + (low.value - 0xDC00) := by
  obtain ⟨first, second⟩ := paired
  cases high with
  | scalar => cases first
  | surrogate left =>
      cases low with
      | scalar => cases second
      | surrogate right =>
          have small : left.val < 0x400 := of_decide_eq_true first
          have bound := right.isLt
          refine CodePoint.ofNat_valid ?_
          simp only [CodePoint.value, Nat.isValidChar]
          omega

end Json

end JsonTemplate
