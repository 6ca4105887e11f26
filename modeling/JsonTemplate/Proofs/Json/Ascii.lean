import JsonTemplate.Json.Ascii
import JsonTemplate.Proofs.Json.Meaning

set_option autoImplicit false

/-!
# String literals in ASCII

Every text has a literal in ASCII. A code point beyond the first 65536 is written as a pair of code
units and read back from it; so two surrogates of the text that could be such a pair are joined.
-/

namespace JsonTemplate.Json

def rejoin (text : Text) : Text :=
  joinPairs (text.map .unit)

private theorem joinPairs_not_low {high : CodePoint} {piece : Piece}
    (other : ∀ low, piece = .unit low → low.isLowSurrogate = false) (after : List Piece) :
    joinPairs (.unit high :: piece :: after) = high :: joinPairs (piece :: after) := by
  refine joinPairs_alone fun first low rest same paired => ?_
  cases same
  rw [Paired, other low rfl] at paired
  cases paired.2

private theorem joinPairs_not_high {piece : Piece} (single : piece.Single) (after : List Piece) :
    joinPairs (piece :: after) = piece.point :: joinPairs after := by
  refine joinPairs_alone fun high low rest same paired => ?_
  cases same
  rw [Piece.Single, paired.1] at single
  cases single

theorem rejoin_not_high {point : CodePoint} (single : point.isHighSurrogate = false) (text : Text) :
    rejoin (point :: text) = point :: rejoin text :=
  @joinPairs_not_high (.unit point) single (text.map .unit)

private theorem rejoin_not_low {point : CodePoint} (other : point.isLowSurrogate = false)
    (high : CodePoint) (text : Text) :
    rejoin (high :: point :: text) = high :: rejoin (point :: text) := by
  refine joinPairs_not_low (fun low same => ?_) (text.map .unit)
  cases same
  exact other

/-- The pieces of a literal for a text. Each code point has a piece of its own, or two that make a
pair. -/
inductive Written : Text → List Piece → Prop where
  | nil : Written [] []
  | plain {character : Char} {text : Text} {pieces : List Piece} :
      Written text pieces → Written (.scalar character :: text) (.plain (.scalar character) :: pieces)
  | unit {point : CodePoint} {text : Text} {pieces : List Piece} :
      Written text pieces → Written (point :: text) (.unit point :: pieces)
  | pair {high low : CodePoint} {text : Text} {pieces : List Piece} :
      Paired high low → Written text pieces →
      Written (CodePoint.joinSurrogates high low :: text) (.unit high :: .unit low :: pieces)

/-- The pieces denote the text with its pairs joined, also behind one more code unit. -/
theorem Written.joinPairs_eq {text : Text} {pieces : List Piece} (written : Written text pieces) :
    joinPairs pieces = rejoin text ∧
      ∀ high, joinPairs (.unit high :: pieces) = rejoin (high :: text) := by
  induction written with
  | nil => exact ⟨rfl, fun _ => rfl⟩
  | @plain character text pieces _ ih =>
      have here : joinPairs (.plain (.scalar character) :: pieces) =
          rejoin (.scalar character :: text) := by
        rw [@joinPairs_not_high (.plain _) trivial, rejoin_not_high rfl, ih.1]
        rfl
      refine ⟨here, fun high => ?_⟩
      rw [joinPairs_not_low (by rintro _ ⟨⟩), rejoin_not_low rfl, here]
  | @unit point text pieces _ ih =>
      refine ⟨ih.2 point, fun high => ?_⟩
      by_cases paired : Paired high point
      · rw [joinPairs_pair paired, ih.1]
        exact (joinPairs_pair paired _).symm
      · have alone : ∀ after : List Piece, joinPairs (.unit high :: .unit point :: after) =
            high :: joinPairs (.unit point :: after) := by
          intro after
          refine joinPairs_alone fun first second rest same other => ?_
          cases same
          exact paired other
        rw [alone, ih.2 point]
        exact (alone _).symm
  | @pair high low text pieces paired _ ih =>
      obtain ⟨character, joined, _⟩ := joinSurrogates_eq paired
      have here : joinPairs (.unit high :: .unit low :: pieces) =
          rejoin (CodePoint.joinSurrogates high low :: text) := by
        rw [joinPairs_pair paired, joined, rejoin_not_high rfl, ih.1]
      refine ⟨here, fun other => ?_⟩
      rw [joinPairs_not_low, here, joined, rejoin_not_low rfl]
      rintro _ ⟨⟩
      exact not_low_of_high paired.1

/-- The halves that are written for a code point beyond the first 65536. -/
theorem paired_halves {point : CodePoint} (large : 0x10000 ≤ point.value) :
    let high : CodePoint := .ofNat (0xD800 + (point.value - 0x10000) / 0x400)
    let low : CodePoint := .ofNat (0xDC00 + (point.value - 0x10000) % 0x400)
    Paired high low ∧ CodePoint.joinSurrogates high low = point := by
  have half : ∀ number, 0xD800 ≤ number → number < 0xE000 →
      ∃ offset : Fin 0x800, CodePoint.ofNat number = .surrogate offset ∧
        0xD800 + offset.val = number := by
    intro number least most
    have invalid : ¬ number.isValidChar := by
      unfold Nat.isValidChar
      omega
    exact ⟨_, dif_neg invalid, by dsimp only; omega⟩
  have most := point.value_lt
  obtain ⟨left, first, leftValue⟩ :=
    half (0xD800 + (point.value - 0x10000) / 0x400) (by omega) (by omega)
  obtain ⟨right, second, rightValue⟩ :=
    half (0xDC00 + (point.value - 0x10000) % 0x400) (by omega) (by omega)
  dsimp only
  rw [first, second]
  refine ⟨⟨?_, ?_⟩, ?_⟩
  · rw [CodePoint.isHighSurrogate, decide_eq_true_eq]
    omega
  · rw [CodePoint.isLowSurrogate, decide_eq_true_eq]
    omega
  · rw [CodePoint.joinSurrogates, CodePoint.value, CodePoint.value, leftValue, rightValue]
    refine Eq.trans (congrArg CodePoint.ofNat ?_) point.ofNat_value
    omega

private theorem asciiPoint_spelled (point : CodePoint) {text body : Text} {pieces : List Piece}
    (spelled : StringBody body pieces) (written : Written text pieces) :
    ∃ more, StringBody (asciiPoint point ++ body) more ∧ Written (point :: text) more := by
  unfold asciiPoint
  dsimp only
  have unit : ∀ {number : Nat}, number < 0x10000 →
      PieceText (lit "\\u" ++ Numeral.hex 4 number) (.unit (.ofNat number)) := by
    intro number small
    obtain ⟨first, second, third, fourth, digits, unit⟩ := codeUnit?_hex small
    rw [digits]
    exact .unit unit
  split
  · next small =>
      obtain ⟨piece, here, same, _⟩ := escapePoint_spelled point
      refine ⟨piece :: pieces, .cons here spelled, ?_⟩
      subst same
      cases piece with
      | unit => exact .unit written
      | plain point =>
          cases point with
          | scalar => exact .plain written
          | surrogate =>
              rw [Piece.point, CodePoint.value] at small
              omega
  split
  · next small =>
      have here := unit small
      rw [point.ofNat_value] at here
      exact ⟨_, .cons here spelled, .unit written⟩
  · next large =>
      obtain ⟨paired, joined⟩ := paired_halves (Nat.le_of_not_lt large)
      have most := point.value_lt
      have high := unit (show 0xD800 + (point.value - 0x10000) / 0x400 < 0x10000 by omega)
      have low := unit (show 0xDC00 + (point.value - 0x10000) % 0x400 < 0x10000 by omega)
      have body := StringBody.cons high (.cons low spelled)
      refine ⟨_, by simpa using body, ?_⟩
      have more := Written.pair paired written
      rwa [joined] at more

/-- An ASCII literal denotes its text with the pairs of surrogates joined. -/
theorem asciiLiteral_literal (text : Text) : StringLiteral (asciiLiteral text) (rejoin text) := by
  have spelled : ∃ pieces, StringBody (text.flatMap asciiPoint) pieces ∧ Written text pieces := by
    induction text with
    | nil => exact ⟨[], .nil, .nil⟩
    | cons point text ih =>
        obtain ⟨pieces, body, written⟩ := ih
        exact asciiPoint_spelled point body written
  obtain ⟨pieces, body, written⟩ := spelled
  rw [← written.joinPairs_eq.1]
  exact .quoted body

end JsonTemplate.Json
