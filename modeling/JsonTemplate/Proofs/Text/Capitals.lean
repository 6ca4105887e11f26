import JsonTemplate.Placeholder
import JsonTemplate.Text.Blank
import JsonTemplate.Text.Capitals
import Mathlib

set_option autoImplicit false

/-!
# Names and letter case

Two names have the same capitals exactly if they are the same but for the case of their letters.
Letters outside ASCII whose capitals are letters of ASCII stand in no name.
-/

namespace JsonTemplate

namespace CodePoint

private theorem toNat_lt_of_isNamePart {character : Char}
    (part : (scalar character).isNamePart = true) :
    character.toNat < 128 := by
  simp only [isNamePart, Char.isAlphanum, Char.isAlpha, Char.isUpper, Char.isLower, Char.isDigit,
    Bool.or_eq_true, Bool.and_eq_true, decide_eq_true_eq, beq_iff_eq, ge_iff_le,
    UInt32.le_iff_toNat_le] at part
  rcases part with ((upper | lower) | digit) | rfl
  · exact upper.2.trans_lt (by decide)
  · exact lower.2.trans_lt (by decide)
  · exact digit.2.trans_lt (by decide)
  · decide

theorem capitals_of_isNamePart {character : Char} (part : (scalar character).isNamePart = true) :
    (scalar character).capitals = [scalar character.toUpper] := by
  have small := toNat_lt_of_isNamePart part
  unfold capitals
  dsimp only
  split
  all_goals first | rfl | omega

private theorem isNamePart_asciiLower (point : CodePoint) :
    point.asciiLower.isNamePart = point.isNamePart := by
  cases point with
  | surrogate offset => rfl
  | scalar character =>
      by_cases upper : character.isUpper
      · have lower : character.toLower.isLower = true := by simp [Char.isAlpha, upper]
        simp [asciiLower, isNamePart, Char.isAlphanum, Char.isAlpha, upper, lower]
      · rw [asciiLower, Char.toLower_eq_of_not_isUpper upper]

private theorem not_isBlank_of_isNamePart {point : CodePoint} (part : point.isNamePart = true) :
    point.isBlank = false := by
  have none : ∀ number < 128, (scalar (Char.ofNat number)).isNamePart = true →
      (scalar (Char.ofNat number)).isBlank = false := by
    decide
  cases point with
  | surrogate offset => cases part
  | scalar character =>
      have small := toNat_lt_of_isNamePart part
      rw [← Char.ofNat_toNat character] at part ⊢
      exact none character.toNat small part

/-- The letters outside ASCII whose capitals are letters of ASCII. -/
def folded : List CodePoint :=
  lit "\u017F\u0131\u00DF\uFB00\uFB01\uFB02\uFB03\uFB04\uFB05\uFB06"

theorem not_isNamePart_of_folded : ∀ point ∈ folded, point.isNamePart = false := by
  decide

theorem not_isBlank_of_folded : ∀ point ∈ folded, point.isBlank = false := by
  decide

private theorem capitals_cases (character : Char) :
    scalar character ∈ folded ∨ (scalar character).capitals = [scalar character.toUpper] := by
  unfold capitals
  dsimp only
  split
  case h_11 => exact .inr rfl
  all_goals
    next number =>
      left
      rw [← Char.ofNat_toNat character, number]
      decide

theorem isNamePart_toUpper (character : Char) :
    (scalar character.toUpper).isNamePart = (scalar character).isNamePart := by
  by_cases lower : character.isLower
  · have upper : character.toUpper.isUpper = true := by simp [Char.isAlpha, lower]
    simp [isNamePart, Char.isAlphanum, Char.isAlpha, lower, upper]
  · rw [Char.toUpper_eq_of_not_isLower lower]

theorem isNamePart_or_folded {point : CodePoint}
    (parts : ∀ capital ∈ point.capitals, capital.isNamePart = true) :
    point.isNamePart = true ∨ point ∈ folded := by
  cases point with
  | surrogate offset => exact absurd (parts _ List.mem_cons_self) nofun
  | scalar character =>
      rcases capitals_cases character with special | single
      · exact .inr special
      · rw [single, List.forall_mem_singleton, isNamePart_toUpper] at parts
        exact .inl parts

/-- Capitals that are parts of names are their own capitals. -/
theorem capitals_capital {point capital : CodePoint} (member : capital ∈ point.capitals)
    (part : capital.isNamePart = true) : capital.capitals = [capital] := by
  cases point with
  | surrogate offset =>
      rw [List.mem_singleton.mp member] at part
      cases part
  | scalar character =>
      rcases capitals_cases character with special | single
      · have each : ∀ letter ∈ folded, ∀ capital ∈ letter.capitals,
            capital.capitals = [capital] := by
          decide
        exact each _ special capital member
      · rw [single, List.mem_singleton] at member
        subst member
        rw [capitals_of_isNamePart part, Char.toUpper_toUpper_eq_toUpper]

end CodePoint

namespace Text

private theorem asciiLower_capitals {text : Text}
    (parts : ∀ point ∈ text, point.isNamePart = true) :
    text.capitals.asciiLower = text.asciiLower := by
  induction text with
  | nil => rfl
  | cons point rest ih =>
      obtain ⟨part, others⟩ := List.forall_mem_cons.mp parts
      cases point with
      | surrogate offset => cases part
      | scalar character =>
          have first := CodePoint.capitals_of_isNamePart part
          rw [capitals, List.flatMap_cons, first, ← capitals, List.singleton_append]
          simp only [asciiLower, List.map_cons, CodePoint.asciiLower,
            Char.toLower_toUpper_eq_toLower]
          exact congrArg _ (ih others)

private theorem capitals_asciiLower {text : Text}
    (parts : ∀ point ∈ text, point.isNamePart = true) :
    text.asciiLower.capitals = text.capitals := by
  induction text with
  | nil => rfl
  | cons point rest ih =>
      obtain ⟨part, others⟩ := List.forall_mem_cons.mp parts
      cases point with
      | surrogate offset => cases part
      | scalar character =>
          have first := CodePoint.capitals_of_isNamePart part
          have lower := CodePoint.capitals_of_isNamePart
            (CodePoint.isNamePart_asciiLower (.scalar character) ▸ part)
          have later := ih others
          simp only [capitals, asciiLower] at later
          simp only [capitals, asciiLower, List.map_cons, List.flatMap_cons, later, first]
          rw [CodePoint.asciiLower, lower, Char.toUpper_toLower_eq_toUpper]

theorem capitals_eq_iff {left right : Text} (leftParts : ∀ point ∈ left, point.isNamePart = true)
    (rightParts : ∀ point ∈ right, point.isNamePart = true) :
    left.capitals = right.capitals ↔ left.asciiLower = right.asciiLower := by
  constructor
  · intro same
    rw [← asciiLower_capitals leftParts, same, asciiLower_capitals rightParts]
  · intro same
    rw [← capitals_asciiLower leftParts, same, capitals_asciiLower rightParts]

theorem capitals_capitals {text : Text}
    (parts : ∀ capital ∈ text.capitals, capital.isNamePart = true) :
    text.capitals.capitals = text.capitals := by
  have each : ∀ capital ∈ text.capitals, capital.capitals = [capital] := by
    intro capital member
    obtain ⟨point, _, inside⟩ := List.mem_flatMap.mp member
    exact CodePoint.capitals_capital inside (parts capital member)
  calc text.capitals.capitals = text.capitals.flatMap fun capital => [capital] :=
        List.flatMap_congr each
    _ = text.capitals := List.flatMap_singleton' _

end Text

namespace Placeholder

private theorem isName_asciiLower (text : Text) : isName text.asciiLower = isName text := by
  cases text with
  | nil => rfl
  | cons point rest =>
      simp only [isName, Text.asciiLower, List.all_map, Function.comp_def,
        CodePoint.isNamePart_asciiLower, List.isEmpty_map]

/-- A name written in another letter case is a name. -/
theorem isName_of_asciiLower_eq {left right : Text} (same : left.asciiLower = right.asciiLower)
    (named : isName left = true) : isName right = true := by
  rw [← isName_asciiLower, ← same, isName_asciiLower]
  exact named

theorem isBlank_of_isName {text : Text} (named : isName text = true) :
    Text.isBlank text = false := by
  cases text with
  | nil => cases named
  | cons point rest =>
      rw [isName, Bool.and_eq_true, List.all_cons, Bool.and_eq_true] at named
      rw [Text.isBlank, List.all_cons, CodePoint.not_isBlank_of_isNamePart named.2.1,
        Bool.false_and]

end Placeholder

end JsonTemplate
