import JsonTemplate.Placeholder.Bare
import JsonTemplate.Proofs.Json.Completeness

set_option autoImplicit false

/-!
# Names between delimiters

The readers of placeholders take off exactly what a placeholder spells, and the names of
bare captures are told apart from the numbers and words of a document.
-/

namespace JsonTemplate

theorem CodePoint.isNamePart_of_isDigit {point : CodePoint} (digit : point.isDigit = true) :
    point.isNamePart = true := by
  cases point with
  | scalar character =>
      rw [isDigit] at digit
      simp [isNamePart, Char.isAlphanum, digit]
  | surrogate => cases digit

theorem CodePoint.ne_of_isNamePart {point : CodePoint} {character : Char}
    (part : point.isNamePart = true) (other : (scalar character).isNamePart = false) :
    point ≠ .scalar character := by
  rintro rfl
  rw [other] at part
  cases part

theorem CodePoint.printable_of_isNamePart {point : CodePoint} (part : point.isNamePart = true) :
    0x20 ≤ point.value := by
  have controls : ∀ number < 0x20, (CodePoint.scalar (Char.ofNat number)).isNamePart = false := by
    decide
  cases point with
  | surrogate offset => cases part
  | scalar character =>
      by_contra control
      have none := controls character.toNat (Nat.lt_of_not_le control)
      rw [Char.ofNat_toNat, part] at none
      cases none

namespace Placeholder

theorem isName_iff {text : Text} :
    isName text = true ↔ text ≠ [] ∧ ∀ point ∈ text, point.isNamePart = true := by
  simp [isName]

/-- The longest name is the whole name when the closing delimiter cannot go on with it. -/
theorem delimited?_eq_some_iff {opening closing text name rest : Text} {stop : CodePoint}
    (stops : stop.isNamePart = false) :
    delimited? opening (stop :: closing) text = some (name, rest) ↔
      isName name = true ∧ text = opening ++ (name ++ (stop :: closing ++ rest)) := by
  rw [isName_iff]
  constructor
  · intro found
    obtain ⟨inner, opened, found⟩ := Option.bind_eq_some_iff.mp found
    dsimp only at found
    split at found
    · cases found
    · next nonempty =>
        obtain ⟨left, closed, same⟩ := Option.bind_eq_some_iff.mp found
        cases same
        have split := Text.dropStart?_eq_some_iff.mp closed
        refine ⟨⟨by simpa using nonempty, List.all_eq_true.mp List.all_takeWhile⟩, ?_⟩
        rw [← split, List.takeWhile_append_dropWhile]
        exact Text.dropStart?_eq_some_iff.mp opened
  · rintro ⟨⟨nonempty, parts⟩, rfl⟩
    have ends : ∀ point ∈ (stop :: closing ++ rest).head?, point.isNamePart = false := by
      simpa using stops
    simp only [delimited?, Text.dropStart?_append, Option.bind_eq_bind, Option.bind_some,
      Text.takeWhile_run parts ends, Text.dropWhile_run parts ends,
      List.isEmpty_eq_false_iff.mpr nonempty]
    rfl

theorem capturePrefix?_eq_some_iff {text name rest : Text} :
    capturePrefix? text = some (name, rest) ↔
      isName name = true ∧ text = spelling (.capture name) ++ rest := by
  rw [spelling, List.append_assoc, List.append_assoc]
  exact delimited?_eq_some_iff (by decide)

private theorem callPrefix?_eq_some_iff {text name rest : Text} :
    callPrefix? text = some (name, rest) ↔
      isName name = true ∧ text = spelling (.call name) ++ rest := by
  rw [spelling, List.append_assoc, List.append_assoc]
  exact delimited?_eq_some_iff (by decide)

def Named : Placeholder → Prop
  | .capture name => isName name = true
  | .call name => isName name = true

theorem scan_eq_some_iff {text : Text} {placeholder : Placeholder} :
    scan text = some placeholder ↔ placeholder.Named ∧ text = spelling placeholder := by
  constructor
  · intro found
    unfold scan at found
    split at found
    · next captured =>
        cases found
        rw [← List.append_nil (spelling _)]
        exact capturePrefix?_eq_some_iff.mp captured
    · next called _ =>
        cases found
        rw [← List.append_nil (spelling _)]
        exact callPrefix?_eq_some_iff.mp called
    · cases found
  · rintro ⟨named, rfl⟩
    cases placeholder with
    | capture name =>
        have captured := capturePrefix?_eq_some_iff.mpr
          ⟨named, (List.append_nil (spelling (.capture name))).symm⟩
        rw [scan, captured]
    | call name =>
        have called := callPrefix?_eq_some_iff.mpr
          ⟨named, (List.append_nil (spelling (.call name))).symm⟩
        have notCaptured : capturePrefix? (spelling (.call name)) = none := by
          rw [Option.eq_none_iff_forall_ne_some]
          rintro ⟨other, rest⟩ captured
          obtain ⟨_, split⟩ := capturePrefix?_eq_some_iff.mp captured
          cases split
        rw [scan, called, notCaptured]

/-! ## Names of bare captures -/

inductive PlainNumber : Text → Prop where
  | digits {digits : Text} : Json.Digits digits → PlainNumber digits
  | power {digits power : Text} {letter : CodePoint} :
      Json.Digits digits → letter = .scalar 'e' ∨ letter = .scalar 'E' → Json.Digits power →
      PlainNumber (digits ++ letter :: power)

structure Quotable (name : Text) : Prop where
  isName : isName name = true
  notNumber : ¬ PlainNumber name
  notTrue : name ≠ lit "true"
  notFalse : name ≠ lit "false"
  notNull : name ≠ lit "null"

theorem isPlainNumber_iff {name : Text} : isPlainNumber name = true ↔ PlainNumber name := by
  constructor
  · intro accepted
    rcases split : Numeral.span name with ⟨digits, rest⟩
    obtain ⟨rfl, run⟩ := Json.span_sound split
    rw [isPlainNumber, split] at accepted
    cases digits with
    | nil => cases accepted
    | cons first digits =>
        have all : Json.Digits (first :: digits) := ⟨nofun, run⟩
        cases rest with
        | nil =>
            rw [List.append_nil]
            exact .digits all
        | cons letter power =>
            simp only [Bool.and_eq_true, Bool.or_eq_true, decide_eq_true_eq, Bool.not_eq_true',
              List.isEmpty_eq_false_iff, List.all_eq_true] at accepted
            obtain ⟨⟨isLetter, nonempty⟩, powerRun⟩ := accepted
            exact .power all isLetter ⟨nonempty, powerRun⟩
  · intro plain
    cases plain with
    | digits all =>
        have ended : ∀ point ∈ ([] : Text).head?, point.isDigit = false := nofun
        have split := Json.span_append all.2 ended
        obtain ⟨first, others, rfl, _⟩ := all.head
        rw [List.append_nil] at split
        rw [isPlainNumber, split]
    | @power digits power letter all isLetter powerDigits =>
        have ended : ∀ point ∈ (letter :: power).head?, point.isDigit = false := by
          rintro point ⟨rfl⟩
          rcases isLetter with rfl | rfl <;> rfl
        have split := Json.span_append all.2 ended
        obtain ⟨first, others, rfl, _⟩ := all.head
        rw [isPlainNumber, split]
        simp only [Bool.and_eq_true, Bool.or_eq_true, decide_eq_true_eq, Bool.not_eq_true',
          List.isEmpty_eq_false_iff, List.all_eq_true]
        exact ⟨⟨isLetter, powerDigits.1⟩, powerDigits.2⟩

private theorem isQuotable_iff {name : Text} :
    isQuotable name = true ↔ ¬ PlainNumber name ∧ name ≠ lit "true" ∧ name ≠ lit "false" ∧
      name ≠ lit "null" := by
  rw [← isPlainNumber_iff]
  simp [isQuotable, and_assoc]

theorem barePrefix?_eq_some_iff {text name rest : Text} :
    barePrefix? text = some (name, rest) ↔
      Quotable name ∧ text = spelling (.capture name) ++ rest := by
  constructor
  · intro found
    unfold barePrefix? at found
    split at found
    · next candidate left opened =>
        split at found
        · next quotable =>
            cases found
            obtain ⟨named, split⟩ := capturePrefix?_eq_some_iff.mp opened
            obtain ⟨notNumber, notTrue, notFalse, notNull⟩ := isQuotable_iff.mp quotable
            exact ⟨⟨named, notNumber, notTrue, notFalse, notNull⟩, split⟩
        · cases found
    · cases found
  · rintro ⟨quotable, rfl⟩
    have opened := capturePrefix?_eq_some_iff.mpr
      ⟨quotable.isName, (rfl : spelling (.capture name) ++ rest = _)⟩
    have kept : isQuotable name = true := isQuotable_iff.mpr
      ⟨quotable.notNumber, quotable.notTrue, quotable.notFalse, quotable.notNull⟩
    simp only [barePrefix?, opened, kept, ↓reduceIte]

end Placeholder

end JsonTemplate
