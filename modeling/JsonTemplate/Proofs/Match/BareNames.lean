import JsonTemplate.Match
import JsonTemplate.Proofs.Decimal.Value
import JsonTemplate.Proofs.Json.Printer
import JsonTemplate.Proofs.Json.RoundTrip
import JsonTemplate.Proofs.Json.Taken
import JsonTemplate.Proofs.Placeholder.Bare

set_option autoImplicit false

/-!
# Bare names

A capture without quotes is written like an array in an array. Quoting leaves it so where the name
is a word of documents, digits, or digits with an exponent. These are read as the item of the inner
array, with two exceptions: digits behind a zero too many, and numbers too large to be kept.
-/

namespace JsonTemplate

/-! ## Items that cannot be read -/

namespace Json

private theorem readArray_error {value : Text → Except Stop (Json × Text)} {first : CodePoint}
    {rest : Text} {stop : Stop} (opens : Opens first)
    (failed : readItems value ((first :: rest).length + 1) (first :: rest) = .error stop) :
    readArray value (first :: rest) = .error stop := by
  unfold readArray
  rw [skipSpace_of_opens opens]
  split
  · next closed => exact absurd (List.cons.inj closed).1 opens.2.1
  · rw [failed]
    rfl

private theorem readValue_bracket_error {levels : Nat} (enough : enoughLevels ≤ levels)
    {first : CodePoint} {rest : Text} {stop : Stop} (opens : Opens first)
    (failed : readItems (readValue levels) ((first :: rest).length + 1) (first :: rest) =
      .error stop) :
    readValue (levels + 1) (.scalar '[' :: first :: rest) = .error stop := by
  rw [readValue_bracket, readArray_error opens failed, Except.mapError,
    Stop.raised_of_enough enough]

/-- An array in an array is refused for the first item that cannot be read. -/
theorem readText_nested_error {first : CodePoint} {rest : Text} {stop : Stop} (opens : Opens first)
    (failed : ∀ levels fuel, enoughLevels ≤ levels →
      readItems (readValue levels) (fuel + 1) (first :: rest) = .error stop) :
    readText (.scalar '[' :: .scalar '[' :: first :: rest) =
      .error (stop.refusal (.scalar '[' :: .scalar '[' :: first :: rest)) := by
  have inner : readValue 991 (.scalar '[' :: first :: rest) = .error stop :=
    readValue_bracket_error (by decide) opens (failed 990 _ (by decide))
  have outer : readValue room (.scalar '[' :: .scalar '[' :: first :: rest) = .error stop := by
    refine readValue_bracket_error (by decide) (by decide) ?_
    rw [readItems, inner]
    rfl
  have whole := @readText_of_opens [] (.scalar '[' :: first :: rest) (.scalar '[') .nil (by decide)
  rw [List.nil_append] at whole
  rw [whole, readWhole, skipSpace_of_opens (by decide), outer]
  rfl

/-- A number that starts with a zero has no more digits, so it ends before them. -/
theorem number?_zero {digit : CodePoint} (isDigit : digit.isDigit = true) (rest : Text) :
    number? (.scalar '0' :: digit :: rest) = some (.integer 0, digit :: rest) := by
  have noFraction : fraction (digit :: rest) = ([], digit :: rest) := by
    unfold fraction
    split
    · next same =>
        obtain ⟨rfl, _⟩ := List.cons.inj same
        cases isDigit
    · rfl
  have noLetter : ¬ (digit = .scalar 'e' ∨ digit = .scalar 'E') := by
    rintro (rfl | rfl) <;> cases isDigit
  have noExponent : exponent? (digit :: rest) = (none, digit :: rest) := by
    rw [exponent?, if_neg noLetter]
  rw [number?_of_not_minus (by simp), unsigned?]
  simp only [whole?, Option.bind_eq_bind, Option.bind_some, noFraction, noExponent]
  rfl

private theorem numberLevels_le (text : Text) : numberLevels text ≤ 2 := by
  have either : ∀ fractional : Bool, (if fractional then 1 else 2) ≤ 2 := by decide
  exact either _

private theorem notFewer {levels : Nat} (enough : enoughLevels ≤ levels) (text : Text) :
    ¬ levels < numberLevels text :=
  Nat.not_lt.mpr ((numberLevels_le text).trans (Nat.le_trans (by decide) enough))

/-- Behind the number a comma or the closing bracket is expected, not another digit. -/
theorem readItems_zero {levels : Nat} (enough : enoughLevels ≤ levels) (fuel : Nat)
    {digit : CodePoint} (isDigit : digit.isDigit = true) (rest : Text) :
    readItems (readValue levels) (fuel + 1) (.scalar '0' :: digit :: rest) =
      .error (.problem .expectingComma (digit :: rest)) := by
  have zero : NumberLiteral [.scalar '0'] (.integer 0) :=
    @NumberLiteral.parts false _ _ _ _ _ (.inl rfl) .none .none
  have kept : Kept (.integer 0) :=
    Decimal.inRange_of_width Nat.one_pos (by decide) (by decide) (by decide)
  have read : readValue levels (.scalar '0' :: digit :: rest) =
      .ok (.number (.integer 0), digit :: rest) := by
    have number := readValue_number levels zero (digit :: rest)
    rw [List.singleton_append, readNumber, number?_zero isDigit] at number
    rw [number]
    exact (if_neg (notFewer enough _)).trans (if_pos kept)
  rw [readItems, read]
  simp only [bind, Except.bind, skipSpace_of_opens (opens_of_isDigit isDigit)]
  split
  · next same =>
      obtain ⟨rfl, _⟩ := List.cons.inj same
      cases isDigit
  · next same =>
      obtain ⟨rfl, _⟩ := List.cons.inj same
      cases isDigit
  · rfl

private theorem readItems_outOfRange {levels : Nat} (enough : enoughLevels ≤ levels) (fuel : Nat)
    {literal rest : Text} {number : Number} (spelled : NumberLiteral literal number)
    (large : ¬ Kept number) (stops : Stops rest) :
    readItems (readValue levels) (fuel + 1) (literal ++ rest) = .error .outOfRange := by
  have read : readValue levels (literal ++ rest) = .error .outOfRange := by
    rw [readValue_number levels spelled, readNumber, number?_complete spelled stops]
    exact (if_neg (notFewer enough _)).trans (if_neg large)
  rw [readItems, read]
  rfl

end Json

namespace Placeholder

open Json (Digits WholePart NumberLiteral Scalar Kept)

/-! ## Names that are not quoted -/

/-- Digits with a zero too many in front, possibly with an exponent. -/
def ZeroLed (name : Text) : Prop :=
  PlainNumber name ∧ ∃ digit rest, name = .scalar '0' :: digit :: rest ∧ digit.isDigit = true

def OutOfRange (name : Text) : Prop :=
  ∃ number, NumberLiteral name number ∧ ¬ Kept number

private theorem wholePart_or_zeroLed {digits : Text} (all : Digits digits) :
    WholePart digits ∨
      ∃ digit rest, digits = .scalar '0' :: digit :: rest ∧ digit.isDigit = true := by
  obtain ⟨first, rest, rfl, _⟩ := all.head
  by_cases zero : first = .scalar '0'
  · subst zero
    cases rest with
    | nil => exact .inl (.inl rfl)
    | cons digit rest => exact .inr ⟨digit, rest, rfl, all.2 digit (by simp)⟩
  · exact .inl (.inr ⟨all, by simpa using zero⟩)

private theorem PlainNumber.literal_or_zeroLed {name : Text} (plain : PlainNumber name) :
    (∃ number, NumberLiteral name number) ∨ ZeroLed name := by
  cases plain with
  | digits all =>
      rcases wholePart_or_zeroLed all with whole | led
      · have literal := @NumberLiteral.parts false _ _ _ _ _ whole .none .none
        simp only [Bool.false_eq_true, ↓reduceIte, List.nil_append, List.append_nil] at literal
        exact .inl ⟨_, literal⟩
      · exact .inr ⟨.digits all, led⟩
  | power all isLetter powerDigits =>
      rcases wholePart_or_zeroLed all with whole | ⟨digit, rest, rfl, isDigit⟩
      · exact .inl ⟨_, @NumberLiteral.parts false _ _ _ _ _ whole .none
          (.power isLetter .none powerDigits)⟩
      · exact .inr ⟨.power all isLetter powerDigits, digit, _, rfl, isDigit⟩

private theorem name_cases {name : Text} (named : isName name = true) :
    Quotable name ∨ (∃ item, Scalar Kept name item) ∨ ZeroLed name ∨ OutOfRange name := by
  by_cases plain : PlainNumber name
  · rcases plain.literal_or_zeroLed with ⟨number, literal⟩ | led
    · by_cases kept : Kept number
      · exact .inr (.inl ⟨_, .number literal kept⟩)
      · exact .inr (.inr (.inr ⟨number, literal, kept⟩))
    · exact .inr (.inr (.inl led))
  by_cases isTrue : name = lit "true"
  · subst isTrue
    exact .inr (.inl ⟨_, .true⟩)
  by_cases isFalse : name = lit "false"
  · subst isFalse
    exact .inr (.inl ⟨_, .false⟩)
  by_cases isNull : name = lit "null"
  · subst isNull
    exact .inr (.inl ⟨_, .null⟩)
  exact .inl ⟨named, plain, isTrue, isFalse, isNull⟩

private theorem OutOfRange.plainNumber {name : Text} (large : OutOfRange name)
    (named : isName name = true) : PlainNumber name := by
  obtain ⟨number, literal, _⟩ := large
  have ended : name ++ .scalar ']' :: ([] : Text) = name ++ .scalar ']' :: [] := rfl
  exact plainNumber_of_number literal (by decide) named ended

/-! ## Quoting a bare name -/

variable {name : Text}

private theorem quoteBare_quotable (quotable : Quotable name) :
    quoteBare (spelling (.capture name)) = quotedCapture name := by
  rw [← List.append_nil (spelling _), quoteBare_bare quotable, quoteBare_nil]
  rfl

private theorem quoteBare_unquotable (named : isName name = true) (notQuotable : ¬ Quotable name) :
    quoteBare (spelling (.capture name)) = spelling (.capture name) := by
  obtain ⟨nonempty, parts⟩ := isName_iff.mp named
  have shape : spelling (.capture name) = .scalar '[' :: .scalar '[' :: (name ++ lit "]]") := rfl
  -- A capture could start only at the outer bracket, where its name would be this one, or at the
  -- inner bracket, behind which no second one follows.
  have outerBare : barePrefix? (.scalar '[' :: .scalar '[' :: (name ++ lit "]]")) = none := by
    rw [← shape, Option.eq_none_iff_forall_ne_some]
    rintro ⟨other, rest⟩ found
    obtain ⟨quotable, split⟩ := barePrefix?_eq_some_iff.mp found
    have whole := capturePrefix?_eq_some_iff.mpr ⟨named, (List.append_nil _).symm⟩
    rw [capturePrefix?_eq_some_iff.mpr ⟨quotable.isName, split⟩] at whole
    cases whole
    exact notQuotable quotable
  have innerBare : barePrefix? (.scalar '[' :: (name ++ lit "]]")) = none := by
    rw [Option.eq_none_iff_forall_ne_some]
    rintro ⟨other, rest⟩ found
    obtain ⟨_, split⟩ := barePrefix?_eq_some_iff.mp found
    obtain ⟨first, others, rfl⟩ := List.exists_cons_of_ne_nil nonempty
    exact CodePoint.ne_of_isNamePart (parts first List.mem_cons_self) (by decide)
      (List.cons.inj (List.cons.inj split).2).1
  have plain : ∀ point ∈ name ++ lit "]]", point ≠ .scalar '"' ∧ point ≠ .scalar '[' := by
    refine List.forall_mem_append.mpr ⟨fun point member => ?_, by decide⟩
    exact ⟨CodePoint.ne_of_isNamePart (parts point member) (by decide),
      CodePoint.ne_of_isNamePart (parts point member) (by decide)⟩
  have copied := untouched_points plain []
  rw [List.append_nil, quoteBare_nil, List.append_nil] at copied
  rw [shape, quoteBare_cons outerBare (by decide), quoteBare_cons innerBare (by decide), copied]

private theorem quotedCapture_ne : quotedCapture name ≠ spelling (.capture name) := by
  intro same
  exact absurd (List.cons.inj same).1 (by decide)

private theorem quoteBare_eq_self_iff (named : isName name = true) :
    quoteBare (spelling (.capture name)) = spelling (.capture name) ↔ ¬ Quotable name := by
  refine ⟨fun unchanged quotable => ?_, quoteBare_unquotable named⟩
  rw [quoteBare_quotable quotable] at unchanged
  exact quotedCapture_ne unchanged

/-! ## Reading a bare name -/

variable (source : Option Text)

private theorem read_quotedCapture (named : isName name = true) :
    Document.read source (.text (quotedCapture name)) =
      .ok (.string (spelling (.capture name))) := by
  have plain : ∀ point ∈ spelling (.capture name), Json.PieceText [point] (.plain point) := by
    intro point member
    obtain ⟨notEscape, notQuote⟩ := plain_of_capture named point member
    refine .plain notQuote notEscape ?_
    simp only [spelling, List.mem_append, or_assoc] at member
    rcases member with opening | inName | closing
    · exact (by decide : ∀ point ∈ lit "[[", 0x20 ≤ point.value) point opening
    · exact CodePoint.printable_of_isNamePart ((isName_iff.mp named).2 point inName)
    · exact (by decide : ∀ point ∈ lit "]]", 0x20 ≤ point.value) point closing
  have literal := Json.literal_of_plain plain
  exact ((Scalar.string literal).spells Json.deepest).whole.read source

private theorem ofJson_capture (named : isName name = true) :
    Template.ofJson (.string (spelling (.capture name))) = .string (.capture name) := by
  have scanned := (@scan_eq_some_iff _ (.capture name)).mpr ⟨named, rfl⟩
  rw [Template.ofJson, Tree.map, Slot.ofText, scanned]

private theorem read_nested {item : Json} (scalar : Scalar Kept name item) :
    Document.read source (.text (spelling (.capture name))) = .ok (.array [.array [item]]) := by
  have inner : Json.Spells Kept 1 (.scalar '[' :: (name ++ lit "]")) (.array [item]) :=
    .array (.some (.last .nil scalar .nil))
  have outer : Json.Spells Kept 2 (.scalar '[' :: (.scalar '[' :: (name ++ lit "]") ++ lit "]"))
      (.array [.array [item]]) := .array (.some (.last .nil inner .nil))
  have same : spelling (.capture name) =
      .scalar '[' :: (.scalar '[' :: (name ++ lit "]") ++ lit "]") := by
    simp [spelling, lit]
  rw [same]
  exact (outer.mono (by decide : 2 ≤ Json.deepest)).whole.read source

private theorem read_zeroLed (led : ZeroLed name) :
    Document.read source (.text (spelling (.capture name))) =
      .error (.reported (.parse source (.malformed .expectingComma ⟨1, 4⟩))) := by
  obtain ⟨_, digit, rest, rfl, isDigit⟩ := led
  have shape : spelling (.capture (.scalar '0' :: digit :: rest)) =
      lit "[[0" ++ digit :: (rest ++ lit "]]") := rfl
  have zero : Json.Opens (.scalar '0') := by decide
  have refused := Json.readText_nested_error zero
    fun _ fuel enough => Json.readItems_zero enough fuel isDigit (rest ++ lit "]]")
  have front : (lit "[[0" ++ digit :: (rest ++ lit "]]")).take
      ((lit "[[0" ++ digit :: (rest ++ lit "]]")).length -
        (digit :: (rest ++ lit "]]")).length) = lit "[[0" := by
    rw [List.length_append, Nat.add_sub_cancel, List.take_left]
  have position : Json.Position.after (lit "[[0") = ⟨1, 4⟩ := by decide
  rw [← position, ← front, Document.read, shape]
  exact congrArg (Except.mapError (Json.Refusal.failure source)) refused

private theorem read_outOfRange (large : OutOfRange name) :
    Document.read source (.text (spelling (.capture name))) =
      .error (.escaped .numberOutOfRange) := by
  obtain ⟨number, literal, large⟩ := large
  obtain ⟨first, others, rfl, opens, _⟩ :=
    @Scalar.head (fun _ => True) _ _ (.number literal trivial)
  have stops : Json.Stops (lit "]]") := Json.closes_bracket.2 (lit "]")
  have refused := Json.readText_nested_error opens
    fun _ fuel enough => Json.readItems_outOfRange enough fuel literal large stops
  exact congrArg (Except.mapError (Json.Refusal.failure source)) refused

/-- A quotable name is no value between two brackets, so its quotes are needed. -/
theorem unread_of_quotable (quotable : Quotable name) (value : Json) :
    Document.read source (.text (spelling (.capture name))) ≠ .ok value := by
  intro read
  have unchanged := quoteBare_document (Json.readText_sound (ok_of_mapError read))
  rw [quoteBare_quotable quotable] at unchanged
  exact quotedCapture_ne unchanged

private theorem array_of_read (named : isName name = true) {value : Json}
    (read : Document.read source (.text (spelling (.capture name))) = .ok value) :
    ∃ item, value = .array [.array [item]] := by
  rcases name_cases named with quotable | ⟨item, scalar⟩ | led | large
  · exact absurd read (unread_of_quotable source quotable value)
  · cases (read_nested source scalar).symm.trans read
    exact ⟨item, rfl⟩
  · cases (read_zeroLed source led).symm.trans read
  · cases (read_outOfRange source large).symm.trans read

/-! ## Reading a bare name with its quotes -/

private theorem quoteBare_zeroLed (led : ZeroLed name) (named : isName name = true) :
    quoteBare (spelling (.capture name)) = spelling (.capture name) :=
  (quoteBare_eq_self_iff named).mpr fun quotable => quotable.notNumber led.1

private theorem quoteBare_outOfRange (large : OutOfRange name) (named : isName name = true) :
    quoteBare (spelling (.capture name)) = spelling (.capture name) :=
  (quoteBare_eq_self_iff named).mpr fun quotable => quotable.notNumber (large.plainNumber named)

private theorem quoteBare_of_read (named : isName name = true) {value : Json}
    (read : Document.read source (.text (spelling (.capture name))) = .ok value) :
    quoteBare (spelling (.capture name)) = spelling (.capture name) :=
  (quoteBare_eq_self_iff named).mpr fun quotable => unread_of_quotable source quotable value read

private theorem quoteBare_eq_self_cases (named : isName name = true) :
    quoteBare (spelling (.capture name)) = spelling (.capture name) ↔
      (∃ value, Document.read source (.text (spelling (.capture name))) = .ok value) ∨
        ZeroLed name ∨ OutOfRange name := by
  constructor
  · intro unchanged
    rcases name_cases named with quotable | ⟨item, scalar⟩ | led | large
    · exact absurd quotable ((quoteBare_eq_self_iff named).mp unchanged)
    · exact .inl ⟨_, read_nested source scalar⟩
    · exact .inr (.inl led)
    · exact .inr (.inr large)
  · rintro (⟨value, read⟩ | led | large)
    · exact quoteBare_of_read source named read
    · exact quoteBare_zeroLed led named
    · exact quoteBare_outOfRange large named

private theorem read_quoteBare (named : isName name = true) (notLed : ¬ ZeroLed name)
    (notLarge : ¬ OutOfRange name) :
    ∃ document, Document.read source (.text (quoteBare (spelling (.capture name)))) = .ok document ∧
      (Document.read source (.text (spelling (.capture name))) = .ok document ∨
        Template.ofJson document = .string (.capture name)) := by
  rcases name_cases named with quotable | ⟨item, scalar⟩ | led | large
  · rw [quoteBare_quotable quotable]
    exact ⟨_, read_quotedCapture source named, .inr (ofJson_capture named)⟩
  · have read := read_nested source scalar
    rw [quoteBare_of_read source named read]
    exact ⟨_, read, .inl read⟩
  · exact absurd led notLed
  · exact absurd large notLarge

end Placeholder

namespace Match

open Placeholder (isName spelling quoteBare quotedCapture ZeroLed OutOfRange)

/-- A bare name that is read at all is read as an item of an array in an array. Only then, or with a
zero too many, or out of range, quoting leaves it alone; any other gets its quotes. So a template
that is a bare name is read, as this array or as the capture, but for these two exceptions: behind
the zero a comma is missing, and the number cannot be kept. -/
theorem read_bare_name (policy : CapturePolicy) (source : Option Text) {name : Text}
    (named : isName name = true) :
    let token := spelling (.capture name)
    let template := prepare ⟨policy, true⟩ (.text token)
    (∀ value, Document.read source (.text token) = .ok value →
      ∃ item, value = .array [.array [item]]) ∧
    (quoteBare token = token ↔
      (∃ value, Document.read source (.text token) = .ok value) ∨ ZeroLed name ∨
        OutOfRange name) ∧
    (quoteBare token ≠ token → quoteBare token = quotedCapture name) ∧
    (¬ ZeroLed name → ¬ OutOfRange name →
      ∃ document, template.read source = .ok document ∧
        (Document.read source (.text token) = .ok document ∨
          Template.ofJson document = .string (.capture name))) ∧
    (ZeroLed name → template.read source =
      .error (.reported (.parse source (.malformed .expectingComma ⟨1, 4⟩)))) ∧
    (OutOfRange name → template.read source = .error (.escaped .numberOutOfRange)) := by
  intro token template
  refine ⟨fun value => Placeholder.array_of_read source named,
    Placeholder.quoteBare_eq_self_cases source named, fun changed => ?_,
    Placeholder.read_quoteBare source named, fun led => ?_, fun large => ?_⟩
  · have quotable := not_not.mp (mt (Placeholder.quoteBare_eq_self_iff named).mpr changed)
    exact Placeholder.quoteBare_quotable quotable
  · change Document.read source (.text (quoteBare token)) = _
    rw [Placeholder.quoteBare_zeroLed led named]
    exact Placeholder.read_zeroLed source led
  · change Document.read source (.text (quoteBare token)) = _
    rw [Placeholder.quoteBare_outOfRange large named]
    exact Placeholder.read_outOfRange source large

/-- A digit and a letter are a name, not a number that lacks its exponent. -/
theorem read_bare_name_open_exponent :
    isName (lit "1e") = true ∧ quoteBare (lit "[[1e]]") = lit "\"[[1e]]\"" ∧
      ∃ document, (prepare .default (.text (lit "[[1e]]"))).read none = .ok document ∧
        Template.ofJson document = .string (.capture (lit "1e")) := by
  have named : isName (lit "1e") = true := by decide
  have notNumber : ¬ Placeholder.PlainNumber (lit "1e") := fun plain =>
    absurd (Placeholder.isPlainNumber_iff.mpr plain) (by decide)
  have notLed : ¬ ZeroLed (lit "1e") := fun led => notNumber led.1
  have notLarge : ¬ OutOfRange (lit "1e") := fun large => notNumber (large.plainNumber named)
  have quotable : Placeholder.Quotable (lit "1e") :=
    ⟨named, notNumber, by decide, by decide, by decide⟩
  have token : lit "[[1e]]" = spelling (.capture (lit "1e")) := rfl
  have unread := Placeholder.unread_of_quotable none quotable
  obtain ⟨_, unchanged, quoted, parsed, _⟩ := read_bare_name .last none named
  rw [token]
  refine ⟨named, quoted ?_, ?_⟩
  · rw [ne_eq, unchanged]
    rintro (⟨value, read⟩ | led | large)
    · exact unread value read
    · exact notLed led
    · exact notLarge large
  · obtain ⟨document, read, array | capture⟩ := parsed notLed notLarge
    · exact absurd array (unread document)
    · exact ⟨document, read, capture⟩

/-- With a zero in front, a number is left without quotes although it is no item of an array. -/
theorem bare_name_with_zero :
    isName (lit "01") = true ∧ quoteBare (lit "[[01]]") = lit "[[01]]" ∧
      ∀ value, Document.read none (.text (lit "[[01]]")) ≠ .ok value := by
  have led : ZeroLed (lit "01") :=
    ⟨.digits ⟨nofun, by decide⟩, .scalar '1', [], rfl, by decide⟩
  have named : isName (lit "01") = true := by decide
  have token : lit "[[01]]" = spelling (.capture (lit "01")) := rfl
  have refused := Placeholder.read_zeroLed none led
  rw [token]
  refine ⟨named, Placeholder.quoteBare_zeroLed led named, fun value read => ?_⟩
  cases refused.symm.trans read

end Match

end JsonTemplate
