import JsonTemplate.Document
import JsonTemplate.Proofs.Placeholder.Slices

set_option autoImplicit false

/-!
# Bare captures and documents

Quoting leaves a document as it is and restores every quoted capture of a document whose
quotes were left out. The scanner does not parse, so two facts carry the proofs: a literal
of the grammar takes the scanner outside of literals again, and two brackets of a document
are never in front of a quotable name and two closing brackets.
-/

namespace JsonTemplate.Placeholder

open Json (Blank Digits PieceText StringBody StringLiteral Scalar Series Enclosed MemberText Spells)

variable {admitted : Number → Prop}

/-! ## What the scanner copies -/

/-- Quoting copies a text and then goes on outside of string literals. -/
def Untouched (text : Text) : Prop :=
  ∀ rest, quoteBare (text ++ rest) = text ++ quoteBare rest

theorem Untouched.nil : Untouched [] :=
  fun _ => rfl

theorem Untouched.append {left right : Text} (first : Untouched left) (second : Untouched right) :
    Untouched (left ++ right) := by
  intro rest
  rw [List.append_assoc, first, second, List.append_assoc]

theorem quoteBare_nil : quoteBare [] = [] := by
  rw [quoteBare_eq, quoteOutside_nil]

theorem quoteBare_cons {point : CodePoint} {rest : Text}
    (notBare : barePrefix? (point :: rest) = none) (notQuote : point ≠ .scalar '"') :
    quoteBare (point :: rest) = point :: quoteBare rest := by
  rw [quoteBare_eq, quoteBare_eq, quoteOutside_cons notBare notQuote]

theorem quoteBare_bare {name rest : Text} (quotable : Quotable name) :
    quoteBare (spelling (.capture name) ++ rest) =
      .scalar '"' :: (spelling (.capture name) ++ .scalar '"' :: quoteBare rest) := by
  rw [quoteBare_eq, quoteBare_eq, quoteOutside_bare quotable]
  simp [quotedCapture]

theorem quoteBare_quote (rest : Text) :
    quoteBare (.scalar '"' :: rest) = .scalar '"' :: quoteInside rest := by
  rw [quoteBare_eq, quoteOutside_quote]

private theorem untouched_point {point : CodePoint} (notQuote : point ≠ .scalar '"')
    (notBracket : point ≠ .scalar '[') : Untouched [point] :=
  fun rest => quoteBare_cons (barePrefix?_eq_none notBracket rest) notQuote

theorem untouched_points {text : Text}
    (plain : ∀ point ∈ text, point ≠ .scalar '"' ∧ point ≠ .scalar '[') : Untouched text := by
  induction text with
  | nil => exact .nil
  | cons point text ih =>
      obtain ⟨notQuote, notBracket⟩ := plain point List.mem_cons_self
      exact (untouched_point notQuote notBracket).append
        (ih fun other member => plain other (List.mem_cons_of_mem point member))

/-! ## String literals -/

theorem quoteInside_quote (rest : Text) :
    quoteInside (.scalar '"' :: rest) = .scalar '"' :: quoteBare rest := by
  rw [quoteInside_close, quoteBare_eq]

theorem quoteInside_points {text : Text}
    (plain : ∀ point ∈ text, point ≠ .scalar '\\' ∧ point ≠ .scalar '"') (rest : Text) :
    quoteInside (text ++ rest) = text ++ quoteInside rest := by
  induction text with
  | nil => rfl
  | cons point text ih =>
      obtain ⟨notEscape, notQuote⟩ := plain point List.mem_cons_self
      rw [List.cons_append, quoteInside_cons notEscape notQuote, List.cons_append,
        ih fun other member => plain other (List.mem_cons_of_mem point member)]

theorem plain_of_capture {name : Text} (named : isName name = true) :
    ∀ point ∈ spelling (.capture name), point ≠ .scalar '\\' ∧ point ≠ .scalar '"' := by
  intro point member
  simp only [spelling, List.mem_append, or_assoc] at member
  rcases member with opening | inName | closing
  · exact (by decide : ∀ point ∈ lit "[[", point ≠ .scalar '\\' ∧ point ≠ .scalar '"') point opening
  · have part := (isName_iff.mp named).2 point inName
    exact ⟨CodePoint.ne_of_isNamePart part (by decide), CodePoint.ne_of_isNamePart part (by decide)⟩
  · exact (by decide : ∀ point ∈ lit "]]", point ≠ .scalar '\\' ∧ point ≠ .scalar '"') point closing

/-- A hexadecimal digit neither closes a literal nor escapes in it. -/
theorem quoteInside_hex {point : CodePoint} {digit : Nat} (hex : point.hexValue? = some digit)
    (rest : Text) : quoteInside (point :: rest) = point :: quoteInside rest := by
  refine quoteInside_cons ?_ ?_
  · rintro rfl
    cases hex
  · rintro rfl
    cases hex

private theorem quoteInside_piece {text : Text} {piece : Json.Piece}
    (spelled : PieceText text piece)
    (rest : Text) : quoteInside (text ++ rest) = text ++ quoteInside rest := by
  cases spelled with
  | plain notQuote notEscape => exact quoteInside_cons notEscape notQuote
  | letter => exact quoteInside_escape _ _
  | @unit first second third fourth unit hex =>
      simp only [Json.codeUnit?, Option.bind_eq_bind, Option.bind_eq_some_iff] at hex
      obtain ⟨_, firstHex, _, secondHex, _, thirdHex, _, fourthHex, _⟩ := hex
      simp only [List.cons_append, List.nil_append]
      rw [quoteInside_escape, quoteInside_hex firstHex, quoteInside_hex secondHex,
        quoteInside_hex thirdHex, quoteInside_hex fourthHex]

private theorem quoteInside_body {body : Text} {pieces : List Json.Piece}
    (spelled : StringBody body pieces)
    (rest : Text) :
    quoteInside (body ++ .scalar '"' :: rest) = body ++ .scalar '"' :: quoteBare rest := by
  induction spelled with
  | nil => exact quoteInside_quote rest
  | cons piece _ ih => rw [List.append_assoc, quoteInside_piece piece, ih, List.append_assoc]

private theorem untouched_string {text value : Text} (literal : StringLiteral text value) :
    Untouched text := by
  cases literal with
  | quoted body =>
      intro rest
      simp only [List.cons_append, List.append_assoc, List.nil_append]
      rw [quoteBare_quote, quoteInside_body body]

/-! ## Values -/

private theorem untouched_blank {gap : Text} (blank : Blank gap) : Untouched gap := by
  apply untouched_points
  intro point member
  have space := blank point member
  constructor
  · rintro rfl
    cases space
  · rintro rfl
    cases space

private theorem plain_of_isDigit {point : CodePoint} (digit : point.isDigit = true) :
    point ≠ .scalar '"' ∧ point ≠ .scalar '[' :=
  ⟨Json.ne_of_isDigit digit (by decide), Json.ne_of_isDigit digit (by decide)⟩

private theorem untouched_digits {digits : Text} (all : Digits digits) : Untouched digits :=
  untouched_points fun point member => plain_of_isDigit (all.2 point member)

private theorem untouched_number {text : Text} {value : Number}
    (literal : Json.NumberLiteral text value) : Untouched text := by
  cases literal with
  | @parts negative whole fractionText fraction exponentText exponent wholeSpelled fractionSpelled
      exponentSpelled =>
      have sign : Untouched (if negative then [.scalar '-'] else []) := by
        cases negative with
        | false => exact .nil
        | true => exact untouched_point (by decide) (by decide)
      have fractionCopied : Untouched fractionText := by
        cases fractionSpelled with
        | none => exact .nil
        | point all =>
            exact (untouched_point (by decide) (by decide)).append (untouched_digits all)
      have exponentCopied : Untouched exponentText := by
        cases exponentSpelled with
        | none => exact .nil
        | @power letter sign _ _ isLetter signSpelled all =>
            have letterCopied : Untouched [letter] := by
              rcases isLetter with rfl | rfl <;> exact untouched_point (by decide) (by decide)
            have signCopied : Untouched sign := by
              cases signSpelled with
              | none => exact .nil
              | plus => exact untouched_point (by decide) (by decide)
              | minus => exact untouched_point (by decide) (by decide)
            exact letterCopied.append (signCopied.append (untouched_digits all))
      exact sign.append ((untouched_digits wholeSpelled.digits).append
        (fractionCopied.append exponentCopied))

private theorem untouched_scalar {text : Text} {value : Json}
    (scalar : Scalar admitted text value) :
    Untouched text := by
  cases scalar with
  | null => exact untouched_points (by decide)
  | true => exact untouched_points (by decide)
  | false => exact untouched_points (by decide)
  | number literal => exact untouched_number literal
  | string literal => exact untouched_string literal

/-! ## Brackets side by side -/

private theorem namePart_of_digits {digits : Text} (all : Digits digits) :
    ∀ point ∈ digits, point.isNamePart = true :=
  fun point member => CodePoint.isNamePart_of_isDigit (all.2 point member)

private theorem namePart_of_power {digits power : Text} {letter : CodePoint} (all : Digits digits)
    (isLetter : letter = .scalar 'e' ∨ letter = .scalar 'E')
    (allPower : ∀ point ∈ power, point.isNamePart = true) :
    ∀ point ∈ digits ++ letter :: power, point.isNamePart = true := by
  intro point member
  rcases List.mem_append.mp member with inDigits | behind
  · exact namePart_of_digits all point inDigits
  · rcases List.mem_cons.mp behind with rfl | inPower
    · rcases isLetter with rfl | rfl <;> rfl
    · exact allPower point inPower

private theorem PlainNumber.namePart {name : Text} (plain : PlainNumber name) :
    ∀ point ∈ name, point.isNamePart = true := by
  cases plain with
  | digits all => exact namePart_of_digits all
  | power all isLetter allPower =>
      exact namePart_of_power all isLetter (namePart_of_digits allPower)

/-- A number that is no plain number has a sign or a point in it, before which a name ends. -/
theorem plainNumber_or_mark {text : Text} {value : Number}
    (literal : Json.NumberLiteral text value) :
    PlainNumber text ∨ ∃ run mark rest, text = run ++ mark :: rest ∧
      (∀ point ∈ run, point.isNamePart = true) ∧ mark.isNamePart = false ∧
      mark ≠ .scalar ']' := by
  cases literal with
  | @parts negative whole fractionText fraction exponentText exponent wholeSpelled
      fractionSpelled exponentSpelled =>
      have wholeParts := namePart_of_digits wholeSpelled.digits
      cases negative with
      | true => exact .inr ⟨[], .scalar '-', _, rfl, by simp, by decide, by decide⟩
      | false =>
          simp only [Bool.false_eq_true, ↓reduceIte, List.nil_append]
          cases fractionSpelled with
          | point => exact .inr ⟨whole, .scalar '.', _, rfl, wholeParts, by decide, by decide⟩
          | none =>
              cases exponentSpelled with
              | none =>
                  rw [List.nil_append, List.append_nil]
                  exact .inl (.digits wholeSpelled.digits)
              | @power letter sign digits negative isLetter signSpelled all =>
                  have upToSign : ∀ point ∈ whole ++ [letter], point.isNamePart = true :=
                    namePart_of_power wholeSpelled.digits isLetter (by simp)
                  cases signSpelled with
                  | none => exact .inl (.power wholeSpelled.digits isLetter all)
                  | plus =>
                      exact .inr ⟨whole ++ [letter], .scalar '+', digits, by simp, upToSign,
                        by decide, by decide⟩
                  | minus =>
                      exact .inr ⟨whole ++ [letter], .scalar '-', digits, by simp, upToSign,
                        by decide, by decide⟩

/-- A number without sign and point whose exponent has no sign either is all that can be
taken for a name; it is a plain number then. -/
theorem plainNumber_of_number {text behind name after : Text} {stop : CodePoint} {value : Number}
    (literal : Json.NumberLiteral text value) (stops : stop.isNamePart = false)
    (named : isName name = true) (same : text ++ stop :: behind = name ++ .scalar ']' :: after) :
    PlainNumber name := by
  obtain ⟨_, parts⟩ := isName_iff.mp named
  have bracket : CodePoint.isNamePart (.scalar ']') = false := by decide
  rcases plainNumber_or_mark literal with plain | ⟨run, mark, rest, rfl, runParts, ends, other⟩
  · have runs := Text.run_unique plain.namePart parts stops bracket same
    exact runs.1 ▸ plain
  · rw [List.append_assoc] at same
    have runs := Text.run_unique runParts parts ends bracket same
    exact absurd runs.2.1 other

private theorem not_quotable_of_scalar {text behind name after : Text} {stop : CodePoint}
    {value : Json}
    (scalar : Scalar admitted text value) (stops : stop.isNamePart = false)
    (same : text ++ stop :: behind = name ++ .scalar ']' :: after) : ¬ Quotable name := by
  intro quotable
  obtain ⟨nonempty, parts⟩ := isName_iff.mp quotable.isName
  have bracket : CodePoint.isNamePart (.scalar ']') = false := by decide
  cases scalar with
  | null => exact quotable.notNull (Text.run_unique (by decide) parts stops bracket same).1.symm
  | true => exact quotable.notTrue (Text.run_unique (by decide) parts stops bracket same).1.symm
  | false => exact quotable.notFalse (Text.run_unique (by decide) parts stops bracket same).1.symm
  | number literal =>
      exact quotable.notNumber (plainNumber_of_number literal stops quotable.isName same)
  | string literal =>
      obtain ⟨first, others, rfl⟩ := List.exists_cons_of_ne_nil nonempty
      obtain ⟨rest, rfl⟩ := literal.head
      exact CodePoint.ne_of_isNamePart (parts first List.mem_cons_self) (by decide)
        (List.cons.inj same).1.symm

private theorem namePart_of_isSpace {point : CodePoint} (space : Json.isSpace point = true) :
    point.isNamePart = false := by
  simp only [Json.isSpace, Bool.or_eq_true, decide_eq_true_eq, or_assoc] at space
  rcases space with rfl | rfl | rfl | rfl <;> rfl

private theorem isSpace_of_namePart {point : CodePoint} (part : point.isNamePart = true) :
    Json.isSpace point = false := by
  cases space : Json.isSpace point with
  | false => rfl
  | true =>
      rw [namePart_of_isSpace space] at part
      cases part

/-- White space and what stands behind it do not go on with a name. -/
theorem namePart_behind {gap : Text} (blank : Blank gap) {close : CodePoint}
    (stops : close.isNamePart = false) (rest : Text) :
    ∃ stop left, gap ++ close :: rest = stop :: left ∧ stop.isNamePart = false := by
  cases gap with
  | nil => exact ⟨close, rest, rfl, stops⟩
  | cons space gap =>
      exact ⟨space, _, rfl, namePart_of_isSpace (blank space List.mem_cons_self)⟩

/-- Behind an opening bracket that neither white space nor the closing one follows stands an
item, and behind the item no name goes on. -/
theorem first_item {element : Text → Json → Prop} {text rest others : Text}
    {point : CodePoint} {items : List Json} (enclosed : Enclosed element (.scalar ']') text items)
    (solid : Json.isSpace point = false) (notClosed : point ≠ .scalar ']')
    (same : text ++ rest = point :: others) :
    ∃ core value stop behind, element core value ∧ stop.isNamePart = false ∧
      core ++ stop :: behind = point :: others := by
  cases enclosed with
  | none blank =>
      rw [List.append_assoc] at same
      rw [blank.eq_nil solid same] at same
      exact absurd (List.cons.inj same).1.symm notClosed
  | some series =>
      cases series with
      | @last before core after value blank spelled blankAfter =>
          rw [List.append_assoc] at same
          rw [blank.eq_nil solid same] at same
          have bracket : CodePoint.isNamePart (.scalar ']') = false := by decide
          obtain ⟨stop, left, behind, stops⟩ := namePart_behind blankAfter bracket rest
          refine ⟨core, value, stop, left, spelled, stops, ?_⟩
          rw [← behind, ← same]
          simp
      | @more before core after remaining value values blank spelled blankAfter _ =>
          rw [List.append_assoc] at same
          rw [blank.eq_nil solid same] at same
          have comma : CodePoint.isNamePart (.scalar ',') = false := by decide
          obtain ⟨stop, left, behind, stops⟩ :=
            namePart_behind blankAfter comma (remaining ++ rest)
          refine ⟨core, value, stop, left, spelled, stops, ?_⟩
          rw [← behind, ← same]
          simp

/-- Where a bare capture would start, an array stands whose only item is a scalar. -/
theorem barePrefix?_array {depth : Nat} {text : Text} {items : List Json}
    (enclosed : Enclosed (Spells admitted depth) (.scalar ']') text items) (rest : Text) :
    barePrefix? (.scalar '[' :: (text ++ rest)) = none := by
  rw [Option.eq_none_iff_forall_ne_some]
  rintro ⟨name, left⟩ found
  obtain ⟨quotable, split⟩ := barePrefix?_eq_some_iff.mp found
  obtain ⟨nonempty, parts⟩ := isName_iff.mp quotable.isName
  obtain ⟨first, others, rfl⟩ := List.exists_cons_of_ne_nil nonempty
  have part : first.isNamePart = true := parts first List.mem_cons_self
  obtain ⟨core, value, stop, behind, spelled, _, inner⟩ :=
    first_item enclosed (by decide) (by decide) (List.cons.inj split).2
  cases depth with
  | zero =>
      obtain ⟨opening, following, rfl, _, notBracket, _⟩ := Scalar.head spelled
      exact notBracket (List.cons.inj inner).1
  | succ depth =>
      cases spelled with
      | scalar scalar =>
          obtain ⟨opening, following, rfl, _, notBracket, _⟩ := scalar.head
          exact notBracket (List.cons.inj inner).1
      | object => exact absurd (List.cons.inj inner).1 (by decide)
      | array nested =>
          obtain ⟨item, itemValue, itemStop, itemBehind, itemSpelled, stops, innermost⟩ :=
            first_item nested (isSpace_of_namePart part) (CodePoint.ne_of_isNamePart part (by decide))
              (List.cons.inj inner).2
          have whole : item ++ itemStop :: itemBehind =
              first :: others ++ .scalar ']' :: .scalar ']' :: left := by
            rw [innermost]
            exact List.append_assoc (first :: others) (lit "]]") left
          cases depth with
          | zero => exact not_quotable_of_scalar itemSpelled stops whole quotable
          | succ depth =>
              cases itemSpelled with
              | scalar scalar => exact not_quotable_of_scalar scalar stops whole quotable
              | array =>
                  exact CodePoint.ne_of_isNamePart part (by decide) (List.cons.inj whole).1.symm
              | object =>
                  exact CodePoint.ne_of_isNamePart part (by decide) (List.cons.inj whole).1.symm

private theorem untouched_series {α : Type} {element : Text → α → Prop} {close : CodePoint}
    {text : Text}
    {values : List α} (copied : ∀ {text value}, element text value → Untouched text)
    (closeCopied : Untouched [close]) (series : Series element close text values) :
    Untouched text := by
  induction series with
  | last blank spelled blankAfter =>
      exact (untouched_blank blank).append ((copied spelled).append
        ((untouched_blank blankAfter).append closeCopied))
  | more blank spelled blankAfter _ ih =>
      have comma : Untouched [.scalar ','] := untouched_point (by decide) (by decide)
      exact (untouched_blank blank).append ((copied spelled).append
        ((untouched_blank blankAfter).append (comma.append ih)))

private theorem untouched_enclosed {α : Type} {element : Text → α → Prop} {close : CodePoint}
    {text : Text}
    {values : List α} (copied : ∀ {text value}, element text value → Untouched text)
    (closeCopied : Untouched [close]) (enclosed : Enclosed element close text values) :
    Untouched text := by
  cases enclosed with
  | none blank => exact (untouched_blank blank).append closeCopied
  | some series => exact untouched_series copied closeCopied series

private theorem untouched_member {inner : Text → Json → Prop} {text : Text} {member : Text × Json}
    (copied : ∀ {text value}, inner text value → Untouched text)
    (spelled : MemberText inner text member) : Untouched text := by
  cases spelled with
  | pair literal blank space value =>
      have colon : Untouched [.scalar ':'] := untouched_point (by decide) (by decide)
      exact (untouched_string literal).append ((untouched_blank blank).append
        (colon.append ((untouched_blank space).append (copied value))))

private theorem untouched_value {depth : Nat} {text : Text} {value : Json}
    (spelled : Spells admitted depth text value) : Untouched text := by
  induction depth generalizing text value with
  | zero => exact untouched_scalar spelled
  | succ depth ih =>
      cases spelled with
      | scalar scalar => exact untouched_scalar scalar
      | array enclosed =>
          intro rest
          have inside := untouched_enclosed ih (untouched_point (by decide) (by decide)) enclosed
          rw [List.cons_append, quoteBare_cons (barePrefix?_array enclosed rest) (by decide),
            inside, List.cons_append]
      | object enclosed =>
          have brace : Untouched [.scalar '\x7b'] := untouched_point (by decide) (by decide)
          exact brace.append (untouched_enclosed (untouched_member ih)
            (untouched_point (by decide) (by decide)) enclosed)

/-- Quoting leaves every document as it is. -/
theorem quoteBare_document {depth : Nat} {text : Text} {value : Json}
    (spelled : Json.SpellsWhole admitted depth text value) : quoteBare text = text := by
  obtain ⟨before, core, after, rfl, blank, spelled, blankAfter⟩ := spelled
  have copied := (untouched_blank blank).append
    ((untouched_value spelled).append (untouched_blank blankAfter)) []
  rwa [List.append_nil, quoteBare_nil, List.append_nil] at copied

/-! ## Quotes left out -/

/-- A document and what is left of it when some of the string literals that consist of
a capture with a quotable name lose their quotes. -/
inductive Unquoted : Text → Text → Prop where
  | nil : Unquoted [] []
  | outside {point : CodePoint} {written bare : Text} :
      point ≠ .scalar '"' → Unquoted written bare → Unquoted (point :: written) (point :: bare)
  | kept {literal value written bare : Text} :
      StringLiteral literal value → Unquoted written bare →
      Unquoted (literal ++ written) (literal ++ bare)
  | removed {name written bare : Text} :
      Quotable name → Unquoted written bare →
      Unquoted (.scalar '"' :: (spelling (.capture name) ++ .scalar '"' :: written))
        (spelling (.capture name) ++ bare)

/-- Where no quote and no bracket stands, nothing was left out. -/
theorem Unquoted.plain {plain written rest : Text} (unquoted : Unquoted written (plain ++ rest))
    (outside : ∀ point ∈ plain, point ≠ .scalar '"' ∧ point ≠ .scalar '[') :
    ∃ left, written = plain ++ left := by
  induction plain generalizing written with
  | nil => exact ⟨written, rfl⟩
  | cons first plain ih =>
      obtain ⟨notQuote, notBracket⟩ := outside first List.mem_cons_self
      generalize shape : first :: plain ++ rest = bare at unquoted
      cases unquoted with
      | nil => cases shape
      | outside _ behind =>
          obtain ⟨rfl, rfl⟩ := List.cons.inj shape
          obtain ⟨left, rfl⟩ := ih behind fun point member =>
            outside point (List.mem_cons_of_mem first member)
          exact ⟨left, rfl⟩
      | kept literal =>
          obtain ⟨others, rfl⟩ := literal.head
          exact absurd (List.cons.inj shape).1 notQuote
      | removed => exact absurd (List.cons.inj shape).1 notBracket

/-- A capture that stands bare in what is left does not start outside a literal that has
been kept: it would have stood bare in the document. -/
theorem Unquoted.bare_outside {point : CodePoint} {written bare name rest : Text}
    (unquoted : Unquoted written bare) (found : barePrefix? (point :: bare) = some (name, rest)) :
    ∃ left, barePrefix? (point :: written) = some (name, left) := by
  obtain ⟨quotable, split⟩ := barePrefix?_eq_some_iff.mp found
  obtain ⟨rfl, behind⟩ := List.cons.inj split
  obtain ⟨nonempty, parts⟩ := isName_iff.mp quotable.isName
  cases unquoted with
  | nil => cases behind
  | outside notQuote unquoted =>
      obtain ⟨rfl, named⟩ := List.cons.inj behind
      have outside : ∀ point ∈ name ++ lit "]]", point ≠ .scalar '"' ∧ point ≠ .scalar '[' := by
        intro point member
        rcases List.mem_append.mp member with inName | inClosing
        · exact ⟨CodePoint.ne_of_isNamePart (parts point inName) (by decide),
            CodePoint.ne_of_isNamePart (parts point inName) (by decide)⟩
        · exact (by decide : ∀ point ∈ lit "]]", point ≠ .scalar '"' ∧ point ≠ .scalar '[')
            point inClosing
      have opened : Unquoted _ ((name ++ lit "]]") ++ rest) := named ▸ unquoted
      obtain ⟨left, rfl⟩ := opened.plain outside
      exact ⟨left, barePrefix?_eq_some_iff.mpr ⟨quotable, rfl⟩⟩
  | kept literal =>
      obtain ⟨others, rfl⟩ := literal.head
      exact absurd (List.cons.inj behind).1 (by decide)
  | removed =>
      obtain ⟨first, others, rfl⟩ := List.exists_cons_of_ne_nil nonempty
      exact absurd (List.cons.inj (List.cons.inj behind).2).1.symm
        (CodePoint.ne_of_isNamePart (parts first List.mem_cons_self) (by decide))

/-- Quoting what is left of a text that it leaves alone restores that text. -/
theorem Unquoted.restored {written bare : Text} (unquoted : Unquoted written bare)
    (fixed : quoteBare written = written) : quoteBare bare = written := by
  induction unquoted with
  | nil => exact fixed
  | @outside point written bare notQuote unquoted ih =>
      have notBare : barePrefix? (point :: written) = none := by
        rw [Option.eq_none_iff_forall_ne_some]
        rintro ⟨name, rest⟩ found
        obtain ⟨quotable, split⟩ := barePrefix?_eq_some_iff.mp found
        rw [split, quoteBare_bare quotable, ← split] at fixed
        exact notQuote (List.cons.inj fixed).1.symm
      -- Leaving out quotes further on must not make a capture start here.
      have stillNotBare : barePrefix? (point :: bare) = none := by
        rw [Option.eq_none_iff_forall_ne_some]
        rintro ⟨name, rest⟩ found
        obtain ⟨left, same⟩ := unquoted.bare_outside found
        rw [notBare] at same
        cases same
      rw [quoteBare_cons notBare notQuote] at fixed
      rw [quoteBare_cons stillNotBare notQuote, ih (List.cons.inj fixed).2]
  | kept literal _ ih =>
      rw [untouched_string literal] at fixed
      rw [untouched_string literal, ih (List.append_cancel_left fixed)]
  | @removed name written bare quotable _ ih =>
      rw [quoteBare_quote, quoteInside_points (plain_of_capture quotable.isName),
        quoteInside_quote] at fixed
      have same := List.append_cancel_left (List.cons.inj fixed).2
      rw [quoteBare_bare quotable, ih (List.cons.inj same).2]

/-- Bare and quoted captures are interchangeable: a document stays as it is, and whatever
quotes of its captures are left out come back. -/
theorem quoteBare_restores {source : Option Text} {written : Text} {document : Json}
    (accepted : Document.read source (.text written) = .ok document) :
    quoteBare written = written ∧
      ∀ bare, Unquoted written bare → quoteBare bare = written := by
  have fixed := quoteBare_document (Json.readText_sound (ok_of_mapError accepted))
  exact ⟨fixed, fun bare unquoted => unquoted.restored fixed⟩

/-- A capture as a value, with its quotes and without them. -/
theorem quoteBare_restores_member :
    Document.read none (.text (lit "\x7b\"n\":\"[[N]]\"\x7d")) =
        .ok (.object [(lit "n", .string (lit "[[N]]"))]) ∧
      quoteBare (lit "\x7b\"n\":[[N]]\x7d") = lit "\x7b\"n\":\"[[N]]\"\x7d" := by
  have accepted : Document.read none (.text (lit "\x7b\"n\":\"[[N]]\"\x7d")) =
      .ok (.object [(lit "n", .string (lit "[[N]]"))]) := by
    cbv
  have key : StringLiteral (lit "\"n\"") (lit "n") :=
    .quoted (.cons (.plain (by decide) (by decide) (by decide)) .nil)
  have quotable : Quotable (lit "N") :=
    ⟨by decide, fun plain => absurd (isPlainNumber_iff.mpr plain) (by decide), by decide,
      by decide, by decide⟩
  have unquoted : Unquoted (.scalar '\x7b' :: (lit "\"n\"" ++ .scalar ':' :: .scalar '"' ::
        (spelling (.capture (lit "N")) ++ .scalar '"' :: [.scalar '\x7d'])))
      (.scalar '\x7b' :: (lit "\"n\"" ++ .scalar ':' ::
        (spelling (.capture (lit "N")) ++ [.scalar '\x7d']))) :=
    .outside (by decide) (.kept key (.outside (by decide) (.removed quotable
      (.outside (by decide) .nil))))
  exact ⟨accepted, (quoteBare_restores accepted).2 _ unquoted⟩

end JsonTemplate.Placeholder
