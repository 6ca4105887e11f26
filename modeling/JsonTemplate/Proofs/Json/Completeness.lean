import JsonTemplate.Proofs.Json.Soundness

set_option autoImplicit false

/-!
# What is spelled is read

A reader takes a text of the grammar off the front, whatever follows it, and returns
what the text spells. Only a number has to be told from what follows: no digit, point or
letter of an exponent may stand behind it.
-/

namespace JsonTemplate.Json

/-- What follows does not go on with a number. -/
def Stops (rest : Text) : Prop :=
  ∀ point ∈ rest.head?, point.isDigit = false ∧ point ≠ .scalar '.' ∧
    point ≠ .scalar 'e' ∧ point ≠ .scalar 'E'

theorem stops_nil : Stops [] := nofun

theorem stops_cons {point : CodePoint} {rest : Text} (plain : point.isDigit = false)
    (noPoint : point ≠ .scalar '.') (noLower : point ≠ .scalar 'e')
    (noUpper : point ≠ .scalar 'E') : Stops (point :: rest) := by
  intro first same
  cases same
  exact ⟨plain, noPoint, noLower, noUpper⟩

private theorem stops_of_isSpace {point : CodePoint} {rest : Text} (space : isSpace point = true) :
    Stops (point :: rest) := by
  simp only [isSpace, Bool.or_eq_true, decide_eq_true_eq, or_assoc] at space
  rcases space with rfl | rfl | rfl | rfl <;>
    exact stops_cons (by decide) (by decide) (by decide) (by decide)

/-- White space before something that stops a number stops it too. -/
theorem Stops.blank {gap rest : Text} (stops : Stops rest) (blank : Blank gap) :
    Stops (gap ++ rest) := by
  cases gap with
  | nil => exact stops
  | cons first gap => exact stops_of_isSpace (blank first List.mem_cons_self)

theorem skipSpace_blank {gap : Text} (blank : Blank gap) (rest : Text) :
    skipSpace (gap ++ rest) = skipSpace rest :=
  List.dropWhile_append_of_pos blank

theorem skipSpace_of_opens {first : CodePoint} (opens : Opens first) (rest : Text) :
    skipSpace (first :: rest) = first :: rest := by
  simp [skipSpace, opens.1]

/-! ## Strings -/

private theorem pieces_quote (opening rest : Text) :
    pieces opening (.scalar '"' :: rest) = .ok ([], rest) := by
  rw [pieces.eq_def]
  simp

theorem pieces_append (opening : Text) {text body : Text} {piece : Piece}
    (spelled : PieceText text piece) (following : body ≠ []) :
    pieces opening (text ++ body) = withPiece piece (pieces opening body) := by
  cases spelled with
  | plain notQuote notEscape printable =>
      rw [List.singleton_append, pieces.eq_def]
      simp [notQuote, notEscape, Nat.not_lt.mpr printable]
  | @letter letter meant named =>
      have notUnit : letter ≠ .scalar 'u' := by
        rintro rfl
        cases named
      rw [List.cons_append, List.singleton_append, pieces.eq_def]
      simp [notUnit, named]
  | unit hex =>
      obtain ⟨first, rest, rfl⟩ := List.exists_cons_of_ne_nil following
      rw [List.cons_append, pieces.eq_def]
      simp [hex]

private theorem pieces_complete (opening : Text) {body rest : Text} {read : List Piece}
    (spelled : StringBody body read) :
    pieces opening (body ++ .scalar '"' :: rest) = .ok (read, rest) := by
  induction spelled with
  | nil => exact pieces_quote opening rest
  | cons pieceSpelled _ ih =>
      rw [List.append_assoc, pieces_append opening pieceSpelled (by simp), ih]
      rfl

theorem readString_complete {literal value : Text} (spelled : StringLiteral literal value)
    (rest : Text) :
    ∃ text, literal ++ rest = .scalar '"' :: text ∧ readString text = .ok (value, rest) := by
  cases spelled with
  | @quoted body read bodySpelled =>
      refine ⟨body ++ .scalar '"' :: rest, by simp, ?_⟩
      rw [readString, pieces_complete _ bodySpelled]
      rfl

/-! ## Numbers -/

theorem span_append {digits rest : Text} (all : ∀ point ∈ digits, point.isDigit = true)
    (ended : ∀ point ∈ rest.head?, point.isDigit = false) :
    Numeral.span (digits ++ rest) = (digits, rest) := by
  rw [Numeral.span, Text.takeWhile_run all ended, Text.dropWhile_run all ended]

private theorem whole?_complete {whole rest : Text} (spelled : WholePart whole)
    (ended : ∀ point ∈ rest.head?, point.isDigit = false) :
    whole? (whole ++ rest) = some (whole, rest) := by
  rcases spelled with rfl | ⟨digits, notZero⟩
  · rfl
  · obtain ⟨first, others, rfl, _⟩ := digits.head
    have split := span_append digits.2 ended
    unfold whole?
    split
    · next shape =>
        rw [List.cons_append] at shape
        cases shape
        exact absurd rfl notZero
    · rw [split]

private theorem fraction_complete {part digits rest : Text} (spelled : FractionPart part digits)
    (ended : ∀ point ∈ rest.head?, point.isDigit = false)
    (noPoint : rest.head? ≠ some (.scalar '.')) :
    fraction (part ++ rest) = (digits, rest) := by
  cases spelled with
  | none =>
      rw [List.nil_append, fraction.eq_def]
      split
      · exact absurd rfl noPoint
      · rfl
  | point all =>
      obtain ⟨first, others, rfl, _⟩ := all.head
      have split := span_append all.2 ended
      rw [List.cons_append, fraction, split]

private theorem exponentSign_complete {sign : Text} {negative : Bool}
    (spelled : SignPart sign negative)
    (rest : Text) (digit : ∀ point ∈ rest.head?, point.isDigit = true) :
    exponentSign (sign ++ rest) = (negative, rest) := by
  cases spelled with
  | none =>
      rw [List.nil_append, exponentSign.eq_def]
      split
      · exact absurd (digit _ rfl) (by decide)
      · exact absurd (digit _ rfl) (by decide)
      · rfl
  | plus => rfl
  | minus => rfl

private theorem exponent?_complete {part rest : Text} {exponent : Option Int}
    (spelled : ExponentPart part exponent) (stops : Stops rest) :
    exponent? (part ++ rest) = (exponent, rest) := by
  cases spelled with
  | none =>
      cases rest with
      | nil => rfl
      | cons first rest =>
          obtain ⟨_, _, noLower, noUpper⟩ := stops first rfl
          simp [exponent?, noLower, noUpper]
  | @power letter sign digits negative isLetter signed all =>
      obtain ⟨first, others, rfl, digit⟩ := all.head
      have signRead := exponentSign_complete signed (first :: others ++ rest) (by
        intro point same
        cases same
        exact digit)
      have split := span_append all.2 fun point same => (stops point same).1
      rw [List.cons_append, List.append_assoc, exponent?]
      simp only [isLetter, ↓reduceIte, signRead, split]
      rfl

private theorem unsigned?_complete (negative : Bool)
    {whole fractionText digits exponentText rest : Text}
    {exponent : Option Int} (wholeSpelled : WholePart whole)
    (fractionSpelled : FractionPart fractionText digits)
    (exponentSpelled : ExponentPart exponentText exponent) (stops : Stops rest) :
    unsigned? negative (whole ++ (fractionText ++ (exponentText ++ rest))) =
      some (numberOf negative whole digits exponent, rest) := by
  have afterFraction : ∀ point ∈ (exponentText ++ rest).head?,
      point.isDigit = false ∧ point ≠ .scalar '.' := by
    intro point same
    cases exponentSpelled with
    | none => exact ⟨(stops point same).1, (stops point same).2.1⟩
    | power isLetter =>
        cases same
        rcases isLetter with rfl | rfl <;> exact ⟨rfl, by decide⟩
  have afterWhole : ∀ point ∈ (fractionText ++ (exponentText ++ rest)).head?,
      point.isDigit = false := by
    intro point same
    cases fractionSpelled with
    | none => exact (afterFraction point same).1
    | point =>
        cases same
        rfl
  have noPoint : (exponentText ++ rest).head? ≠ some (.scalar '.') := by
    intro same
    exact (afterFraction _ same).2 rfl
  unfold unsigned?
  rw [whole?_complete wholeSpelled afterWhole]
  simp only [Option.bind_eq_bind, Option.bind_some,
    fraction_complete fractionSpelled (fun point same => (afterFraction point same).1) noPoint,
    exponent?_complete exponentSpelled stops]
  rfl

theorem number?_complete {literal rest : Text} {value : Number}
    (spelled : NumberLiteral literal value) (stops : Stops rest) :
    number? (literal ++ rest) = some (value, rest) := by
  cases spelled with
  | @parts negative whole fractionText digits exponentText exponent wholeSpelled fractionSpelled
      exponentSpelled =>
      have read := unsigned?_complete negative wholeSpelled fractionSpelled exponentSpelled stops
      cases negative with
      | true =>
          simp only [↓reduceIte, List.append_assoc, List.cons_append, List.nil_append]
          rw [number?_minus, read]
      | false =>
          obtain ⟨first, others, rfl, digit⟩ := wholeSpelled.digits.head
          simp only [Bool.false_eq_true, ↓reduceIte, List.append_assoc, List.nil_append]
          rw [number?_of_not_minus, read]
          simpa using ne_of_isDigit digit (by decide)

/-! ## Values -/

private theorem dropStart?_eq_none {start text : Text} {first other : CodePoint} {rest : Text}
    (split : start = first :: rest) (different : first ≠ other) :
    Text.dropStart? start (other :: text) = none := by
  rw [split, Text.dropStart?, if_neg different]

/-- Words and constants are tried first, but none of them starts like a number. -/
theorem readAtom_eq_readNumber (levels : Nat) {literal rest : Text} {value : Number}
    (spelled : NumberLiteral literal value) :
    readAtom levels (literal ++ rest) = readNumber levels (literal ++ rest) := by
  obtain ⟨first, behind, rfl, shape⟩ := spelled.head
  have notWord : ∀ {character : Char}, character.isDigit = false → character ≠ '-' →
      .scalar character ≠ first := by
    intro character notDigit notMinus same
    rcases shape with digit | ⟨minus, _⟩
    · exact ne_of_isDigit digit notDigit same.symm
    · rw [minus] at same
      exact notMinus (CodePoint.scalar.inj same)
  have noInfinity : (lit "-Infinity").isPrefixOf (first :: behind ++ rest) = false := by
    rcases shape with digit | ⟨rfl, second, others, rfl, digit⟩
    · have different : CodePoint.scalar '-' ≠ first := (ne_of_isDigit digit (by decide)).symm
      simp [lit, List.isPrefixOf, different]
    · have different : CodePoint.scalar 'I' ≠ second := (ne_of_isDigit digit (by decide)).symm
      simp [lit, List.isPrefixOf, different]
  have noNaN : (lit "NaN").isPrefixOf (first :: behind ++ rest) = false := by
    have different : CodePoint.scalar 'N' ≠ first := notWord (by decide) (by decide)
    simp [lit, List.isPrefixOf, different]
  have noPositiveInfinity : (lit "Infinity").isPrefixOf (first :: behind ++ rest) = false := by
    have different : CodePoint.scalar 'I' ≠ first := notWord (by decide) (by decide)
    simp [lit, List.isPrefixOf, different]
  have noNull : Text.dropStart? (lit "null") (first :: behind ++ rest) = none :=
    dropStart?_eq_none rfl (notWord (by decide) (by decide))
  have noTrue : Text.dropStart? (lit "true") (first :: behind ++ rest) = none :=
    dropStart?_eq_none rfl (notWord (by decide) (by decide))
  have noFalse : Text.dropStart? (lit "false") (first :: behind ++ rest) = none :=
    dropStart?_eq_none rfl (notWord (by decide) (by decide))
  rw [readAtom, noNull, noTrue, noFalse, noNaN, noInfinity, noPositiveInfinity]
  rfl

theorem numberLevels_eq {literal rest : Text} {value : Number}
    (spelled : NumberLiteral literal value) (stops : Stops rest) :
    numberLevels (literal ++ rest) = literalLevels literal := by
  obtain ⟨other, split, _, taken⟩ := number?_sound (number?_complete spelled stops)
  rw [taken, List.append_cancel_right split]

private theorem readNumber_complete {levels : Nat} {literal rest : Text} {value : Number}
    (spelled : NumberLiteral literal value) (kept : Kept value)
    (enough : literalLevels literal ≤ levels) (stops : Stops rest) :
    readNumber levels (literal ++ rest) = .ok (.number value, rest) := by
  rw [readNumber, number?_complete spelled stops, numberLevels_eq spelled stops]
  dsimp only
  rw [if_neg (Nat.not_lt.mpr enough)]
  exact if_pos kept

private theorem readValue_eq_readAtom (levels : Nat) {first : CodePoint} (rest : Text)
    (notQuote : first ≠ .scalar '"') (notBracket : first ≠ .scalar '[')
    (notBrace : first ≠ .scalar '\x7b') :
    readValue levels (first :: rest) = readAtom levels (first :: rest) := by
  cases levels <;> simp [readValue, notQuote, notBracket, notBrace]

theorem readValue_number (levels : Nat) {literal : Text} {value : Number}
    (spelled : NumberLiteral literal value) (rest : Text) :
    readValue levels (literal ++ rest) = readNumber levels (literal ++ rest) := by
  rw [← readAtom_eq_readNumber levels spelled]
  obtain ⟨first, behind, rfl, digit | ⟨rfl, _⟩⟩ := spelled.head
  · exact readValue_eq_readAtom levels _ (ne_of_isDigit digit (by decide))
      (ne_of_isDigit digit (by decide)) (ne_of_isDigit digit (by decide))
  · exact readValue_eq_readAtom levels _ (by decide) (by decide) (by decide)

private theorem readValue_string (levels : Nat) {literal value : Text}
    (spelled : StringLiteral literal value) (rest : Text) :
    readValue levels (literal ++ rest) = .ok (.string value, rest) := by
  obtain ⟨behind, split, read⟩ := readString_complete spelled rest
  rw [split]
  cases levels <;> simp [readValue, readStringValue, read, Except.map, Except.mapError]

theorem readValue_scalar (levels : Nat) {text rest : Text} {value : Json}
    (fits : FitsScalar levels text value) (stops : Stops rest) :
    readValue levels (text ++ rest) = .ok (value, rest) := by
  obtain ⟨scalar, enough⟩ := fits
  cases scalar with
  | null => exact readValue_eq_readAtom levels _ (by decide) (by decide) (by decide)
  | true => exact readValue_eq_readAtom levels _ (by decide) (by decide) (by decide)
  | false => exact readValue_eq_readAtom levels _ (by decide) (by decide) (by decide)
  | number literal kept =>
      rw [readValue_number levels literal]
      exact readNumber_complete literal kept enough stops
  | string literal => exact readValue_string levels literal rest

/-- A reader takes every text that spells a value off the front. -/
def Complete {α : Type} (reader : Text → Except Stop (α × Text)) (spells : Text → α → Prop) :
    Prop :=
  ∀ {core rest value}, spells core value → Stops rest → reader (core ++ rest) = .ok (value, rest)

/-- A reader of elements goes on as the element and what follows it say. -/
def GoesOnBy {α : Type} (element : Text → Except Stop (α × Text)) (close : CodePoint)
    (reader : Nat → Text → Except Stop (List α × Text)) : Prop :=
  ∀ {fuel text value left}, element text = .ok (value, left) →
    (∀ {rest}, skipSpace left = close :: rest → reader (fuel + 1) text = .ok ([value], rest)) ∧
    ∀ {after others rest}, skipSpace left = .scalar ',' :: after →
      reader fuel (skipSpace after) = .ok (others, rest) →
      reader (fuel + 1) text = .ok (value :: others, rest)

theorem readElements_goesOnBy {α : Type} (element : Text → Except Stop (α × Text))
    {close : CodePoint} (notComma : close ≠ .scalar ',') (missing : Problem) :
    GoesOnBy element close (readElements element close missing) := by
  intro fuel text value left read
  constructor
  · intro rest closed
    simp only [readElements, read, bind, Except.bind, closed, behind_close]
  · intro after others rest comma readOthers
    simp only [readElements, read, bind, Except.bind, comma, behind_comma notComma, readOthers,
      Except.map]

/-- A closing bracket is no white space and goes on with no number. -/
def Closes (close : CodePoint) : Prop :=
  isSpace close = false ∧ ∀ rest, Stops (close :: rest)

theorem closes_bracket : Closes (.scalar ']') :=
  ⟨by decide, fun _ => stops_cons (by decide) (by decide) (by decide) (by decide)⟩

theorem closes_brace : Closes (.scalar '\x7d') :=
  ⟨by decide, fun _ => stops_cons (by decide) (by decide) (by decide) (by decide)⟩

/-- More fuel than positions is enough, since every element takes one. -/
theorem GoesOnBy.complete {α : Type} {element : Text → Except Stop (α × Text)}
    {close : CodePoint} {reader : Nat → Text → Except Stop (List α × Text)}
    (goesOn : GoesOnBy element close reader) {spells : Text → α → Prop}
    (complete : Complete element spells)
    (opens : ∀ {text value}, spells text value → ∃ first rest, text = first :: rest ∧ Opens first)
    (closes : Closes close) {text : Text} {values : List α}
    (listed : Series spells close text values) (rest : Text) {fuel : Nat}
    (enough : text.length ≤ fuel) :
    reader fuel (skipSpace (text ++ rest)) = .ok (values, rest) := by
  have skipTo : ∀ {before core behind : Text} {value : α}, Blank before → spells core value →
      skipSpace (before ++ (core ++ behind)) = core ++ behind := by
    intro before core behind value blank spelled
    obtain ⟨first, others, rfl, opening⟩ := opens spelled
    rw [skipSpace_blank blank]
    exact skipSpace_of_opens opening _
  induction listed generalizing fuel with
  | @last before core after value blankBefore spelled blankAfter =>
      obtain ⟨fuel, rfl⟩ : ∃ less, fuel = less + 1 :=
        Nat.exists_eq_add_one.mpr (by simp at enough; omega)
      have read := complete spelled ((closes.2 rest).blank blankAfter)
      have closed : skipSpace (after ++ close :: rest) = close :: rest := by
        rw [skipSpace_blank blankAfter]
        simp [skipSpace, closes.1]
      simp only [List.append_assoc, List.singleton_append]
      rw [skipTo blankBefore spelled]
      exact (goesOn read).1 closed
  | @more before core after remaining value values blankBefore spelled blankAfter _ ih =>
      obtain ⟨fuel, rfl⟩ : ∃ less, fuel = less + 1 :=
        Nat.exists_eq_add_one.mpr (by simp at enough; omega)
      have comma : Stops (.scalar ',' :: (remaining ++ rest)) :=
        stops_cons (by decide) (by decide) (by decide) (by decide)
      have read := complete spelled (comma.blank blankAfter)
      have separated : skipSpace (after ++ .scalar ',' :: (remaining ++ rest)) =
          .scalar ',' :: (remaining ++ rest) := by
        rw [skipSpace_blank blankAfter]
        rfl
      simp only [List.append_assoc, List.cons_append]
      rw [skipTo blankBefore spelled]
      exact (goesOn read).2 separated (ih (by simp at enough; omega))

private theorem readMember_complete {value : Text → Except Stop (Json × Text)}
    {inner : Text → Json → Prop}
    (complete : Complete value inner)
    (opens : ∀ {text value}, inner text value → ∃ first rest, text = first :: rest ∧ Opens first) :
    Complete (readMember value) (MemberText inner) := by
  intro core rest member spelled stops
  cases spelled with
  | @pair key name gap space text found literal blankGap blankSpace valueSpelled =>
      obtain ⟨behind, split, read⟩ :=
        readString_complete literal (gap ++ .scalar ':' :: (space ++ (text ++ rest)))
      obtain ⟨first, others, rfl, opening⟩ := opens valueSpelled
      have colon : skipSpace (gap ++ .scalar ':' :: (space ++ (first :: others ++ rest))) =
          .scalar ':' :: (space ++ (first :: others ++ rest)) := by
        rw [skipSpace_blank blankGap]
        rfl
      have skipped : skipSpace (space ++ (first :: others ++ rest)) = first :: others ++ rest := by
        rw [skipSpace_blank blankSpace]
        exact skipSpace_of_opens opening _
      simp only [List.append_assoc, List.cons_append] at split read colon skipped ⊢
      rw [split, readMember]
      simp only [bind, Except.bind, read, colon, skipped]
      rw [← List.cons_append, complete valueSpelled stops]
      rfl

/-- Behind white space stands the closing bracket, or a reader of elements takes them all. -/
theorem GoesOnBy.enclosed {α : Type} {element : Text → Except Stop (α × Text)}
    {close : CodePoint} {reader : Nat → Text → Except Stop (List α × Text)}
    (goesOn : GoesOnBy element close reader) {spells : Text → α → Prop}
    (complete : Complete element spells)
    (opens : ∀ {text value}, spells text value → ∃ first rest, text = first :: rest ∧ Opens first)
    (closes : Closes close) {text : Text} {values : List α}
    (enclosed : Enclosed spells close text values) (rest : Text) :
    (skipSpace (text ++ rest) = close :: rest ∧ values = []) ∨
      ∃ first others, skipSpace (text ++ rest) = first :: others ∧ Opens first ∧
        reader ((first :: others).length + 1) (first :: others) = .ok (values, rest) := by
  cases enclosed with
  | @none gap blank =>
      left
      rw [List.append_assoc, skipSpace_blank blank]
      exact ⟨List.dropWhile_cons_of_neg (by simp [closes.1]), rfl⟩
  | some listed =>
      obtain ⟨gap, first, others, rfl, blank, opening, series⟩ := listed.strip opens
      have skipped : skipSpace (gap ++ first :: others ++ rest) = first :: (others ++ rest) := by
        rw [List.append_assoc, skipSpace_blank blank]
        exact skipSpace_of_opens opening _
      have enough : (first :: others).length ≤ (first :: (others ++ rest)).length + 1 := by
        simp only [List.length_cons, List.length_append]
        omega
      have read := GoesOnBy.complete goesOn complete opens closes series rest enough
      rw [List.cons_append, skipSpace_of_opens opening] at read
      exact .inr ⟨first, others ++ rest, skipped, opening, read⟩

private theorem readArray_complete {value : Text → Except Stop (Json × Text)}
    {inner : Text → Json → Prop}
    (complete : Complete value inner)
    (opens : ∀ {text value}, inner text value → ∃ first rest, text = first :: rest ∧ Opens first)
    {core : Text} {items : List Json} (enclosed : Enclosed inner (.scalar ']') core items)
    (rest : Text) : readArray value (core ++ rest) = .ok (.array items, rest) := by
  rw [readArray, readItems_eq]
  rcases GoesOnBy.enclosed (readElements_goesOnBy value (by decide) _) complete opens closes_bracket
    enclosed rest with ⟨closed, rfl⟩ | ⟨first, others, skipped, opening, read⟩
  · rw [closed]
    rfl
  · rw [skipped]
    split
    · next shape =>
        cases shape
        exact absurd rfl opening.2.1
    · rw [read]
      rfl

private theorem readObject_complete {value : Text → Except Stop (Json × Text)}
    {inner : Text → Json → Prop}
    (complete : Complete value inner)
    (opens : ∀ {text value}, inner text value → ∃ first rest, text = first :: rest ∧ Opens first)
    {core : Text} {members : List (Text × Json)}
    (enclosed : Enclosed (MemberText inner) (.scalar '\x7d') core members) (rest : Text) :
    readObject value (core ++ rest) = .ok (.object (Bindings.ofList members), rest) := by
  rw [readObject, readMembers_eq]
  rcases GoesOnBy.enclosed (readElements_goesOnBy (readMember value) (by decide) _)
    (readMember_complete complete opens) MemberText.head closes_brace enclosed rest with ⟨closed, rfl⟩ | ⟨first, others, skipped, opening, read⟩
  · rw [closed]
    rfl
  · rw [skipped]
    split
    · next shape =>
        cases shape
        exact absurd rfl opening.2.2.1
    · rw [read]
      rfl

theorem Fits.head {levels : Nat} {text : Text} {value : Json} (fits : Fits levels text value) :
    ∃ first rest, text = first :: rest ∧ Opens first :=
  fits.spells.head

theorem readValue_bracket (levels : Nat) (rest : Text) :
    readValue (levels + 1) (.scalar '[' :: rest) =
      (readArray (readValue levels) rest).mapError (Stop.raised levels) := by
  simp [readValue]

theorem readValue_brace (levels : Nat) (rest : Text) :
    readValue (levels + 1) (.scalar '\x7b' :: rest) =
      (readObject (readValue levels) rest).mapError (Stop.raised levels) := by
  simp [readValue]

theorem readValue_complete (levels : Nat) : Complete (readValue levels) (Fits levels) := by
  induction levels with
  | zero =>
      intro core rest value fits stops
      exact readValue_scalar 0 fits stops
  | succ levels ih =>
      intro core rest value fits stops
      cases fits with
      | scalar scalar => exact readValue_scalar (levels + 1) scalar stops
      | array enclosed =>
          rw [List.cons_append, readValue_bracket, readArray_complete ih Fits.head enclosed rest]
          rfl
      | object enclosed =>
          rw [List.cons_append, readValue_brace, readObject_complete ih Fits.head enclosed rest]
          rfl

private theorem readWhole_complete {text : Text} {value : Json} (fits : FitsWhole room text value) :
    readWhole text = .ok value := by
  obtain ⟨before, core, after, rfl, blankBefore, fits, blankAfter⟩ := fits
  have ended : Stops after := by
    have stops := stops_nil.blank blankAfter
    rwa [List.append_nil] at stops
  have nothing : skipSpace after = [] := by
    have skipped := skipSpace_blank blankAfter []
    rwa [List.append_nil] at skipped
  have read := readValue_complete room fits ended
  obtain ⟨first, others, rfl, opening⟩ := fits.head
  rw [readWhole, skipSpace_blank blankBefore, List.cons_append, skipSpace_of_opens opening,
    ← List.cons_append, read]
  simp only [bind, Except.bind, nothing]
  rfl

/-- A text that does not start with the mark of the byte order, since it starts like a value. -/
theorem readText_of_opens {before others : Text} {first : CodePoint} (blank : Blank before)
    (opening : Opens first) :
    readText (before ++ first :: others) =
      (readWhole (before ++ first :: others)).mapError
        (Stop.refusal (before ++ first :: others)) := by
  unfold readText
  split
  · next shape =>
      cases before with
      | nil =>
          cases shape
          exact absurd rfl opening.2.2.2
      | cons space before =>
          cases shape
          exact absurd (blank _ List.mem_cons_self) (by decide)
  · rfl

/-- Exactly the texts are read that spell a value and can be read with the levels there are. -/
theorem readText_iff {text : Text} {value : Json} :
    readText text = .ok value ↔ FitsWhole room text value := by
  refine ⟨readText_fits, fun fits => ?_⟩
  have read := readWhole_complete fits
  obtain ⟨before, core, after, rfl, blankBefore, fits, _⟩ := fits
  obtain ⟨first, others, rfl, opening⟩ := fits.head
  rw [List.cons_append] at read ⊢
  rw [readText_of_opens blankBefore opening, read]
  rfl

theorem readText_complete {text : Text} {value : Json}
    (spelled : SpellsWhole Kept deepest text value) : readText text = .ok value :=
  readText_iff.mpr spelled.fits

/-- A text spells one value. -/
theorem Spells.unique {depth deeper : Nat} {text : Text} {left right : Json}
    (first : Spells Kept depth text left) (second : Spells Kept deeper text right) :
    left = right := by
  have enough : depth ≤ max depth deeper ∧ deeper ≤ max depth deeper := by omega
  have read := readValue_complete _ ((first.mono enough.1).fits (Nat.le_refl _)) stops_nil
  rw [readValue_complete _ ((second.mono enough.2).fits (Nat.le_refl _)) stops_nil] at read
  cases read
  rfl

end JsonTemplate.Json
