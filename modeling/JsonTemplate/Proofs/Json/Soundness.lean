import JsonTemplate.Proofs.Json.Elements
import JsonTemplate.Proofs.Json.Levels
import JsonTemplate.Proofs.Text.CodePoint

set_option autoImplicit false

/-!
# What is read is spelled

A reader that succeeds has taken a text of the grammar off the front, and what it
returns is what that text spells.
-/

namespace JsonTemplate.Json

theorem skipSpace_split (text : Text) : ∃ gap, text = gap ++ skipSpace text ∧ Blank gap :=
  ⟨text.takeWhile isSpace, List.takeWhile_append_dropWhile.symm,
    List.all_eq_true.mp List.all_takeWhile⟩

/-! ## Strings -/

theorem ok_of_withPiece {piece : Piece} {outcome : Except Stop (List Piece × Text)}
    {read : List Piece} {rest : Text} (accepted : withPiece piece outcome = .ok (read, rest)) :
    ∃ others, outcome = .ok (others, rest) ∧ read = piece :: others := by
  obtain ⟨⟨others, left⟩, ran, same⟩ := ok_of_map accepted
  obtain ⟨rfl, rfl⟩ := Prod.mk.inj same
  exact ⟨others, ran, rfl⟩

private theorem pieces_sound {opening text rest : Text} {read : List Piece}
    (accepted : pieces opening text = .ok (read, rest)) :
    ∃ body, text = body ++ .scalar '"' :: rest ∧ StringBody body read := by
  fun_induction pieces opening text generalizing read with
  | case2 after =>
      cases accepted
      exact ⟨[], rfl, .nil⟩
  | case4 first second third fourth following unit nonempty hex _ ih =>
      obtain ⟨others, ran, rfl⟩ := ok_of_withPiece accepted
      obtain ⟨body, rfl, spelled⟩ := ih ran
      exact ⟨_, rfl, .cons (.unit hex) spelled⟩
  | case7 letter after notUnit meant named _ ih =>
      obtain ⟨others, ran, rfl⟩ := ok_of_withPiece accepted
      obtain ⟨body, rfl, spelled⟩ := ih ran
      exact ⟨_, rfl, .cons (.letter named) spelled⟩
  | case10 point after notQuote notEscape printable ih =>
      obtain ⟨others, ran, rfl⟩ := ok_of_withPiece accepted
      obtain ⟨body, rfl, spelled⟩ := ih ran
      exact ⟨_, rfl, .cons (.plain notQuote notEscape (Nat.le_of_not_lt printable)) spelled⟩
  | _ => cases accepted

theorem readString_sound {text value rest : Text}
    (accepted : readString text = .ok (value, rest)) :
    ∃ literal, .scalar '"' :: text = literal ++ rest ∧ StringLiteral literal value := by
  obtain ⟨⟨read, left⟩, ran, same⟩ := ok_of_map accepted
  obtain ⟨rfl, rfl⟩ := Prod.mk.inj same
  obtain ⟨body, rfl, spelled⟩ := pieces_sound ran
  exact ⟨_, by simp, .quoted spelled⟩

/-! ## Numbers -/

theorem span_sound {text digits rest : Text} (split : Numeral.span text = (digits, rest)) :
    text = digits ++ rest ∧ ∀ point ∈ digits, point.isDigit = true := by
  obtain ⟨rfl, rfl⟩ := Prod.mk.inj split
  exact ⟨List.takeWhile_append_dropWhile.symm, List.all_eq_true.mp List.all_takeWhile⟩

private theorem whole?_sound {text whole rest : Text}
    (accepted : whole? text = some (whole, rest)) :
    text = whole ++ rest ∧ WholePart whole := by
  unfold whole? at accepted
  split at accepted
  · cases accepted
    exact ⟨rfl, .inl rfl⟩
  · next notZero =>
      split at accepted
      · cases accepted
      · next nonempty =>
          obtain ⟨rfl, digits⟩ := span_sound (Option.some.inj accepted)
          refine ⟨rfl, .inr ⟨⟨?_, digits⟩, ?_⟩⟩
          · rintro rfl
            exact nonempty _ (Option.some.inj accepted)
          · intro leading
            obtain ⟨others, rfl⟩ := List.head?_eq_some_iff.mp leading
            exact notZero _ rfl

private theorem fraction_sound {text digits rest : Text} (taken : fraction text = (digits, rest)) :
    ∃ part, text = part ++ rest ∧ FractionPart part digits := by
  unfold fraction at taken
  split at taken
  · next after =>
      split at taken
      · cases taken
        exact ⟨[], rfl, .none⟩
      · next nonempty =>
          obtain ⟨rfl, allDigits⟩ := span_sound taken
          refine ⟨.scalar '.' :: digits, rfl, .point ⟨?_, allDigits⟩⟩
          rintro rfl
          exact nonempty _ taken
  · cases taken
    exact ⟨[], rfl, .none⟩

private theorem exponentSign_sound {text rest : Text} {negative : Bool}
    (taken : exponentSign text = (negative, rest)) :
    ∃ part, text = part ++ rest ∧ SignPart part negative := by
  unfold exponentSign at taken
  split at taken <;> cases taken
  · exact ⟨_, rfl, .minus⟩
  · exact ⟨_, rfl, .plus⟩
  · exact ⟨[], rfl, .none⟩

private theorem exponent?_sound {text rest : Text} {exponent : Option Int}
    (taken : exponent? text = (exponent, rest)) :
    ∃ part, text = part ++ rest ∧ ExponentPart part exponent := by
  unfold exponent? at taken
  split at taken
  · cases taken
    exact ⟨[], rfl, .none⟩
  · next letter after =>
      split at taken
      · next isLetter =>
          cases parts : exponentSign after with
          | mk negative unsigned =>
              obtain ⟨sign, rfl, signed⟩ := exponentSign_sound parts
              rw [parts] at taken
              dsimp only at taken
              split at taken
              · cases taken
                exact ⟨[], rfl, .none⟩
              · next digits left nonempty spanned =>
                  obtain ⟨rfl, allDigits⟩ := span_sound spanned
                  cases taken
                  refine ⟨letter :: (sign ++ digits), by simp,
                    .power isLetter signed ⟨?_, allDigits⟩⟩
                  rintro rfl
                  exact nonempty rfl
      · cases taken
        exact ⟨[], rfl, .none⟩

def unsigned? (negative : Bool) (text : Text) : Option (Number × Text) := do
  let (whole, rest) ← whole? text
  let (fraction, rest) := fraction rest
  let (exponent, rest) := exponent? rest
  return (numberOf negative whole fraction exponent, rest)

theorem number?_minus (text : Text) : number? (.scalar '-' :: text) = unsigned? true text := rfl

theorem number?_of_not_minus {text : Text} (plain : text.head? ≠ some (.scalar '-')) :
    number? text = unsigned? false text := by
  unfold number?
  split
  next negative unsigned parts =>
    split at parts
    · exact absurd rfl plain
    · cases parts
      rfl

private theorem unsigned?_sound {negative : Bool} {text rest : Text} {value : Number}
    (accepted : unsigned? negative text = some (value, rest)) :
    ∃ literal, text = literal ++ rest ∧
      NumberLiteral ((if negative then [.scalar '-'] else []) ++ literal) value ∧
      isFractional text = literal.any isFractionMark := by
  obtain ⟨⟨whole, afterWhole⟩, wholeRead, accepted⟩ := Option.bind_eq_some_iff.mp accepted
  cases fractionRead : fraction afterWhole with
  | mk digits afterFraction =>
      cases exponentRead : exponent? afterFraction with
      | mk exponent afterExponent =>
          simp only [fractionRead, exponentRead, Option.pure_def, Option.some.injEq,
            Prod.mk.injEq] at accepted
          obtain ⟨rfl, rfl⟩ := accepted
          have fractional : isFractional text = (!digits.isEmpty || exponent.isSome) := by
            simp only [isFractional, wholeRead, fractionRead, exponentRead]
          obtain ⟨rfl, wholeSpelled⟩ := whole?_sound wholeRead
          obtain ⟨fractionText, rfl, fractionSpelled⟩ := fraction_sound fractionRead
          obtain ⟨exponentText, rfl, exponentSpelled⟩ := exponent?_sound exponentRead
          refine ⟨whole ++ (fractionText ++ exponentText), by simp,
            .parts wholeSpelled fractionSpelled exponentSpelled, ?_⟩
          rw [fractional, any_isFractionMark wholeSpelled fractionSpelled exponentSpelled]

theorem number?_sound {text rest : Text} {value : Number}
    (accepted : number? text = some (value, rest)) :
    ∃ literal, text = literal ++ rest ∧ NumberLiteral literal value ∧
      numberLevels text = literalLevels literal := by
  by_cases minus : text.head? = some (.scalar '-')
  · obtain ⟨unsigned, rfl⟩ := List.head?_eq_some_iff.mp minus
    rw [number?_minus] at accepted
    obtain ⟨literal, rfl, spelled, fractional⟩ := unsigned?_sound accepted
    refine ⟨.scalar '-' :: literal, rfl, spelled, ?_⟩
    rw [numberLevels, fractional, literalLevels]
    rfl
  · rw [number?_of_not_minus minus] at accepted
    obtain ⟨literal, rfl, spelled, fractional⟩ := unsigned?_sound accepted
    refine ⟨literal, rfl, spelled, ?_⟩
    rw [numberLevels, literalLevels, ← fractional]
    intro unsigned same
    exact minus (by rw [same]; rfl)

private theorem readNumber_sound {levels : Nat} {text rest : Text} {value : Json}
    (accepted : readNumber levels text = .ok (value, rest)) :
    ∃ literal, text = literal ++ rest ∧ FitsScalar levels literal value := by
  unfold readNumber at accepted
  split at accepted
  · cases accepted
  · next number left read =>
      split at accepted
      · cases accepted
      · next enough =>
          split at accepted
          · next kept =>
              cases accepted
              obtain ⟨literal, split, spelled, taken⟩ := number?_sound read
              rw [taken] at enough
              exact ⟨literal, split, .number spelled kept, Nat.le_of_not_lt enough⟩
          · cases accepted

/-! ## Values -/

private theorem readAtom_sound {levels : Nat} {text rest : Text} {value : Json}
    (accepted : readAtom levels text = .ok (value, rest)) :
    ∃ core, text = core ++ rest ∧ FitsScalar levels core value := by
  unfold readAtom at accepted
  split at accepted
  · next dropped =>
      cases accepted
      exact ⟨_, Text.dropStart?_eq_some_iff.mp dropped, .null, Nat.zero_le _⟩
  split at accepted
  · next dropped =>
      cases accepted
      exact ⟨_, Text.dropStart?_eq_some_iff.mp dropped, .true, Nat.zero_le _⟩
  split at accepted
  · next dropped =>
      cases accepted
      exact ⟨_, Text.dropStart?_eq_some_iff.mp dropped, .false, Nat.zero_le _⟩
  split at accepted
  · cases accepted
  split at accepted
  · cases accepted
  split at accepted
  · cases accepted
  exact readNumber_sound accepted

def Sound {α : Type} (reader : Text → Except Stop (α × Text)) (spells : Text → α → Prop) : Prop :=
  ∀ {text rest value}, reader text = .ok (value, rest) →
    ∃ core, text = core ++ rest ∧ spells core value

def StepsBy {α : Type} (element : Text → Except Stop (α × Text)) (close : CodePoint)
    (reader : Nat → Text → Except Stop (List α × Text)) : Prop :=
  (∀ text result, reader 0 text ≠ .ok result) ∧
    ∀ fuel text values rest, reader (fuel + 1) text = .ok (values, rest) →
      ∃ value left, element text = .ok (value, left) ∧
        (skipSpace left = close :: rest ∧ values = [value] ∨
          ∃ after others, skipSpace left = .scalar ',' :: after ∧
            reader fuel (skipSpace after) = .ok (others, rest) ∧ values = value :: others)

private theorem readElements_stepsBy {α : Type} (element : Text → Except Stop (α × Text))
    (close : CodePoint) (missing : Problem) :
    StepsBy element close (readElements element close missing) := by
  constructor
  · intro text result accepted
    cases accepted
  · intro fuel text values rest accepted
    obtain ⟨⟨value, left⟩, read, continued⟩ := ok_of_bind accepted
    exact ⟨value, left, read, behind_ok continued⟩

theorem StepsBy.sound {α : Type} {element : Text → Except Stop (α × Text)} {close : CodePoint}
    {reader : Nat → Text → Except Stop (List α × Text)} (steps : StepsBy element close reader)
    {spells : Text → α → Prop} (sound : Sound element spells) (fuel : Nat) :
    Sound (reader fuel) (Series spells close) := by
  induction fuel with
  | zero =>
      intro text rest values accepted
      exact absurd accepted (steps.1 _ _)
  | succ fuel ih =>
      intro text rest values accepted
      obtain ⟨value, left, read, ended⟩ := steps.2 fuel text values rest accepted
      obtain ⟨core, rfl, spelled⟩ := sound read
      obtain ⟨gap, whole, blank⟩ := skipSpace_split left
      rcases ended with ⟨closed, rfl⟩ | ⟨after, others, comma, readOthers, rfl⟩
      · rw [closed] at whole
        refine ⟨[] ++ (core ++ (gap ++ [close])), by simp [whole], ?_⟩
        exact .last nofun spelled blank
      · obtain ⟨series, remaining, listed⟩ := ih readOthers
        obtain ⟨space, skipped, blankSpace⟩ := skipSpace_split after
        rw [comma, skipped, remaining] at whole
        refine ⟨[] ++ (core ++ (gap ++ .scalar ',' :: (space ++ series))), by simp [whole], ?_⟩
        exact .more nofun spelled blank (listed.pad blankSpace)

theorem readMember_sound {value : Text → Except Stop (Json × Text)} {inner : Text → Json → Prop}
    (sound : Sound value inner) : Sound (readMember value) (MemberText inner) := by
  intro text rest member accepted
  unfold readMember at accepted
  split at accepted
  · next behind =>
      obtain ⟨⟨name, left⟩, readKey, continued⟩ := ok_of_bind accepted
      obtain ⟨key, split, literal⟩ := readString_sound readKey
      obtain ⟨gap, whole, blank⟩ := skipSpace_split left
      dsimp only at continued
      split at continued
      · next after shape =>
          obtain ⟨⟨found, last⟩, readValue, finished⟩ := ok_of_bind continued
          cases finished
          obtain ⟨core, remaining, spelled⟩ := sound readValue
          obtain ⟨space, skipped, blankSpace⟩ := skipSpace_split after
          rw [shape, skipped, remaining] at whole
          refine ⟨key ++ (gap ++ .scalar ':' :: (space ++ core)), by simp [split, whole], ?_⟩
          exact .pair literal blank blankSpace spelled
      · cases continued
  · cases accepted

private theorem Enclosed.of_closed {α : Type} {element : Text → α → Prop} {close : CodePoint}
    {text rest : Text} (closed : skipSpace text = close :: rest) :
    ∃ core, text = core ++ rest ∧ Enclosed element close core [] := by
  obtain ⟨gap, whole, blank⟩ := skipSpace_split text
  rw [closed] at whole
  exact ⟨gap ++ [close], by simp [whole], .none blank⟩

private theorem Enclosed.of_series {α : Type} {element : Text → α → Prop} {close : CodePoint}
    {reader : Text → Except Stop (List α × Text)} (sound : Sound reader (Series element close))
    {text rest : Text} {values : List α} (accepted : reader (skipSpace text) = .ok (values, rest)) :
    ∃ core, text = core ++ rest ∧ Enclosed element close core values := by
  obtain ⟨gap, whole, blank⟩ := skipSpace_split text
  obtain ⟨series, split, listed⟩ := sound accepted
  exact ⟨gap ++ series, by rw [List.append_assoc, ← split, ← whole], .some (listed.pad blank)⟩

private theorem readArray_sound {value : Text → Except Stop (Json × Text)}
    {inner : Text → Json → Prop}
    (sound : Sound value inner) {text rest : Text} {read : Json}
    (accepted : readArray value text = .ok (read, rest)) :
    ∃ core items, text = core ++ rest ∧ read = .array items ∧
      Enclosed inner (.scalar ']') core items := by
  rw [readArray, readItems_eq] at accepted
  split at accepted
  · next closed =>
      cases accepted
      obtain ⟨core, split, enclosed⟩ := Enclosed.of_closed closed
      exact ⟨core, [], split, rfl, enclosed⟩
  · obtain ⟨⟨items, last⟩, readAll, same⟩ := ok_of_map accepted
    obtain ⟨rfl, rfl⟩ := Prod.mk.inj same
    obtain ⟨core, split, enclosed⟩ :=
      Enclosed.of_series ((readElements_stepsBy value _ _).sound sound _) readAll
    exact ⟨core, items, split, rfl, enclosed⟩

private theorem readObject_sound {value : Text → Except Stop (Json × Text)}
    {inner : Text → Json → Prop}
    (sound : Sound value inner) {text rest : Text} {read : Json}
    (accepted : readObject value text = .ok (read, rest)) :
    ∃ core members, text = core ++ rest ∧ read = .object (Bindings.ofList members) ∧
      Enclosed (MemberText inner) (.scalar '\x7d') core members := by
  rw [readObject, readMembers_eq] at accepted
  split at accepted
  · next closed =>
      cases accepted
      obtain ⟨core, split, enclosed⟩ := Enclosed.of_closed closed
      exact ⟨core, [], split, rfl, enclosed⟩
  · obtain ⟨⟨members, last⟩, readAll, same⟩ := ok_of_map accepted
    obtain ⟨rfl, rfl⟩ := Prod.mk.inj same
    obtain ⟨core, split, enclosed⟩ :=
      Enclosed.of_series
        ((readElements_stepsBy (readMember value) _ _).sound (readMember_sound sound) _) readAll
    exact ⟨core, members, split, rfl, enclosed⟩

private theorem readStringValue_sound {levels : Nat} {text rest : Text} {value : Json}
    (accepted : readStringValue levels text = .ok (value, rest)) :
    ∃ core, .scalar '"' :: text = core ++ rest ∧ FitsScalar levels core value := by
  obtain ⟨⟨read, left⟩, ran, same⟩ := ok_of_map (ok_of_mapError accepted)
  obtain ⟨rfl, rfl⟩ := Prod.mk.inj same
  obtain ⟨literal, split, spelled⟩ := readString_sound ran
  exact ⟨literal, split, .string spelled, Nat.zero_le _⟩

theorem readValue_sound (levels : Nat) : Sound (readValue levels) (Fits levels) := by
  induction levels with
  | zero =>
      intro text rest value accepted
      cases text with
      | nil => cases accepted
      | cons first behind =>
          rw [readValue] at accepted
          split at accepted
          · next quote =>
              subst quote
              exact readStringValue_sound accepted
          split at accepted
          · cases accepted
          · exact readAtom_sound accepted
  | succ levels ih =>
      intro text rest value accepted
      cases text with
      | nil => cases accepted
      | cons first behind =>
          rw [readValue] at accepted
          split at accepted
          · next quote =>
              subst quote
              obtain ⟨core, split, fits⟩ := readStringValue_sound accepted
              exact ⟨core, split, .scalar fits⟩
          split at accepted
          · next bracket =>
              subst bracket
              obtain ⟨core, items, rfl, rfl, enclosed⟩ :=
                readArray_sound ih (ok_of_mapError accepted)
              exact ⟨_, rfl, .array enclosed⟩
          split at accepted
          · next brace =>
              subst brace
              obtain ⟨core, members, rfl, rfl, enclosed⟩ :=
                readObject_sound ih (ok_of_mapError accepted)
              exact ⟨_, rfl, .object enclosed⟩
          · obtain ⟨core, split, fits⟩ := readAtom_sound accepted
            exact ⟨core, split, .scalar fits⟩

private theorem readWhole_sound {text : Text} {value : Json}
    (accepted : readWhole text = .ok value) :
    FitsWhole room text value := by
  obtain ⟨⟨read, left⟩, readCore, continued⟩ := ok_of_bind accepted
  obtain ⟨before, whole, blankBefore⟩ := skipSpace_split text
  obtain ⟨core, split, fits⟩ := readValue_sound room readCore
  obtain ⟨after, remaining, blankAfter⟩ := skipSpace_split left
  dsimp only at continued
  split at continued
  · next ended =>
      cases continued
      rw [ended, List.append_nil] at remaining
      exact ⟨before, core, after, by rw [whole, split, remaining], blankBefore, fits,
        remaining ▸ blankAfter⟩
  · cases continued

theorem readText_fits {text : Text} {value : Json} (accepted : readText text = .ok value) :
    FitsWhole room text value := by
  unfold readText at accepted
  split at accepted
  · cases accepted
  · exact readWhole_sound (ok_of_mapError accepted)

/-- A text that can be read spells the value that is read. -/
theorem readText_sound {text : Text} {value : Json} (accepted : readText text = .ok value) :
    SpellsWhole Kept room text value :=
  (readText_fits accepted).spells

end JsonTemplate.Json
