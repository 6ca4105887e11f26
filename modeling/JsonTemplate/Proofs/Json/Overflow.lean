import JsonTemplate.Proofs.Json.Outside

set_option autoImplicit false

/-!
# Numbers out of range

Readers give up on a number out of range only where one stands in the text outside of strings, and
a text of the grammar in which none does is spelled with numbers that can be kept.
-/

namespace JsonTemplate.Json

/-- A front behind which a token may start: nothing, or white space, an opening bracket, a comma
or a colon comes last. -/
def Starts (before : Text) : Prop :=
  ∀ last ∈ before.getLast?, isSpace last = true ∨ last ∈ lit "[\x7b,:"

/-- A number that cannot be kept stands in the text, outside of strings. -/
def Overflows (text : Text) : Prop :=
  ∃ before rest number left, text = before ++ rest ∧ Balanced before ∧ Starts before ∧
    number? rest = some (number, left) ∧ ¬ Kept number

private theorem starts_nil : Starts [] := nofun

theorem Starts.append {left right : Text} (first : Starts left) (second : Starts right) :
    Starts (left ++ right) := by
  intro last ends
  rw [List.getLast?_append] at ends
  cases behind : right.getLast? with
  | none =>
      rw [behind, Option.none_or] at ends
      exact first last ends
  | some point =>
      rw [behind, Option.some_or] at ends
      exact second last (behind ▸ ends)

private theorem starts_snoc (front : Text) {point : CodePoint} (opening : point ∈ lit "[\x7b,:") :
    Starts (front ++ [point]) := by
  intro last ends
  rw [List.getLast?_concat] at ends
  cases ends
  exact .inr opening

theorem Blank.starts {gap : Text} (blank : Blank gap) : Starts gap := by
  intro last ends
  exact .inl (blank last (List.mem_of_getLast? ends))

namespace Overflows

theorem behind {before rest : Text} (overflows : Overflows rest) (balanced : Balanced before)
    (starts : Starts before) : Overflows (before ++ rest) := by
  obtain ⟨front, back, number, left, rfl, frontBalanced, frontStarts, read, large⟩ := overflows
  exact ⟨before ++ front, back, number, left, (List.append_assoc before front back).symm,
    Outside.append balanced frontBalanced, starts.append frontStarts, read, large⟩

theorem blank {gap rest : Text} (overflows : Overflows rest) (space : Blank gap) :
    Overflows (gap ++ rest) :=
  overflows.behind space.outside.balanced space.starts

/-- A number behind a comma, a colon or an opening bracket. -/
theorem after {front rest : Text} {point : CodePoint} (overflows : Overflows rest)
    (balanced : Balanced front) (opening : point ∈ lit "[\x7b,:") :
    Overflows (front ++ point :: rest) := by
  have notQuote : point ≠ .scalar '"' := by
    rintro rfl
    exact absurd opening (by decide)
  have split : front ++ point :: rest = front ++ [point] ++ rest := by simp
  rw [split]
  exact overflows.behind (Outside.append balanced (.point notQuote trivial .nil))
    (starts_snoc front opening)

end Overflows

/-! ## Readers that give up -/

/-- A reader that gives up on a number has one out of range in front of it. -/
def Alarms {α : Type} (reader : Text → Except Stop (α × Text)) : Prop :=
  ∀ {text}, reader text = .error .outOfRange → Overflows text

private theorem pieces_ne_outOfRange (opening text : Text) :
    pieces opening text ≠ .error .outOfRange := by
  intro failed
  fun_induction pieces opening text with
  | case4 first second third fourth following unit nonempty hex _ ih =>
      exact ih (error_of_map failed)
  | case7 letter after notUnit meant named _ ih => exact ih (error_of_map failed)
  | case10 point after notQuote notEscape printable ih => exact ih (error_of_map failed)
  | _ => cases failed

private theorem readString_ne_outOfRange (text : Text) : readString text ≠ .error .outOfRange :=
  fun failed => pieces_ne_outOfRange _ _ (error_of_map failed)

/-- What stops a reader is not taken for a number out of range when too few levels are left. -/
theorem raised_eq_outOfRange_iff {levels : Nat} {stop : Stop} :
    stop.raised levels = .outOfRange ↔ stop = .outOfRange := by
  unfold Stop.raised
  split
  · rfl
  · next short =>
      refine iff_of_false nofun ?_
      rintro rfl
      exact short (Nat.zero_le levels)

private theorem outOfRange_of_raised {α : Type} {levels : Nat} {outcome : Except Stop α}
    (failed : outcome.mapError (Stop.raised levels) = .error .outOfRange) :
    outcome = .error .outOfRange := by
  obtain ⟨stop, rfl, same⟩ := error_of_mapError failed
  rw [raised_eq_outOfRange_iff.mp same]

private theorem readNumber_alarms (levels : Nat) : Alarms (readNumber levels) := by
  intro text failed
  unfold readNumber at failed
  split at failed
  · cases failed
  · next number left read =>
      split at failed
      · cases failed
      split at failed
      · cases failed
      · next large => exact ⟨[], text, number, left, rfl, .nil, starts_nil, read, large⟩

private theorem readAtom_alarms (levels : Nat) : Alarms (readAtom levels) := by
  have constant : ∀ named, (Except.error (Stop.raised levels (.constant named)) :
      Except Stop (Json × Text)) ≠ .error .outOfRange := fun named same =>
    Stop.noConfusion (raised_eq_outOfRange_iff.mp (Except.error.inj same))
  intro text failed
  unfold readAtom at failed
  split at failed
  · cases failed
  split at failed
  · cases failed
  split at failed
  · cases failed
  dsimp only at failed
  split at failed
  · exact absurd failed (constant _)
  split at failed
  · exact absurd failed (constant _)
  split at failed
  · exact absurd failed (constant _)
  exact readNumber_alarms levels failed

def FailsBy {α : Type} (element : Text → Except Stop (α × Text))
    (reader : Nat → Text → Except Stop (List α × Text)) : Prop :=
  (∀ text, reader 0 text ≠ .error .outOfRange) ∧
    ∀ fuel text, reader (fuel + 1) text = .error .outOfRange →
      element text = .error .outOfRange ∨
        ∃ value left after, element text = .ok (value, left) ∧
          skipSpace left = .scalar ',' :: after ∧
          reader fuel (skipSpace after) = .error .outOfRange

private theorem readElements_failsBy {α : Type} (element : Text → Except Stop (α × Text))
    (close : CodePoint) (missing : Problem) :
    FailsBy element (readElements element close missing) := by
  constructor
  · intro text failed
    cases failed
  · intro fuel text failed
    rcases error_of_bind failed with first | ⟨⟨value, left⟩, read, continued⟩
    · exact .inl first
    · obtain ⟨after, comma, others⟩ := behind_outOfRange continued
      exact .inr ⟨value, left, after, read, comma, others⟩

private theorem FailsBy.alarms {α : Type} {element : Text → Except Stop (α × Text)}
    {reader : Nat → Text → Except Stop (List α × Text)} (fails : FailsBy element reader)
    {spells : Text → α → Prop} (sound : Sound element spells)
    (outside : ∀ {text value}, spells text value → Outside Mark text)
    (alarms : Alarms element) (fuel : Nat) : Alarms (reader fuel) := by
  induction fuel with
  | zero =>
      intro text failed
      exact absurd failed (fails.1 text)
  | succ fuel ih =>
      intro text failed
      rcases fails.2 fuel text failed with first | ⟨value, left, after, read, comma, others⟩
      · exact alarms first
      · obtain ⟨core, rfl, spelled⟩ := sound read
        obtain ⟨gap, whole, blank⟩ := skipSpace_split left
        obtain ⟨space, skipped, blankSpace⟩ := skipSpace_split after
        have later : Overflows after := skipped ▸ (ih others).blank blankSpace
        -- An element that was read closes its strings, so the comma stands outside of them.
        have front : Balanced (core ++ gap) :=
          (outside spelled).balanced.append blank.outside.balanced
        rw [whole, comma, ← List.append_assoc]
        exact later.after front (by decide)

private theorem readMember_alarms {value : Text → Except Stop (Json × Text)}
    (alarms : Alarms value) :
    Alarms (readMember value) := by
  intro text failed
  unfold readMember at failed
  split at failed
  · next behind =>
      rcases error_of_bind failed with key | ⟨⟨name, left⟩, readKey, continued⟩
      · exact absurd key (readString_ne_outOfRange behind)
      · obtain ⟨key, split, literal⟩ := readString_sound readKey
        obtain ⟨gap, whole, blank⟩ := skipSpace_split left
        dsimp only at continued
        split at continued
        · next after shape =>
            rcases error_of_bind continued with inside | ⟨_, _, finished⟩
            · obtain ⟨space, skipped, blankSpace⟩ := skipSpace_split after
              have later : Overflows after := skipped ▸ (alarms inside).blank blankSpace
              have front : Balanced (key ++ gap) := .literal literal blank.outside.balanced
              rw [split, whole, shape, ← List.append_assoc]
              exact later.after front (by decide)
            · cases finished
        · cases continued
  · cases failed

private theorem readArray_alarms {value : Text → Except Stop (Json × Text)}
    {inner : Text → Json → Prop}
    (sound : Sound value inner) (outside : ∀ {text value}, inner text value → Outside Mark text)
    (alarms : Alarms value) : Alarms (readArray value) := by
  intro text failed
  rw [readArray, readItems_eq] at failed
  split at failed
  · cases failed
  · obtain ⟨gap, whole, blank⟩ := skipSpace_split text
    have elements := FailsBy.alarms (readElements_failsBy value _ _) sound outside alarms _
      (error_of_map failed)
    rw [whole]
    exact elements.blank blank

private theorem readObject_alarms {value : Text → Except Stop (Json × Text)}
    {inner : Text → Json → Prop}
    (sound : Sound value inner) (outside : ∀ {text value}, inner text value → Outside Mark text)
    (alarms : Alarms value) : Alarms (readObject value) := by
  intro text failed
  rw [readObject, readMembers_eq] at failed
  split at failed
  · cases failed
  · obtain ⟨gap, whole, blank⟩ := skipSpace_split text
    have elements := FailsBy.alarms (readElements_failsBy _ _ _) (readMember_sound sound)
      (fun member => member.outside outside) (readMember_alarms alarms) _ (error_of_map failed)
    rw [whole]
    exact elements.blank blank

private theorem readStringValue_ne_outOfRange (levels : Nat) (text : Text) :
    readStringValue levels text ≠ .error .outOfRange :=
  fun failed => readString_ne_outOfRange text (error_of_map (outOfRange_of_raised failed))

private theorem readValue_alarms (levels : Nat) : Alarms (readValue levels) := by
  induction levels with
  | zero =>
      intro text failed
      cases text with
      | nil => cases failed
      | cons first behind =>
          rw [readValue] at failed
          split at failed
          · exact absurd failed (readStringValue_ne_outOfRange 0 behind)
          split at failed
          · cases failed
          · exact readAtom_alarms 0 failed
  | succ levels ih =>
      have sound : Sound (readValue levels) (Fits levels) := readValue_sound levels
      have outside : ∀ {text value}, Fits levels text value → Outside Mark text :=
        fun fits => fits.spells.outside
      intro text failed
      cases text with
      | nil => cases failed
      | cons first behind =>
          rw [readValue] at failed
          split at failed
          · exact absurd failed (readStringValue_ne_outOfRange (levels + 1) behind)
          split at failed
          · next bracket =>
              subst bracket
              exact (readArray_alarms sound outside ih (outOfRange_of_raised failed)).after .nil
                (by decide)
          split at failed
          · next brace =>
              subst brace
              exact (readObject_alarms sound outside ih (outOfRange_of_raised failed)).after .nil
                (by decide)
          · exact readAtom_alarms (levels + 1) failed

/-- A text is given up only for a number out of range that stands in it. -/
theorem readText_overflows {text : Text} (failed : readText text = .error .numberOutOfRange) :
    Overflows text := by
  unfold readText at failed
  split at failed
  · cases failed
  · obtain ⟨stop, stopped, same⟩ := error_of_mapError failed
    cases stop <;> cases same
    rcases error_of_bind stopped with value | ⟨⟨_, left⟩, _, continued⟩
    · obtain ⟨gap, whole, blank⟩ := skipSpace_split text
      rw [whole]
      exact (readValue_alarms room value).blank blank
    · dsimp only at continued
      split at continued <;> cases continued

/-! ## Texts without numbers out of range -/

/-- A text that has a number out of range in front of whatever ends a number. -/
def Overruns (text : Text) : Prop :=
  ∀ rest, Stops rest → Overflows (text ++ rest)

private theorem Scalar.kept_or_overruns {text : Text} {value : Json}
    (scalar : Scalar (fun _ => True) text value) : Scalar Kept text value ∨ Overruns text := by
  cases scalar with
  | null => exact .inl .null
  | true => exact .inl .true
  | false => exact .inl .false
  | string literal => exact .inl (.string literal)
  | @number number literal spelled _ =>
      by_cases kept : Kept literal
      · exact .inl (.number spelled kept)
      · -- What follows ends the literal, so the longest number there is all of it.
        refine .inr fun rest stops => ?_
        have read := number?_complete spelled stops
        exact ⟨[], text ++ rest, literal, rest, rfl, .nil, starts_nil, read, kept⟩

/-- Elements that are spelled one way are spelled the other way or hold a number out of range. -/
theorem Series.kept_or_overflows {α : Type} {element kept : Text → α → Prop} {close : CodePoint}
    {text : Text} {values : List α} (series : Series element close text values)
    (each : ∀ {text value}, element text value → kept text value ∨ Overruns text)
    (outside : ∀ {text value}, kept text value → Outside Mark text) (closes : Closes close) :
    Series kept close text values ∨ ∀ rest, Overflows (text ++ rest) := by
  induction series with
  | @last before core after value blankBefore spelled blankAfter =>
      rcases each spelled with fine | overruns
      · exact .inl (.last blankBefore fine blankAfter)
      · refine .inr fun rest => ?_
        have here := overruns _ ((closes.2 rest).blank blankAfter)
        simp only [List.append_assoc, List.singleton_append]
        exact here.blank blankBefore
  | @more before core after others value values blankBefore spelled blankAfter _ ih =>
      rcases each spelled with fine | overruns
      · rcases ih with listed | overflows
        · exact .inl (.more blankBefore fine blankAfter listed)
        · refine .inr fun rest => ?_
          have front : Balanced (before ++ (core ++ after)) :=
            blankBefore.outside.balanced.append
              ((outside fine).balanced.append blankAfter.outside.balanced)
          have comma : CodePoint.scalar ',' ∈ lit "[\x7b,:" := by decide
          have here := (overflows rest).after front comma
          simpa only [List.append_assoc, List.cons_append] using here
      · refine .inr fun rest => ?_
        have comma : Stops (.scalar ',' :: (others ++ rest)) :=
          stops_cons (by decide) (by decide) (by decide) (by decide)
        have here := overruns _ (comma.blank blankAfter)
        simp only [List.append_assoc, List.cons_append]
        exact here.blank blankBefore

private theorem Enclosed.kept_or_overflows {α : Type} {element kept : Text → α → Prop}
    {close : CodePoint}
    {text : Text} {values : List α} (enclosed : Enclosed element close text values)
    (each : ∀ {text value}, element text value → kept text value ∨ Overruns text)
    (outside : ∀ {text value}, kept text value → Outside Mark text) (closes : Closes close) :
    Enclosed kept close text values ∨ ∀ rest, Overflows (text ++ rest) := by
  cases enclosed with
  | none blank => exact .inl (.none blank)
  | some series => exact (series.kept_or_overflows each outside closes).imp .some id

private theorem MemberText.kept_or_overruns {inner kept : Text → Json → Prop} {text : Text}
    {member : Text × Json} (spelled : MemberText inner text member)
    (each : ∀ {text value}, inner text value → kept text value ∨ Overruns text) :
    MemberText kept text member ∨ Overruns text := by
  cases spelled with
  | @pair key name gap space core value literal blankGap blankSpace inside =>
      rcases each inside with fine | overruns
      · exact .inl (.pair literal blankGap blankSpace fine)
      · refine .inr fun rest stops => ?_
        have front : Balanced (key ++ gap) := .literal literal blankGap.outside.balanced
        have colon : CodePoint.scalar ':' ∈ lit "[\x7b,:" := by decide
        have here := ((overruns rest stops).blank blankSpace).after front colon
        simpa only [List.append_assoc, List.cons_append] using here

private theorem Spells.kept_or_overruns {depth : Nat} {text : Text} {value : Json}
    (spelled : Spells (fun _ => True) depth text value) :
    Spells Kept depth text value ∨ Overruns text := by
  induction depth generalizing text value with
  | zero => exact Scalar.kept_or_overruns spelled
  | succ depth ih =>
      cases spelled with
      | scalar scalar => exact scalar.kept_or_overruns.imp .scalar id
      | array enclosed =>
          exact (enclosed.kept_or_overflows ih Spells.outside closes_bracket).imp .array
            fun overflows rest _ => (overflows rest).after .nil (by decide)
      | object enclosed =>
          exact (enclosed.kept_or_overflows (fun member => member.kept_or_overruns ih)
            (fun member => member.outside Spells.outside) closes_brace).imp .object
            fun overflows rest _ => (overflows rest).after .nil (by decide)

/-- Every number of a text of the grammar can be kept, unless one of them is out of range. What
follows the text must not go on with a number. -/
theorem SpellsWhole.kept {depth : Nat} {text rest : Text} {value : Json}
    (spelled : SpellsWhole (fun _ => True) depth text value) (stops : Stops rest)
    (inRange : ¬ Overflows (text ++ rest)) : SpellsWhole Kept depth text value := by
  obtain ⟨before, core, after, rfl, blankBefore, spelled, blankAfter⟩ := spelled
  rcases spelled.kept_or_overruns with kept | overruns
  · exact ⟨before, core, after, rfl, blankBefore, kept, blankAfter⟩
  · have overflows := (overruns (after ++ rest) (stops.blank blankAfter)).blank blankBefore
    rw [← List.append_assoc core, ← List.append_assoc before] at overflows
    exact absurd overflows inRange

end JsonTemplate.Json
