import JsonTemplate.Proofs.Json.Meaning
import JsonTemplate.Proofs.Json.Overflow
import JsonTemplate.Proofs.Json.Readable

set_option autoImplicit false

/-!
# Standard documents

A text that is nested no deeper than 600 levels and whose numbers can be kept is read exactly if it
is a value of the grammar with white space around it. Every other such text is refused as malformed.
-/

namespace JsonTemplate.Json

/-- One value of the grammar with white space around it, whatever its numbers and its depth. -/
def Standard (text : Text) (value : Json) : Prop :=
  ∃ depth, SpellsWhole (fun _ => True) depth text value

/-- What a text spells, if anything, it spells with at most `levels` arrays and objects around each
other. -/
def Shallow (levels : Nat) (text : Text) : Prop :=
  ∀ depth value, SpellsWhole (fun _ => True) depth text value →
    SpellsWhole (fun _ => True) levels text value

/-! ## Bounds of a text -/

section Bounds

variable {admitted other : Number → Prop}

private theorem Scalar.admit (weaker : ∀ number, admitted number → other number) {text : Text}
    {value : Json} (scalar : Scalar admitted text value) : Scalar other text value := by
  cases scalar with
  | null => exact .null
  | true => exact .true
  | false => exact .false
  | number literal kept => exact .number literal (weaker _ kept)
  | string literal => exact .string literal

private theorem Spells.admit (weaker : ∀ number, admitted number → other number) {depth : Nat}
    {text : Text} {value : Json} (spelled : Spells admitted depth text value) :
    Spells other depth text value := by
  induction depth generalizing text value with
  | zero => exact Scalar.admit weaker spelled
  | succ depth ih => exact Layer.imp spelled (fun scalar => scalar.admit weaker) ih

theorem Series.bounded {α : Type} {element : Text → α → Prop} {close : CodePoint} {text : Text}
    {values : List α} {bound : Nat} (series : Series element close text values)
    (short : text.length ≤ bound) :
    Series (fun part value => element part value ∧ part.length < bound) close text values := by
  induction series with
  | last before spelled after =>
      refine .last before ⟨spelled, ?_⟩ after
      simp only [List.length_append, List.length_singleton] at short
      omega
  | more before spelled after _ ih =>
      simp only [List.length_append, List.length_cons] at short
      exact .more before ⟨spelled, by omega⟩ after (ih (by omega))

theorem Enclosed.bounded {α : Type} {element : Text → α → Prop} {close : CodePoint} {text : Text}
    {values : List α} (enclosed : Enclosed element close text values) :
    Enclosed (fun part value => element part value ∧ part.length < text.length) close text
      values := by
  cases enclosed with
  | none blank => exact .none blank
  | some series => exact .some (series.bounded le_rfl)

/-- Every array and object takes a position, so a text has more positions than levels. -/
theorem Spells.of_length {depth bound : Nat} {text : Text} {value : Json}
    (spelled : Spells admitted depth text value) (short : text.length ≤ bound) :
    Spells admitted bound text value := by
  induction depth generalizing bound text value with
  | zero => exact Scalar.spells spelled bound
  | succ depth ih =>
      cases spelled with
      | scalar scalar => exact scalar.spells bound
      | array items =>
          obtain ⟨fewer, rfl⟩ : ∃ fewer, bound = fewer + 1 :=
            Nat.exists_eq_add_one.mpr (by simp at short; omega)
          refine .array (items.bounded.imp fun {part _} inside => ih inside.1 ?_)
          simp only [List.length_cons] at short
          omega
      | object members =>
          obtain ⟨fewer, rfl⟩ : ∃ fewer, bound = fewer + 1 :=
            Nat.exists_eq_add_one.mpr (by simp at short; omega)
          refine .object (members.bounded.imp ?_)
          rintro part member ⟨inside, smaller⟩
          cases inside with
          | pair literal gap space value =>
              refine .pair literal gap space (ih value ?_)
              simp only [List.length_cons, List.length_append] at short smaller
              omega

private theorem shallow_of_length {levels : Nat} {text : Text} (short : text.length ≤ levels) :
    Shallow levels text := by
  rintro depth value ⟨before, core, after, rfl, blankBefore, spelled, blankAfter⟩
  refine ⟨before, core, after, rfl, blankBefore, spelled.of_length ?_, blankAfter⟩
  simp only [List.length_append] at short
  omega

/-- Without letters of exponents no number is out of range, unless the text is longer than any. -/
theorem not_overflows_of_plain {text : Text}
    (plain : ∀ point ∈ text, point ≠ .scalar 'e' ∧ point ≠ .scalar 'E')
    (short : text.length ≤ 999999999999999999) : ¬ Overflows text := by
  rintro ⟨before, rest, number, left, rfl, _, _, read, large⟩
  obtain ⟨literal, rfl, spelled, _⟩ := number?_sound read
  cases spelled with
  | @parts negative whole fractionText fraction exponentText exponent wholeSpelled fractionSpelled
      exponentSpelled =>
      cases exponentSpelled with
      | @power letter _ _ _ isLetter =>
          have member := plain letter (by simp)
          rcases isLetter with rfl | rfl
          · exact member.1 rfl
          · exact member.2 rfl
      | none =>
          have fractional : fraction.length ≤ fractionText.length ∧
              ∀ point ∈ fraction, point.isDigit = true := by
            cases fractionSpelled with
            | none => exact ⟨le_rfl, nofun⟩
            | point all => exact ⟨Nat.le_succ _, all.2⟩
          have digits : ∀ point ∈ whole ++ fraction, point.isDigit = true :=
            List.forall_mem_append.mpr ⟨wholeSpelled.digits.2, fractional.2⟩
          have positive := List.length_pos_iff.mpr wholeSpelled.digits.1
          have bounded := Numeral.value_lt digits
          simp only [List.length_append] at short bounded
          refine large ?_
          unfold Kept numberOf
          split
          · next integer =>
              obtain ⟨noFraction, _, _⟩ := integer
              rw [List.isEmpty_iff] at noFraction
              subst noFraction
              rw [List.append_nil] at bounded
              refine Decimal.inRange_of_width positive ?_ ?low ?high
              case low => simp [Number.toDecimal, Decimal.largestAdjusted]
              case high =>
                simp only [Number.toDecimal, Decimal.largestAdjusted]
                omega
              cases negative <;> simpa [Number.toDecimal] using bounded
          · refine Decimal.inRange_of_width (by omega) bounded ?_ ?_
            · simp only [Number.toDecimal, Option.getD_none, Decimal.largestAdjusted]
              omega
            · simp only [Number.toDecimal, Option.getD_none, Decimal.largestAdjusted]
              omega

end Bounds

/-! ## Standard texts are read -/

theorem Standard.read {text : Text} {value : Json} (standard : Standard text value)
    (shallow : Shallow 600 text) (inRange : ¬ Overflows text) : readText text = .ok value := by
  obtain ⟨depth, spelled⟩ := standard
  have kept := (shallow depth value spelled).kept stops_nil (by rwa [List.append_nil])
  obtain ⟨before, core, after, split, blankBefore, spelled, blankAfter⟩ := kept
  exact readText_complete
    ⟨before, core, after, split, blankBefore, spelled.mono (by decide), blankAfter⟩

private theorem standard_of_read {text : Text} {value : Json} (read : readText text = .ok value) :
    Standard text value := by
  obtain ⟨before, core, after, split, blankBefore, spelled, blankAfter⟩ := readText_sound read
  exact ⟨room, before, core, after, split, blankBefore, spelled.admit fun _ _ => trivial,
    blankAfter⟩

/-! ## Texts that are refused -/

inductive Refused : Text → Prop where
  | empty {text : Text} : Blank text → Refused text
  | mark {rest : Text} : Refused (.scalar '\uFEFF' :: rest)
  | constant {before rest : Text} (constant : Constant) : Balanced before →
      Refused (before ++ (constant.name ++ rest))
  | control {before body rest : Text} {read : List Piece} {point : CodePoint} :
      Balanced before → StringBody body read → point.value < 0x20 →
      Refused (before ++ .scalar '"' :: (body ++ point :: rest))
  | trailing {front rest : Text} {value : Json} :
      SpellsWhole (fun _ => True) 600 front value → Stops rest → ¬ Blank rest →
      Refused (front ++ rest)

private theorem pieces_control (opening : Text) {body rest : Text} {read : List Piece}
    {point : CodePoint}
    (spelled : StringBody body read) (control : point.value < 0x20)
    (result : List Piece × Text) : pieces opening (body ++ point :: rest) ≠ .ok result := by
  induction spelled generalizing result with
  | nil =>
      have notQuote : point ≠ .scalar '"' := by
        rintro rfl
        exact absurd control (by decide)
      have notEscape : point ≠ .scalar '\\' := by
        rintro rfl
        exact absurd control (by decide)
      rw [List.nil_append, pieces.eq_def]
      simp [notQuote, notEscape, control]
  | cons pieceSpelled _ ih =>
      rw [List.append_assoc, pieces_append opening pieceSpelled (by simp)]
      intro accepted
      obtain ⟨others, ran, _⟩ := ok_of_withPiece accepted
      exact ih _ ran

/-- No string literal goes on with a control character that is not escaped. -/
theorem not_literal_of_control {body rest behind literal value : Text} {read : List Piece}
    {point : CodePoint} (spelled : StringBody body read) (control : point.value < 0x20)
    (same : .scalar '"' :: (body ++ point :: rest) = literal ++ behind) :
    ¬ StringLiteral literal value := by
  intro complete
  obtain ⟨text, split, accepted⟩ := readString_complete complete behind
  rw [← same] at split
  cases split
  obtain ⟨_, ran, _⟩ := ok_of_map accepted
  exact pieces_control _ spelled control _ ran

private theorem readText_trailing {depth : Nat} {front rest : Text} {value : Json}
    (spelled : SpellsWhole Kept depth front value) (few : depth ≤ deepest) (stops : Stops rest)
    (more : ¬ Blank rest) (other : Json) : readText (front ++ rest) ≠ .ok other := by
  intro read
  obtain ⟨before, core, after, rfl, blankBefore, spelled, blankAfter⟩ := spelled
  have whole : readWhole (before ++ (core ++ (after ++ rest))) = .ok other := by
    unfold readText at read
    split at read
    · cases read
    · simpa only [List.append_assoc] using ok_of_mapError read
  have value := readValue_complete room ((spelled.mono few).fits le_rfl) (stops.blank blankAfter)
  obtain ⟨first, others, rfl, opening⟩ := spelled.head
  rw [readWhole, skipSpace_blank blankBefore, List.cons_append, skipSpace_of_opens opening,
    ← List.cons_append, value] at whole
  obtain ⟨⟨_, left⟩, same, continued⟩ := ok_of_bind whole
  cases same
  dsimp only at continued
  rw [skipSpace_blank blankAfter] at continued
  split at continued
  · next ended =>
      obtain ⟨gap, split, blank⟩ := skipSpace_split rest
      rw [ended, List.append_nil] at split
      exact more (split ▸ blank)
  · cases continued

theorem Refused.unread {text : Text} (refused : Refused text) (inRange : ¬ Overflows text)
    (value : Json) : readText text ≠ .ok value := by
  intro read
  -- A text that was read is standard, and each of these has, outside of strings, a position that
  -- no standard text has there; behind a value it is the reader that stops.
  obtain ⟨depth, spelled⟩ := standard_of_read read
  have outside := spelled.outside
  cases refused with
  | empty blank =>
      obtain ⟨before, core, after, rfl, _, inside, _⟩ := spelled
      obtain ⟨first, others, rfl, opening⟩ := inside.head
      have space := blank first (by simp)
      rw [opening.1] at space
      cases space
  | mark => exact absurd (outside.cons_inv rfl (by decide)).1 (by decide)
  | constant constant balanced =>
      have named := outside.rest balanced
      cases constant with
      | notANumber => exact absurd (named.cons_inv rfl (by decide)).1 (by decide)
      | infinity => exact absurd (named.cons_inv rfl (by decide)).1 (by decide)
      | negativeInfinity =>
          have behind := (named.cons_inv rfl (by decide)).2
          exact absurd (behind.cons_inv rfl (by decide)).1 (by decide)
  | control balanced body control =>
      have string := outside.rest balanced
      generalize same : CodePoint.scalar '"' :: _ = behind at string
      cases string with
      | nil => cases same
      | point notQuote =>
          cases same
          exact notQuote rfl
      | literal spelled => exact not_literal_of_control body control same spelled
  | trailing front stops more =>
      exact readText_trailing (front.kept stops inRange) (by decide) stops more value read

private theorem parse_of_unread {text : Text} (inRange : ¬ Overflows text)
    (unread : ∀ value, readText text ≠ .ok value) (source : Option Text) :
    ∃ fault, Document.read source (.text text) = .error (.reported (.parse source fault)) := by
  cases read : readText text with
  | ok value => exact absurd read (unread value)
  | error refusal =>
      cases refusal with
      | fault fault => exact ⟨fault, by rw [Document.read, read]; rfl⟩
      | numberOutOfRange => exact absurd (readText_overflows read) inRange

/-- A text of at most 600 levels without a number out of range is read exactly if it is standard,
and gives the value that it denotes; otherwise it is a fault of the text. So are empty texts, a mark
of the byte order in front, constants that are no numbers, control characters in strings and
anything behind a value. Numbers are exact, the halves of a pair are joined and nothing else is, and
of equal keys the first place and the last value count. -/
theorem read_iff_standard (source : Option Text) {text : Text} (shallow : Shallow 600 text)
    (inRange : ¬ Overflows text) :
    (∀ value, Document.read source (.text text) = .ok value ↔ Standard text value) ∧
    ((∀ value, ¬ Standard text value) →
      ∃ fault, Document.read source (.text text) = .error (.reported (.parse source fault))) ∧
    (Refused text →
      ∃ fault, Document.read source (.text text) = .error (.reported (.parse source fault))) ∧
    (∀ negative whole fraction exponent, (numberOf negative whole fraction exponent).toRat =
      denoted negative whole fraction exponent) ∧
    (∀ before high low after, Paired high low →
      ∃ character : Char,
        joinPairs (before ++ .unit high :: .unit low :: after) =
          joinPairs before ++ .scalar character :: joinPairs after ∧
        character.toNat = 0x10000 + (high.value - 0xD800) * 0x400 + (low.value - 0xDC00)) ∧
    (∀ pieces, (∀ before high low after, pieces = before ++ .unit high :: .unit low :: after →
      ¬ Paired high low) → joinPairs pieces = pieces.map Piece.point) ∧
    ∀ members : List (Text × Json),
      (Bindings.ofList members).map Prod.fst = (members.map Prod.fst).eraseDups ∧
      ∀ key, (Bindings.ofList members).lookup key = members.reverse.lookup key := by
  have standard : ∀ value, readText text = .ok value ↔ Standard text value := fun value =>
    ⟨standard_of_read, fun standard => standard.read shallow inRange⟩
  refine ⟨fun value => read_text_eq_ok_iff.trans (standard value), fun other => ?_,
    fun refused => parse_of_unread inRange (refused.unread inRange) source, toRat_numberOf,
    fun before high low after paired => ?_, fun pieces alone => joinPairs_of_no_pair alone,
    fun members => ⟨Bindings.map_fst_ofList members, Bindings.lookup_ofList members⟩⟩
  · refine parse_of_unread inRange (fun value read => ?_) source
    exact other value ((standard value).mp read)
  · obtain ⟨character, joined, number⟩ := joinSurrogates_eq paired
    refine ⟨character, ?_, number⟩
    rw [joinPairs_append_high before paired.1, joinPairs_pair paired, joined]

/-- A repeated key, a fraction and a pair of code units; and a constant in an array. -/
theorem read_iff_standard_repeated_key :
    let text := lit "\x7b\"b\":1.5,\"a\":\"\\ud83d\\udc00\",\"b\":null\x7d\n"
    let value : Json := .object [(lit "b", .null), (lit "a", .string [.ofNat 0x1F400])]
    Shallow 600 text ∧ ¬ Overflows text ∧ Document.read none (.text text) = .ok value ∧
      ∃ fault,
        Document.read none (.text (lit "[NaN]")) = .error (.reported (.parse none fault)) := by
  intro text value
  have whole : WholePart (lit "1") := .inr ⟨⟨nofun, by decide⟩, by decide⟩
  have fraction : FractionPart (lit ".5") (lit "5") := .point ⟨nofun, by decide⟩
  have number : NumberLiteral
      ((if false then [.scalar '-'] else []) ++ (lit "1" ++ (lit ".5" ++ [])))
      (numberOf false (lit "1") (lit "5") none) := .parts whole fraction .none
  have high : PieceText (lit "\\ud83d") (.unit (.ofNat 0xD83D)) := .unit rfl
  have low : PieceText (lit "\\udc00") (.unit (.ofNat 0xDC00)) := .unit rfl
  have pair : StringLiteral (lit "\"\\ud83d\\udc00\"") (joinPairs [_, _]) :=
    .quoted (.cons high (.cons low .nil))
  have members : Series (MemberText (Spells (fun _ => True) 0)) (.scalar '\x7d') _ _ :=
    .more .nil (.pair (quote_literal (lit "b")) .nil .nil (.number number trivial)) .nil
      (.more .nil (.pair (quote_literal (lit "a")) .nil .nil (.string pair)) .nil
        (.last .nil (.pair (quote_literal (lit "b")) .nil .nil .null) .nil))
  have standard : Standard text value :=
    ⟨1, [], _, lit "\n", rfl, .nil, .object (.some members), List.forall_mem_singleton.mpr rfl⟩
  have shallow : Shallow 600 text := shallow_of_length (by decide)
  have inRange : ¬ Overflows text := not_overflows_of_plain (by decide) (by decide)
  obtain ⟨read, _⟩ := read_iff_standard none shallow inRange
  have constantShallow : Shallow 600 (lit "[NaN]") := shallow_of_length (by decide)
  obtain ⟨_, _, refused, _⟩ := read_iff_standard none constantShallow
    (not_overflows_of_plain (by decide) (by decide))
  have bracket : Balanced (lit "[") := .point (by decide) trivial .nil
  have constant : Refused (lit "[" ++ (Constant.notANumber.name ++ lit "]")) :=
    .constant .notANumber bracket
  exact ⟨shallow, inRange, (read value).mpr standard, refused constant⟩

end JsonTemplate.Json
