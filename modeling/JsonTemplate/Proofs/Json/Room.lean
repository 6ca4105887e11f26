import JsonTemplate.Proofs.Json.Readable
import JsonTemplate.Proofs.Json.RoundTrip
import JsonTemplate.Proofs.Json.Taken

set_option autoImplicit false

/-!
# Room for what was written

A value that was read is written as a text for which there is room too, but for one case. A decimal
without a fraction is written like an integer, which takes a level more than the literal with an
exponent that the decimal may come from.
-/

namespace JsonTemplate.Json

/-- So many levels are enough for a value whose numbers take what `cost` says. -/
inductive HasRoom (cost : Number → Nat) : Nat → Json → Prop where
  | null {levels : Nat} : HasRoom cost levels .null
  | boolean {levels : Nat} {value : Bool} : HasRoom cost levels (.boolean value)
  | number {levels : Nat} {value : Number} : cost value ≤ levels →
      HasRoom cost levels (.number value)
  | string {levels : Nat} {text : Text} : HasRoom cost levels (.string text)
  | array {levels : Nat} {items : List Json} : (∀ item ∈ items, HasRoom cost levels item) →
      HasRoom cost (levels + 1) (.array items)
  | object {levels : Nat} {members : List (Text × Json)} :
      (∀ member ∈ members, HasRoom cost levels member.2) →
      HasRoom cost (levels + 1) (.object members)

section HasRoom

variable {cost other : Number → Nat} {levels : Nat}

private theorem hasRoom_number_iff {value : Number} :
    HasRoom cost levels (.number value) ↔ cost value ≤ levels := by
  refine ⟨fun room => ?_, .number⟩
  cases room with
  | number enough => exact enough

private theorem hasRoom_array_iff {items : List Json} :
    HasRoom cost (levels + 1) (.array items) ↔ ∀ item ∈ items, HasRoom cost levels item := by
  refine ⟨fun room => ?_, .array⟩
  cases room with
  | array each => exact each

private theorem hasRoom_object_iff {members : List (Text × Json)} :
    HasRoom cost (levels + 1) (.object members) ↔
      ∀ member ∈ members, HasRoom cost levels member.2 := by
  refine ⟨fun room => ?_, .object⟩
  cases room with
  | object each => exact each

/-- A number inside has the levels that the arrays and objects around it leave. -/
theorem HasRoom.number_at {value : Json} (room : HasRoom cost levels value) {place : Path}
    {number : Number} (leads : value.at? place = some (.number number)) :
    place.length + cost number ≤ levels := by
  induction place generalizing levels value with
  | nil =>
      cases leads
      rw [List.length_nil, Nat.zero_add]
      exact hasRoom_number_iff.mp room
  | cons step rest ih =>
      obtain ⟨child, below, further⟩ := Option.bind_eq_some_iff.mp leads
      rw [List.length_cons, Nat.add_right_comm]
      rcases Tree.container_of_child? below with
        ⟨members, key, rfl, rfl, found⟩ | ⟨items, position, rfl, rfl, found⟩
      · cases room with
        | object each =>
            exact Nat.succ_le_succ (ih (each _ (mem_of_lookup_eq_some found)) further)
      · cases room with
        | array each => exact Nat.succ_le_succ (ih (each _ (List.mem_of_getElem? found)) further)

/-- Other costs fit as well when they fit wherever a number stands. -/
theorem HasRoom.change {value : Json} (room : HasRoom cost levels value)
    (distinct : value.DistinctKeys)
    (each : ∀ place number, value.at? place = some (.number number) →
      place.length + other number ≤ levels) : HasRoom other levels value := by
  induction room with
  | null => exact .null
  | boolean => exact .boolean
  | string => exact .string
  | number =>
      have enough := each [] _ rfl
      rw [List.length_nil, Nat.zero_add] at enough
      exact .number enough
  | @array levels items _ ih =>
      have keys := Tree.distinctKeys_array.mp distinct
      refine .array fun item member => ih item member (keys item member) fun place number leads => ?_
      obtain ⟨position, here⟩ := List.mem_iff_getElem?.mp member
      have enough := each (.index position :: place) number (by simp [here, leads])
      rw [List.length_cons] at enough
      omega
  | @object levels members _ ih =>
      obtain ⟨keys, inside⟩ := Tree.distinctKeys_object.mp distinct
      refine .object fun member included =>
        ih member included (inside member included) fun place number leads => ?_
      have here : members.lookup member.1 = some member.2 := keys.lookup_iff.mpr included
      have enough := each (.key member.1 :: place) number (by simp [here, leads])
      rw [List.length_cons] at enough
      omega

end HasRoom

/-! ## What was read -/

/-- The levels that any literal of a number takes. -/
def leastLevels : Number → Nat
  | .integer _ => 2
  | .decimal _ => 1

private theorem NumberLiteral.leastLevels_le {text : Text} {value : Number}
    (literal : NumberLiteral text value) : leastLevels value ≤ literalLevels text := by
  have one : 1 ≤ literalLevels text := by
    unfold literalLevels
    split <;> decide
  cases literal with
  | @parts negative whole fractionText fraction exponentText exponent wholePart fractionPart
      exponentPart =>
      unfold numberOf
      split
      · next plain =>
          have marks := any_isFractionMark wholePart fractionPart exponentPart
          rw [plain.1, Option.isNone_iff_eq_none.mp plain.2.1] at marks
          have unsigned : (if negative then [CodePoint.scalar '-'] else []).any isFractionMark =
              false := by
            cases negative <;> rfl
          rw [literalLevels, List.any_append, unsigned, marks]
          rfl
      · exact one

private theorem FitsScalar.hasRoom {levels : Nat} {text : Text} {value : Json}
    (fits : FitsScalar levels text value) : HasRoom leastLevels levels value := by
  obtain ⟨scalar, enough⟩ := fits
  cases scalar with
  | null => exact .null
  | true => exact .boolean
  | false => exact .boolean
  | string => exact .string
  | number literal => exact .number (Nat.le_trans literal.leastLevels_le enough)

private theorem Fits.hasRoom {levels : Nat} {text : Text} {value : Json}
    (fits : Fits levels text value) :
    HasRoom leastLevels levels value := by
  induction levels generalizing text value with
  | zero => exact FitsScalar.hasRoom fits
  | succ levels ih =>
      cases fits with
      | scalar scalar => exact scalar.hasRoom
      | array enclosed => exact .array (enclosed.forall ih)
      | object enclosed =>
          refine .object fun member included => ?_
          have each : ∀ {text : Text} {member : Text × Json},
              MemberText (Fits levels) text member → HasRoom leastLevels levels member.2 := by
            intro text member spelled
            cases spelled with
            | pair _ _ _ inside => exact ih inside
          exact enclosed.forall each member (Bindings.mem_ofList included)

/-! ## What is written -/

def writtenLevels (number : Number) : Nat :=
  literalLevels number.render

private theorem writtenLevels_of_exponent_zero {number : Decimal} (zero : number.exponent = 0) :
    writtenLevels (.decimal number) = 2 := by
  have sign : (minus number.negative).any isFractionMark = false := by
    cases number.negative <;> rfl
  have digits := Digits.any_isFractionMark (Numeral.isDigit_ofNat number.coefficient)
  rw [writtenLevels, literalLevels, Number.render, Decimal.render_of_exponent_zero zero,
    List.any_append, sign, digits]
  rfl

private theorem writtenLevels_of_exponent_ne_zero {number : Decimal}
    (scaled : number.exponent ≠ 0) :
    writtenLevels (.decimal number) = 1 := by
  have marked : number.render.any isFractionMark = true := by
    obtain ⟨_, _, _, restated⟩ := number.restated
    rw [List.any_eq_true]
    cases restated with
    | decimal mark =>
        rcases mark with point | letter
        · exact ⟨_, point, rfl⟩
        · exact ⟨_, letter, rfl⟩
    | long _ _ zero => exact absurd zero scaled
    | short _ _ zero => exact absurd zero scaled
  exact if_pos marked

open scoped Classical in
private theorem mapM_eq_ite {β γ : Type} {outcome : β → Option γ} {good : β → Prop} {result : β → γ}
    {items : List β}
    (each : ∀ item ∈ items, outcome item = if good item then some (result item) else none) :
    items.mapM outcome = if ∀ item ∈ items, good item then some (items.map result) else none := by
  induction items with
  | nil => simp
  | cons item rest ih =>
      obtain ⟨here, others⟩ := List.forall_mem_cons.mp each
      rw [List.mapM_cons, here, ih others]
      by_cases first : good item
      · rw [if_pos first]
        by_cases later : ∀ other ∈ rest, good other
        · rw [if_pos later, if_pos (List.forall_mem_cons.mpr ⟨first, later⟩)]
          rfl
        · rw [if_neg later, if_neg fun all => later (List.forall_mem_cons.mp all).2]
          rfl
      · rw [if_neg first, if_neg fun all => first (List.forall_mem_cons.mp all).1]
        rfl

private theorem listed_eq_join (close : CodePoint) (texts : List Text) :
    listed close texts = Text.join [.scalar ','] texts ++ [close] := by
  induction texts with
  | nil => rfl
  | cons first rest ih =>
      cases rest with
      | nil => simp [listed, Text.join]
      | cons second others => rw [listed, ih, join_cons_cons, List.nil_append]

open scoped Classical in
noncomputable def outcomeOf (levels : Nat) (value again : Json) : Option Json :=
  if HasRoom writtenLevels levels value then some again else none

/-- Reading what is written for a value gives the value back if there is room for it, and else stops
at what there are too few levels for. -/
def TakenAs (value again : Json) : Prop :=
  ∀ levels, Takes (· = .tooDeep) (readValue levels) (render value) (outcomeOf levels value again)

private theorem tooDeep_raised {levels : Nat} : ∀ stop : Stop, stop = .tooDeep →
    stop.raised levels = stop := by
  rintro _ rfl
  exact if_pos (Nat.zero_le levels)

private theorem outcomeOf_of_hasRoom {levels : Nat} {value again : Json}
    (room : HasRoom writtenLevels levels value) : outcomeOf levels value again = some again :=
  if_pos room

private theorem Scalar.takenAs {value again : Json} (scalar : Scalar Kept (render value) again)
    (flat : ∀ levels, HasRoom writtenLevels levels value)
    (free : scalarLevels (render value) again = 0) : TakenAs value again := by
  intro levels
  rw [outcomeOf_of_hasRoom (flat levels)]
  exact FitsScalar.takes ⟨scalar, by rw [free]; exact Nat.zero_le levels⟩

private theorem takenAs_number {number again : Number} (literal : NumberLiteral number.render again)
    (kept : Kept again) : TakenAs (.number number) (.number again) := by
  intro levels
  by_cases enough : writtenLevels number ≤ levels
  · rw [outcomeOf_of_hasRoom (.number enough), render_number]
    exact FitsScalar.takes ⟨.number literal kept, enough⟩
  · have crowded : outcomeOf levels (.number number) (.number again) = none :=
      if_neg fun room => enough (hasRoom_number_iff.mp room)
    rw [crowded, render_number]
    obtain ⟨first, rest, split, opens, _⟩ := Scalar.head (.number literal kept)
    refine ⟨⟨first, rest, split, opens⟩, fun rest stops => .stopped rfl ?_⟩
    rw [readValue_number levels literal, readNumber, number?_complete literal stops,
      numberLevels_eq literal stops]
    exact if_pos (Nat.lt_of_not_le enough)

open scoped Classical in
private theorem outcomeOf_array {levels : Nat} {items : List Json} {answer : Json → Json} :
    (items.mapM fun item => outcomeOf levels item (answer item)).map Tree.array =
      outcomeOf (levels + 1) (.array items) (.array (items.map answer)) := by
  have each : ∀ item ∈ items, outcomeOf levels item (answer item) =
      if HasRoom writtenLevels levels item then some (answer item) else none := fun _ _ => rfl
  rw [mapM_eq_ite each, outcomeOf]
  by_cases room : ∀ item ∈ items, HasRoom writtenLevels levels item
  · rw [if_pos room, if_pos (.array room)]
    rfl
  · rw [if_neg room, if_neg (mt hasRoom_array_iff.mp room)]
    rfl

open scoped Classical in
private theorem outcomeOf_object {levels : Nat} {members : List (Text × Json)}
    {answer : Text × Json → Json}
    (distinct : Bindings.Distinct members) :
    (members.mapM fun member => (outcomeOf levels member.2 (answer member)).map (member.1, ·)).map
        (fun found => Tree.object (Bindings.ofList found)) =
      outcomeOf (levels + 1) (.object members) (.object (members.map (answered answer))) := by
  have each : ∀ member ∈ members, (outcomeOf levels member.2 (answer member)).map (member.1, ·) =
      if HasRoom writtenLevels levels member.2 then some (answered answer member) else none := by
    intro member _
    unfold outcomeOf
    split <;> rfl
  rw [mapM_eq_ite each, outcomeOf]
  by_cases room : ∀ member ∈ members, HasRoom writtenLevels levels member.2
  · rw [if_pos room, if_pos (.object room), Option.map_some, ofList_answered distinct]
  · rw [if_neg room, if_neg (mt hasRoom_object_iff.mp room)]
    rfl

private theorem takenAs_array {items : List Json} {answer : Json → Json}
    (each : ∀ item ∈ items, TakenAs item (answer item)) :
    TakenAs (.array items) (.array (items.map answer)) := by
  intro levels
  rw [render_array, listed_eq_join]
  cases levels with
  | zero =>
      have crowded : outcomeOf 0 (.array items) (.array (items.map answer)) = none := if_neg nofun
      rw [crowded]
      exact ⟨⟨_, _, rfl, by decide⟩, fun rest _ => .stopped rfl (by simp [readValue])⟩
  | succ levels =>
      have texts : List.Forall₂ (fun item text => Takes (· = .tooDeep) (readValue levels) text
          (outcomeOf levels item (answer item))) items (items.map render) :=
        List.forall₂_map_right_iff.mpr
          (List.forall₂_same.mpr fun item member => each item member levels)
      rw [← outcomeOf_array]
      exact takes_array tooDeep_raised .nil texts

private theorem takenAs_object {members : List (Text × Json)} {answer : Text × Json → Json}
    (distinct : Bindings.Distinct members)
    (each : ∀ member ∈ members, TakenAs member.2 (answer member)) :
    TakenAs (.object members) (.object (members.map (answered answer))) := by
  intro levels
  rw [render_object, listed_eq_join]
  cases levels with
  | zero =>
      have crowded : outcomeOf 0 (.object members) (.object (members.map (answered answer))) =
          none := if_neg nofun
      rw [crowded]
      exact ⟨⟨_, _, rfl, by decide⟩, fun rest _ => .stopped rfl (by simp [readValue])⟩
  | succ levels =>
      have texts : List.Forall₂ (fun (member : Text × Json) text =>
          Takes (· = .tooDeep) (readMember (readValue levels)) text
            ((outcomeOf levels member.2 (answer member)).map (member.1, ·)))
          members (members.map renderMember) :=
        List.forall₂_map_right_iff.mpr (List.forall₂_same.mpr fun member included =>
          takes_member .nil (quote_literal member.1) (each member included levels))
      rw [← outcomeOf_object distinct]
      exact takes_object tooDeep_raised .nil texts

/-- What is written for a value with numbers that can be kept is taken as a value that is equal to
it node by node. -/
theorem render_taken {depth : Nat} {value : Json} (readable : Readable depth value) :
    ∃ again, Returns value again ∧ TakenAs value again := by
  have atoms : ∀ {value : Json}, Atom value →
      ∃ again, Returns value again ∧ TakenAs value again := by
    intro value atom
    cases atom with
    | null => exact ⟨_, .null, Scalar.takenAs (render_null ▸ .null) (fun _ => .null) rfl⟩
    | @boolean flag =>
        refine ⟨_, .boolean, Scalar.takenAs ?_ (fun _ => .boolean) rfl⟩
        rw [render_boolean]
        cases flag with
        | false => exact .false
        | true => exact .true
    | number stored =>
        obtain ⟨again, literal, kept, restated⟩ := Number.restated stored
        exact ⟨_, .number restated, takenAs_number literal kept⟩
    | @string text =>
        refine ⟨_, .string, Scalar.takenAs ?_ (fun _ => .string) rfl⟩
        rw [render_string]
        exact .string (quote_literal text)
  induction depth generalizing value with
  | zero => exact atoms readable
  | succ depth ih =>
      cases readable with
      | atom atom => exact atoms atom
      | @array items each =>
          choose! answer returned taken using fun item member => ih (each item member)
          exact ⟨_, .array_map returned, takenAs_array taken⟩
      | @object members distinct each =>
          choose! answer returned taken using fun (member : Text × Json) included =>
            ih (each member.1 member.2 included)
          exact ⟨_, .object_map returned, takenAs_object distinct taken⟩

/-! ## Documents -/

/-- A decimal without a fraction stands so deep that an integer has no room in its place. -/
def Crowded (value : Json) : Prop :=
  ∃ place number, value.at? place = some (.number (.decimal number)) ∧ number.exponent = 0 ∧
    place.length + 1 = room

private theorem hasRoom_written_iff {value : Json} (least : HasRoom leastLevels room value)
    (distinct : value.DistinctKeys) : HasRoom writtenLevels room value ↔ ¬Crowded value := by
  constructor
  · rintro written ⟨place, number, leads, zero, last⟩
    have enough := written.number_at leads
    rw [writtenLevels_of_exponent_zero zero] at enough
    omega
  · intro free
    refine least.change distinct fun place number leads => ?_
    have enough := least.number_at leads
    cases number with
    | integer => exact (Nat.add_le_add_left (literalLevels_le _) _).trans enough
    | decimal number =>
        by_cases zero : number.exponent = 0
        · have notLast : place.length + 1 ≠ room := fun last =>
            free ⟨place, number, leads, zero, last⟩
          rw [writtenLevels_of_exponent_zero zero]
          exact Nat.lt_of_le_of_ne enough notLast
        · rw [writtenLevels_of_exponent_ne_zero zero]
          exact enough

private theorem readText_render {text : Text} {value : Json}
    (accepted : readText text = .ok value) :
    ∃ again, Returns value again ∧
      (¬Crowded value → readText (render value) = .ok again) ∧
      (Crowded value → readText (render value) = .error (.fault .nestedTooDeeply)) := by
  have readable := readText_readable accepted
  obtain ⟨_, core, _, _, _, fits, _⟩ := readText_fits accepted
  have roomy := hasRoom_written_iff fits.hasRoom readable.distinctKeys
  obtain ⟨again, returned, taken⟩ := render_taken readable
  obtain ⟨found, stopped⟩ := (taken room).document
  refine ⟨again, returned, fun free => ?_, fun crowded => ?_⟩
  · exact found again (outcomeOf_of_hasRoom (roomy.mpr free))
  · obtain ⟨stop, rfl, refused⟩ := stopped (if_neg fun written => roomy.mp written crowded)
    exact refused

/-- Reading undoes writing, unless a decimal is crowded. Every other value that was read is read
again from its text, node by node, and a decimal comes back in its form where its text shows a point
or an exponent. What is written for a crowded decimal is refused as nested too deeply. Two values
that were read and are written alike are equal by value. -/
theorem read_undoes_render {source : Option Text} {document : Document} {value : Json}
    (accepted : document.read source = .ok value) :
    (¬Crowded value → ∃ again,
      (∀ label, Document.read label (.text (render value)) = .ok again) ∧ Returns value again) ∧
    (Crowded value → ∀ label, Document.read label (.text (render value)) =
      .error (.reported (.parse label .nestedTooDeeply))) ∧
    ∀ (label : Option Text) (other : Document) (found : Json),
      other.read label = .ok found → render found = render value → SameValue value found := by
  obtain ⟨text, read⟩ := Document.read_text accepted
  obtain ⟨again, returned, readAgain, refused⟩ := readText_render read
  refine ⟨fun free => ⟨again, fun label => ?_, returned⟩, fun crowded label => ?_, ?_⟩
  · rw [Document.read, readAgain free]
    rfl
  · rw [Document.read, refused crowded]
    rfl
  · intro label other found readOther alike
    obtain ⟨otherText, readOtherText⟩ := Document.read_text readOther
    obtain ⟨again, spelled, returned⟩ := render_spelled (readText_readable read)
    obtain ⟨other, otherSpelled, returnedOther⟩ := render_spelled (readText_readable readOtherText)
    rw [alike] at otherSpelled
    cases spelled.unique otherSpelled
    exact returned.sameValue.trans returnedOther.sameValue.symm

/-- A number with a zero at its end. -/
theorem read_undoes_render_decimal :
    Document.read none (.text (lit "1.50")) = .ok (.number (.decimal ⟨false, 150, -2⟩)) ∧
      ∃ again, Document.read none (.text (render (.number (.decimal ⟨false, 150, -2⟩)))) =
        .ok again ∧ Returns (.number (.decimal ⟨false, 150, -2⟩)) again := by
  have literal : NumberLiteral (lit "1.50") (.decimal ⟨false, 150, -2⟩) := by
    have whole : WholePart (lit "1") := wholePart_digit (by decide)
    have fraction : FractionPart (lit ".50") (lit "50") := .point ⟨by decide, by decide⟩
    have parts : NumberLiteral (minus false ++ (lit "1" ++ (lit ".50" ++ [])))
        (numberOf false (lit "1") (lit "50") none) := .parts whole fraction .none
    exact parts
  have digits : Numeral.ofNat 150 = lit "150" := by
    rw [Numeral.ofNat_of_le (by decide), Numeral.ofNat_of_le (by decide),
      Numeral.ofNat_of_lt (by decide)]
    rfl
  have kept : Kept (.decimal ⟨false, 150, -2⟩) := by
    rw [Kept, Number.toDecimal, Decimal.inRange, Decimal.adjusted, digits]
    decide
  have read : readText (lit "1.50") = .ok (.number (.decimal ⟨false, 150, -2⟩)) :=
    readText_complete ⟨[], lit "1.50", [], rfl, fun _ inside => absurd inside List.not_mem_nil,
      Scalar.spells (.number literal kept) deepest, fun _ inside => absurd inside List.not_mem_nil⟩
  have accepted : Document.read none (.text (lit "1.50")) =
      .ok (.number (.decimal ⟨false, 150, -2⟩)) := by
    rw [Document.read, read]
    rfl
  have free : ¬Crowded (.number (.decimal ⟨false, 150, -2⟩)) := by
    rintro ⟨place, number, leads, zero, _⟩
    cases place with
    | nil =>
        cases leads
        cases zero
    | cons => cases leads
  obtain ⟨again, readAgain, returned⟩ := (read_undoes_render accepted).1 free
  exact ⟨accepted, again, readAgain none, returned⟩

/-! ## A document that is crowded -/

def boxed : Nat → Json → Json
  | 0, value => value
  | count + 1, value => .array [boxed count value]

def bracketed : Nat → Text → Text
  | 0, text => text
  | count + 1, text => .scalar '[' :: (bracketed count text ++ [.scalar ']'])

private theorem Fits.boxed {levels : Nat} {text : Text} {value : Json}
    (fits : Fits levels text value)
    (count : Nat) : Fits (levels + count) (bracketed count text) (boxed count value) := by
  induction count with
  | zero => exact fits
  | succ count ih => exact .array (.some (.last .nil ih .nil))

private theorem boxed_at (count : Nat) (value : Json) :
    (boxed count value).at? (List.replicate count (.index 0)) = some value := by
  induction count with
  | zero => rfl
  | succ count ih => exact ih

/-- Arrays around a decimal with an exponent are read, but not what is written for them. -/
theorem render_of_crowded_unread :
    ∃ value, Document.read none (.text (bracketed 991 (lit "1e0"))) = .ok value ∧
      ∀ label, Document.read label (.text (render value)) =
        .error (.reported (.parse label .nestedTooDeeply)) := by
  have literal : NumberLiteral (lit "1e0") (.decimal ⟨false, 1, 0⟩) := by
    have parts : NumberLiteral (minus false ++ (lit "1" ++ ([] ++ lit "e0")))
        (numberOf false (lit "1") [] (some 0)) :=
      .parts (wholePart_digit (by decide)) .none (.power (.inl rfl) .none ⟨by decide, by decide⟩)
    exact parts
  have kept : Kept (.decimal ⟨false, 1, 0⟩) :=
    Decimal.inRange_of_width Nat.one_pos (by decide) (by decide) (by decide)
  have scalar : FitsScalar 1 (lit "1e0") (.number (.decimal ⟨false, 1, 0⟩)) :=
    ⟨.number literal kept, by decide⟩
  have fits := scalar.fits.boxed 991
  have read : readText (bracketed 991 (lit "1e0")) =
      .ok (boxed 991 (.number (.decimal ⟨false, 1, 0⟩))) :=
    readText_iff.mpr ⟨[], _, [], by simp, .nil, fits, .nil⟩
  have crowded : Crowded (boxed 991 (.number (.decimal ⟨false, 1, 0⟩))) :=
    ⟨_, _, boxed_at 991 _, rfl, by rw [List.length_replicate]; rfl⟩
  obtain ⟨_, _, _, refused⟩ := readText_render read
  refine ⟨boxed 991 (.number (.decimal ⟨false, 1, 0⟩)), ?_, fun label => ?_⟩
  · rw [Document.read, read]
    rfl
  · rw [Document.read, refused crowded]
    rfl

end JsonTemplate.Json
