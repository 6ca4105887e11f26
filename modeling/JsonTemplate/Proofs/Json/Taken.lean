import JsonTemplate.Proofs.Json.Completeness
import Mathlib.Data.List.Forall2

set_option autoImplicit false

/-!
# What readers take

A text of elements is read up to the first of them that stops the reader. If there is none the text
is read as a whole, so it has an outcome either way, and the outcome of an array or an object comes
from the outcomes of what stands in it. The stops that count are given: constants that are no
values, or too many levels.
-/

namespace JsonTemplate.Json

variable {α β : Type} {ends : Stop → Prop}

/-- What a reading has come to: a value, with this text left, or nothing at one of the stops. -/
inductive ComesTo (ends : Stop → Prop) (reading : Except Stop (α × Text)) (rest : Text) :
    Option α → Prop where
  | found {value : α} : reading = .ok (value, rest) → ComesTo ends reading rest (some value)
  | stopped {stop : Stop} : ends stop → reading = .error stop → ComesTo ends reading rest none

theorem ComesTo.map {reading : Except Stop (α × Text)} {rest : Text} {outcome : Option α}
    (comes : ComesTo ends reading rest outcome) (change : α → β) :
    ComesTo ends (reading.map fun taken => (change taken.1, taken.2)) rest
      (outcome.map change) := by
  cases comes with
  | found read => exact .found (by rw [read]; rfl)
  | stopped counts read => exact .stopped counts (by rw [read]; rfl)

theorem ComesTo.raised {reading : Except Stop (α × Text)} {rest : Text} {outcome : Option α}
    (comes : ComesTo ends reading rest outcome) {levels : Nat}
    (kept : ∀ stop, ends stop → stop.raised levels = stop) :
    ComesTo ends (reading.mapError (Stop.raised levels)) rest outcome := by
  cases comes with
  | found read => exact .found (by rw [read]; rfl)
  | stopped counts read =>
      exact .stopped counts (by rw [read, Except.mapError, kept _ counts])

/-- What a reader makes of a text at its front, whatever follows it. -/
structure Takes (ends : Stop → Prop) (reader : Text → Except Stop (α × Text)) (text : Text)
    (outcome : Option α) : Prop where
  opens : ∃ first rest, text = first :: rest ∧ Opens first
  reads : ∀ rest, Stops rest → ComesTo ends (reader (text ++ rest)) rest outcome

theorem FitsScalar.takes {levels : Nat} {text : Text} {value : Json}
    (fits : FitsScalar levels text value) : Takes ends (readValue levels) text (some value) := by
  obtain ⟨first, rest, split, opens, _⟩ := fits.1.head
  exact ⟨⟨first, rest, split, opens⟩, fun _ stops => .found (readValue_scalar levels fits stops)⟩

/-! ## Constants -/

def Stop.IsConstant (stop : Stop) : Prop :=
  ∃ named, stop = .constant named

/-- With so many levels any scalar is read and any error is raised. -/
def enoughLevels : Nat := 4

private theorem Stop.levels_le (stop : Stop) : stop.levels ≤ enoughLevels := by
  cases stop with
  | problem found rest =>
      cases found with
      | expectingValue => exact Nat.zero_le enoughLevels
      | _ => exact Nat.le_succ 3
  | constant => exact Nat.le_refl enoughLevels
  | _ => exact Nat.zero_le enoughLevels

theorem Stop.raised_of_enough {levels : Nat} (enough : enoughLevels ≤ levels) (stop : Stop) :
    stop.raised levels = stop :=
  if_pos (Nat.le_trans stop.levels_le enough)

theorem Constant.takes (named : Constant) {levels : Nat} (enough : enoughLevels ≤ levels) :
    Takes Stop.IsConstant (readValue levels) named.name none := by
  have kept := Stop.raised_of_enough enough (.constant named)
  constructor
  · cases named <;> exact ⟨_, _, rfl, by decide⟩
  · intro rest _
    refine .stopped ⟨named, rfl⟩ ?_
    rw [← kept]
    cases named <;> cases levels <;> rfl

theorem Scalar.takes {text : Text} {value : Json} (scalar : Scalar Kept text value) {levels : Nat}
    (enough : enoughLevels ≤ levels) : Takes ends (readValue levels) text (some value) :=
  FitsScalar.takes
    ⟨scalar, Nat.le_trans (scalarLevels_le text value) (Nat.le_trans (by decide) enough)⟩

/-! ## Elements -/

def EndsBy (element : Text → Except Stop (α × Text))
    (reader : Nat → Text → Except Stop (List α × Text)) : Prop :=
  ∀ {fuel text stop}, (element text = .error stop → reader (fuel + 1) text = .error stop) ∧
    ∀ {value left after}, element text = .ok (value, left) →
      skipSpace left = .scalar ',' :: after → reader fuel (skipSpace after) = .error stop →
      reader (fuel + 1) text = .error stop

private theorem readElements_endsBy (element : Text → Except Stop (α × Text)) {close : CodePoint}
    (notComma : close ≠ .scalar ',') (missing : Problem) :
    EndsBy element (readElements element close missing) := by
  intro fuel text stop
  constructor
  · intro read
    rw [readElements, read]
    rfl
  · intro value left after read comma readOthers
    simp only [readElements, read, bind, Except.bind, comma, behind_comma notComma, readOthers,
      Except.map]

/-- Texts with commas and white space between them and something behind the last one. -/
theorem join_cons_cons (gap first second : Text) (others : List Text) (rest : Text) :
    Text.join (.scalar ',' :: gap) (first :: second :: others) ++ rest =
      first ++ .scalar ',' ::
        (gap ++ (Text.join (.scalar ',' :: gap) (second :: others) ++ rest)) := by
  simp [Text.join, List.intercalate_cons_cons]

private theorem join_opens {text : Text} (opens : ∃ first rest, text = first :: rest ∧ Opens first)
    (separator : Text) (texts : List Text) :
    ∃ first rest, Text.join separator (text :: texts) = first :: rest ∧ Opens first := by
  obtain ⟨first, rest, rfl, opening⟩ := opens
  cases texts with
  | nil => exact ⟨first, rest, by simp [Text.join], opening⟩
  | cons => exact ⟨first, _, by rw [Text.join, List.intercalate_cons_cons]; rfl, opening⟩

section Elements

variable {gap : Text}

/-- The outcome of elements comes from their outcomes in order. -/
theorem elements_taken {element : Text → Except Stop (α × Text)} {close : CodePoint}
    {reader : Nat → Text → Except Stop (List α × Text)} (goesOn : GoesOnBy element close reader)
    (endsBy : EndsBy element reader) (closes : Closes close) (blank : Blank gap)
    {outcome : β → Option α} {items : List β} {texts : List Text}
    (each : List.Forall₂ (fun item text => Takes ends element text (outcome item)) items texts)
    (some : items ≠ []) (rest : Text) {fuel : Nat}
    (enough : (Text.join (.scalar ',' :: gap) texts ++ close :: rest).length ≤ fuel) :
    ComesTo ends (reader fuel (Text.join (.scalar ',' :: gap) texts ++ close :: rest)) rest
      (items.mapM outcome) := by
  induction each generalizing fuel with
  | nil => exact absurd rfl some
  | @cons item text items texts here others ih =>
      obtain ⟨fuel, rfl⟩ : ∃ less, fuel = less + 1 :=
        Nat.exists_eq_add_one.mpr (by simp at enough; omega)
      rw [List.mapM_cons]
      cases others with
      | nil =>
          have closed : skipSpace (close :: rest) = close :: rest := by simp [skipSpace, closes.1]
          have taken := here.reads _ (closes.2 rest)
          simp only [Text.join, List.intercalate_singleton]
          generalize outcome item = outcome at taken ⊢
          cases taken with
          | found read => exact .found ((goesOn read).1 closed)
          | stopped counts read => exact .stopped counts (endsBy.1 read)
      | @cons next second items texts nextTaken others =>
          obtain ⟨opening, following, nextShape, opens⟩ :=
            join_opens nextTaken.opens (.scalar ',' :: gap) texts
          rw [join_cons_cons] at enough ⊢
          have further := @ih (List.cons_ne_nil _ _) fuel (by
            simp only [List.length_append, List.length_cons] at enough ⊢
            omega)
          have skipped : skipSpace (gap ++
              (Text.join (.scalar ',' :: gap) (second :: texts) ++ close :: rest)) =
              Text.join (.scalar ',' :: gap) (second :: texts) ++ close :: rest := by
            rw [skipSpace_blank blank, nextShape]
            exact skipSpace_of_opens opens _
          rw [← skipped] at further
          have taken := here.reads (.scalar ',' ::
            (gap ++ (Text.join (.scalar ',' :: gap) (second :: texts) ++ close :: rest)))
            (stops_cons (by decide) (by decide) (by decide) (by decide))
          generalize (next :: items).mapM outcome = later at further ⊢
          generalize outcome item = outcome at taken ⊢
          cases taken with
          | stopped counts read => exact .stopped counts (endsBy.1 read)
          | found read =>
              cases further with
              | stopped counts readOthers => exact .stopped counts (endsBy.2 read rfl readOthers)
              | found readOthers => exact .found ((goesOn read).2 rfl readOthers)

/-- There is nothing before the closing bracket, or a reader of elements takes them in order. -/
theorem enclosed_taken {element : Text → Except Stop (α × Text)} {close : CodePoint}
    {reader : Nat → Text → Except Stop (List α × Text)} (goesOn : GoesOnBy element close reader)
    (endsBy : EndsBy element reader) (closes : Closes close) (blank : Blank gap)
    {outcome : β → Option α} {items : List β} {texts : List Text}
    (each : List.Forall₂ (fun item text => Takes ends element text (outcome item)) items texts)
    (rest : Text) :
    (skipSpace (Text.join (.scalar ',' :: gap) texts ++ close :: rest) = close :: rest ∧
        items = []) ∨
      ∃ first others,
        skipSpace (Text.join (.scalar ',' :: gap) texts ++ close :: rest) = first :: others ∧
        Opens first ∧
        ComesTo ends (reader ((first :: others).length + 1) (first :: others)) rest
          (items.mapM outcome) := by
  cases each with
  | nil => exact .inl ⟨by simp [Text.join, skipSpace, closes.1], rfl⟩
  | @cons item text items texts here others =>
      have taken := elements_taken goesOn endsBy closes blank (.cons here others)
        (List.cons_ne_nil _ _) rest (Nat.le_succ _)
      obtain ⟨first, front, shape, opens⟩ := join_opens here.opens (.scalar ',' :: gap) texts
      rw [shape, List.cons_append] at taken ⊢
      exact .inr ⟨first, _, skipSpace_of_opens opens _, opens, taken⟩

variable {levels : Nat}

theorem takes_array (kept : ∀ stop, ends stop → stop.raised levels = stop) (blank : Blank gap)
    {outcome : β → Option Json} {items : List β} {texts : List Text}
    (each : List.Forall₂ (fun item text => Takes ends (readValue levels) text (outcome item)) items
      texts) :
    Takes ends (readValue (levels + 1))
      (.scalar '[' :: Text.join (.scalar ',' :: gap) texts ++ [.scalar ']'])
      ((items.mapM outcome).map Tree.array) := by
  refine ⟨⟨_, _, rfl, by decide⟩, fun rest _ => ?_⟩
  have entered : readValue (levels + 1)
      (.scalar '[' :: Text.join (.scalar ',' :: gap) texts ++ [.scalar ']'] ++ rest) =
      (readArray (readValue levels)
        (Text.join (.scalar ',' :: gap) texts ++ .scalar ']' :: rest)).mapError
          (Stop.raised levels) := by
    rw [← readValue_bracket]
    simp
  rw [entered, readArray, readItems_eq]
  refine ComesTo.raised ?_ kept
  rcases enclosed_taken (readElements_goesOnBy _ (by decide) _)
    (readElements_endsBy _ (by decide) _) closes_bracket blank each rest with
      ⟨closed, rfl⟩ | ⟨first, others, skipped, opens, taken⟩
  · rw [closed]
    exact .found rfl
  · rw [skipped]
    split
    · next same =>
        cases same
        exact absurd rfl opens.2.1
    · exact taken.map Tree.array

theorem takes_object (kept : ∀ stop, ends stop → stop.raised levels = stop) (blank : Blank gap)
    {outcome : β → Option (Text × Json)} {entries : List β} {texts : List Text}
    (each : List.Forall₂ (fun entry text => Takes ends (readMember (readValue levels)) text
      (outcome entry)) entries texts) :
    Takes ends (readValue (levels + 1))
      (.scalar '\x7b' :: Text.join (.scalar ',' :: gap) texts ++ [.scalar '\x7d'])
      ((entries.mapM outcome).map fun members => .object (Bindings.ofList members)) := by
  refine ⟨⟨_, _, rfl, by decide⟩, fun rest _ => ?_⟩
  have entered : readValue (levels + 1)
      (.scalar '\x7b' :: Text.join (.scalar ',' :: gap) texts ++ [.scalar '\x7d'] ++ rest) =
      (readObject (readValue levels)
        (Text.join (.scalar ',' :: gap) texts ++ .scalar '\x7d' :: rest)).mapError
          (Stop.raised levels) := by
    rw [← readValue_brace]
    simp
  rw [entered, readObject, readMembers_eq]
  refine ComesTo.raised ?_ kept
  rcases enclosed_taken (readElements_goesOnBy _ (by decide) _)
    (readElements_endsBy _ (by decide) _) closes_brace blank each rest with
      ⟨closed, rfl⟩ | ⟨first, others, skipped, opens, taken⟩
  · rw [closed]
    exact .found rfl
  · rw [skipped]
    split
    · next same =>
        cases same
        exact absurd rfl opens.2.2.1
    · exact taken.map fun members => Tree.object (Bindings.ofList members)

theorem takes_member (blank : Blank gap) {value : Text → Except Stop (Json × Text)}
    {key name text : Text} {outcome : Option Json} (literal : StringLiteral key name)
    (taken : Takes ends value text outcome) :
    Takes ends (readMember value) (key ++ .scalar ':' :: (gap ++ text))
      (outcome.map (name, ·)) := by
  obtain ⟨behind, rfl⟩ := literal.head
  refine ⟨⟨_, _, rfl, by decide⟩, fun rest stops => ?_⟩
  obtain ⟨first, others, rfl, opens⟩ := taken.opens
  have skipped : skipSpace (gap ++ (first :: others ++ rest)) = first :: others ++ rest := by
    rw [skipSpace_blank blank]
    exact skipSpace_of_opens opens _
  obtain ⟨content, split, read⟩ :=
    readString_complete literal (.scalar ':' :: (gap ++ (first :: others ++ rest)))
  have entered : readMember value
      (.scalar '"' :: behind ++ .scalar ':' :: (gap ++ (first :: others)) ++ rest) =
      (value (first :: others ++ rest)).map fun taken => ((name, taken.1), taken.2) := by
    have shape : .scalar '"' :: behind ++ .scalar ':' :: (gap ++ (first :: others)) ++ rest =
        .scalar '"' :: content := by
      rw [← split]
      simp
    rw [shape, readMember]
    have colon : skipSpace (.scalar ':' :: (gap ++ (first :: others ++ rest))) =
        .scalar ':' :: (gap ++ (first :: others ++ rest)) := rfl
    simp only [bind, Except.bind, read, colon, skipped]
    rfl
  rw [entered]
  exact (taken.reads rest stops).map (name, ·)

end Elements

/-- A text that a reader takes is a document of its own, or refused at one of the stops. -/
theorem Takes.document {text : Text} {outcome : Option Json}
    (taken : Takes ends (readValue room) text outcome) :
    (∀ value, outcome = some value → readText text = .ok value) ∧
      (outcome = none → ∃ stop, ends stop ∧ readText text = .error (stop.refusal text)) := by
  have reads := taken.reads [] stops_nil
  obtain ⟨first, rest, rfl, opens⟩ := taken.opens
  have whole := @readText_of_opens [] rest first .nil opens
  rw [List.nil_append] at whole
  rw [whole, readWhole, skipSpace_of_opens opens]
  rw [List.append_nil] at reads
  cases reads with
  | found read =>
      refine ⟨?_, by simp⟩
      rintro _ ⟨⟩
      rw [read]
      rfl
  | @stopped stop counts read =>
      refine ⟨by simp, fun _ => ⟨stop, counts, ?_⟩⟩
      rw [read]
      rfl

end JsonTemplate.Json
