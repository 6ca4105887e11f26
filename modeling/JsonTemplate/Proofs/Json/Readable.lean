import JsonTemplate.Document
import JsonTemplate.Proofs.Bindings
import JsonTemplate.Proofs.Json.Soundness
import JsonTemplate.Proofs.Place
import JsonTemplate.Proofs.Text.Numeral

set_option autoImplicit false

/-!
# The values of documents

Every value that is read satisfies what the rules below ask: the keys of an object are
different from each other, numbers can be kept, integers can be written, and arrays and
objects stand around each other no deeper than readers go.
-/

namespace JsonTemplate.Json

structure Stored (number : Number) : Prop where
  kept : Kept number
  writable : ∀ value, number = .integer value → Numeral.isWritable value = true

inductive Atom : Json → Prop where
  | null : Atom .null
  | boolean {value : Bool} : Atom (.boolean value)
  | number {value : Number} : Stored value → Atom (.number value)
  | string {text : Text} : Atom (.string text)

inductive Nest (inner : Json → Prop) : Json → Prop where
  | atom {value : Json} : Atom value → Nest inner value
  | array {items : List Json} : (∀ item ∈ items, inner item) → Nest inner (.array items)
  | object {members : List (Text × Json)} :
      Bindings.Distinct members → (∀ key value, (key, value) ∈ members → inner value) →
      Nest inner (.object members)

/-- The values of documents with at most `depth` arrays and objects around each other. -/
def Readable : Nat → Json → Prop
  | 0 => Atom
  | depth + 1 => Nest (Readable depth)

theorem Readable.distinctKeys {depth : Nat} {value : Json} (readable : Readable depth value) :
    value.DistinctKeys := by
  have leaf : ∀ {value : Json}, Atom value → value.DistinctKeys := by
    intro value atom
    cases atom <;> simp
  induction depth generalizing value with
  | zero => exact leaf readable
  | succ depth ih =>
      cases readable with
      | atom atom => exact leaf atom
      | array each => exact .array fun item member => ih (each item member)
      | object keys each => exact .object keys fun key value member => ih (each key value member)

/-! ## What is spelled can be held -/

private theorem numberOf_stored {negative : Bool} {whole fraction : Text} {exponent : Option Int}
    (digits : Digits whole) (kept : Kept (numberOf negative whole fraction exponent)) :
    Stored (numberOf negative whole fraction exponent) := by
  refine ⟨kept, ?_⟩
  intro value same
  unfold numberOf at same
  split at same
  · next plain =>
      obtain ⟨_, _, short⟩ := plain
      cases same
      have below : Numeral.value whole < 10 ^ Numeral.mostDigits :=
        (Numeral.value_lt digits.2).trans_le (Nat.pow_le_pow_right (by decide) short)
      have magnitude : (if negative then -(Numeral.value whole : Int)
          else Numeral.value whole).natAbs = Numeral.value whole := by
        split
        · exact Int.natAbs_neg _
        · rfl
      rw [Numeral.isWritable_iff, magnitude]
      exact below
  · cases same

theorem Scalar.atom {text : Text} {value : Json} (scalar : Scalar Kept text value) : Atom value := by
  cases scalar with
  | null => exact .null
  | true => exact .boolean
  | false => exact .boolean
  | string => exact .string
  | number literal kept =>
      cases literal with
      | parts whole => exact .number (numberOf_stored whole.digits kept)

theorem Series.forall {α : Type} {element : Text → α → Prop} {close : CodePoint} {text : Text}
    {values : List α} {good : α → Prop} (series : Series element close text values)
    (each : ∀ {text value}, element text value → good value) : ∀ value ∈ values, good value := by
  induction series with
  | last _ spelled =>
      intro value member
      rw [List.mem_singleton.mp member]
      exact each spelled
  | more _ spelled _ _ ih =>
      intro value member
      rcases List.mem_cons.mp member with rfl | later
      · exact each spelled
      · exact ih value later

theorem Enclosed.forall {α : Type} {element : Text → α → Prop} {close : CodePoint} {text : Text}
    {values : List α} {good : α → Prop} (enclosed : Enclosed element close text values)
    (each : ∀ {text value}, element text value → good value) : ∀ value ∈ values, good value := by
  cases enclosed with
  | none => exact fun value member => nomatch member
  | some series => exact series.forall each

theorem Spells.readable {depth : Nat} {text : Text} {value : Json}
    (spelled : Spells Kept depth text value) : Readable depth value := by
  induction depth generalizing text value with
  | zero => exact Scalar.atom spelled
  | succ depth ih =>
      cases spelled with
      | scalar scalar => exact .atom scalar.atom
      | array enclosed => exact .array (enclosed.forall ih)
      | object enclosed =>
          refine .object (Bindings.distinct_ofList _) ?_
          intro key value member
          have each : ∀ {text : Text} {member : Text × Json},
              MemberText (Spells Kept depth) text member → Readable depth member.2 := by
            intro text member spelled
            cases spelled with
            | pair _ _ _ inside => exact ih inside
          exact enclosed.forall each (key, value) (Bindings.mem_ofList member)

theorem readText_readable {text : Text} {value : Json} (accepted : readText text = .ok value) :
    Readable room value := by
  obtain ⟨_, core, _, _, _, spelled, _⟩ := readText_sound accepted
  exact spelled.readable

theorem read_text_eq_ok_iff {source : Option Text} {text : Text} {value : Json} :
    Document.read source (.text text) = .ok value ↔ readText text = .ok value := by
  constructor
  · intro read
    exact ok_of_mapError read
  · intro read
    rw [Document.read, read]
    rfl

end JsonTemplate.Json

namespace JsonTemplate.Document

/-- A document that is read is a text, possibly handed in as octets. -/
theorem read_text {source : Option Text} {document : Document} {value : Json}
    (accepted : document.read source = .ok value) : ∃ text, Json.readText text = .ok value := by
  cases document with
  | text characters => exact ⟨characters, ok_of_mapError accepted⟩
  | octets content =>
      have read := ok_of_mapError accepted
      unfold Json.readOctets at read
      split at read
      · cases read
      · exact ⟨_, read⟩
  | other => cases accepted

/-- The label of a document only shows in messages. -/
theorem read_source {source other : Option Text} {document : Document} {value : Json}
    (accepted : document.read source = .ok value) : document.read other = .ok value := by
  cases document with
  | text characters => rw [read, ok_of_mapError accepted, Except.mapError]
  | octets content => rw [read, ok_of_mapError accepted, Except.mapError]
  | other => cases accepted

end JsonTemplate.Document
