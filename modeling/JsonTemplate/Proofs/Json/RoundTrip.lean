import JsonTemplate.Proofs.Comparison.SameValue
import JsonTemplate.Proofs.Decimal.Notation
import JsonTemplate.Proofs.Json.Completeness
import JsonTemplate.Proofs.Json.Emission
import JsonTemplate.Proofs.Json.Printer
import Mathlib.Data.List.Forall2

set_option autoImplicit false

/-!
# Reading what was written

A value that was read is written as a text of the grammar. Reading that text gives the
value back, node by node, up to the form of some numbers.
-/

namespace JsonTemplate.Json

/-- A value and what is read from its text: the kinds, the keys in their order, the texts
and the numbers are the same, and numbers are restated. -/
inductive Returns : Json → Json → Prop where
  | null : Returns .null .null
  | boolean {value : Bool} : Returns (.boolean value) (.boolean value)
  | number {before after : Number} :
      Restates before after → Returns (.number before) (.number after)
  | string {text : Text} : Returns (.string text) (.string text)
  | array {before after : List Json} :
      before.length = after.length →
      (∀ (position : Nat) first second, before[position]? = some first →
        after[position]? = some second → Returns first second) →
      Returns (.array before) (.array after)
  | object {before after : List (Text × Json)} :
      before.map Prod.fst = after.map Prod.fst →
      (∀ (position : Nat) first second, before[position]? = some first →
        after[position]? = some second → Returns first.2 second.2) →
      Returns (.object before) (.object after)

theorem Returns.sameValue {before after : Json} (returned : Returns before after) :
    SameValue before after := by
  induction returned with
  | null => exact .null
  | boolean => exact .boolean
  | number restated => exact .number restated.toRat_eq
  | string => exact .string
  | array aligned _ ih => exact .array aligned ih
  | object keys _ ih =>
      refine .object (fun key => by rw [keys]) fun key first second left right => ?_
      obtain ⟨position, leftAt, rightAt⟩ := lookup_position keys left right
      exact ih position _ _ leftAt rightAt

theorem Returns.array_map {items : List Json} {answer : Json → Json}
    (each : ∀ item ∈ items, Returns item (answer item)) :
    Returns (.array items) (.array (items.map answer)) := by
  refine .array (List.length_map answer).symm fun position first second left right => ?_
  rw [List.getElem?_map, left] at right
  cases right
  exact each first (List.mem_of_getElem? left)

/-- A member with another value under its key. -/
def answered (answer : Text × Json → Json) (member : Text × Json) : Text × Json :=
  (member.1, answer member)

private theorem keys_answered (answer : Text × Json → Json) (members : List (Text × Json)) :
    (members.map (answered answer)).map Prod.fst = members.map Prod.fst := by
  rw [List.map_map]
  rfl

theorem Returns.object_map {members : List (Text × Json)} {answer : Text × Json → Json}
    (each : ∀ member ∈ members, Returns member.2 (answer member)) :
    Returns (.object members) (.object (members.map (answered answer))) := by
  refine .object (keys_answered answer members).symm fun position first second left right => ?_
  rw [List.getElem?_map, left] at right
  cases right
  exact each first (List.mem_of_getElem? left)

/-- Keys that are different from each other stay where they are when they are bound anew. -/
theorem ofList_answered {members : List (Text × Json)} (distinct : Bindings.Distinct members)
    (answer : Text × Json → Json) :
    Bindings.ofList (members.map (answered answer)) = members.map (answered answer) := by
  apply Bindings.Distinct.ofList_eq
  rwa [Bindings.Distinct, keys_answered]

/-! ## What is written is spelled -/

private theorem series_listed {α : Type} {element : Text → α → Prop} (close : CodePoint)
    {text : Text} {texts : List Text} {value : α} {values : List α} (first : element text value)
    (others : List.Forall₂ element texts values) :
    Series element close (listed close (text :: texts)) (value :: values) := by
  induction others generalizing text value with
  | nil =>
      have series : Series element close ([] ++ (text ++ ([] ++ [close]))) [value] :=
        .last nofun first nofun
      exact series
  | @cons other found texts values second _ ih =>
      have series : Series element close
          ([] ++ (text ++ ([] ++ .scalar ',' :: listed close (other :: texts))))
          (value :: found :: values) := .more nofun first nofun (ih second)
      exact series

private theorem enclosed_listed {α : Type} {element : Text → α → Prop} (close : CodePoint)
    {texts : List Text} {values : List α} (spelled : List.Forall₂ element texts values) :
    Enclosed element close (listed close texts) values := by
  cases spelled with
  | nil =>
      have enclosed : Enclosed element close ([] ++ [close]) [] := .none nofun
      exact enclosed
  | cons first others => exact .some (series_listed close first others)

private theorem atom_spelled {value : Json} (atom : Atom value) :
    ∃ again, Scalar Kept (render value) again ∧ Returns value again := by
  cases atom with
  | null =>
      rw [render_null]
      exact ⟨_, .null, .null⟩
  | @boolean value =>
      rw [render_boolean]
      cases value with
      | false => exact ⟨_, .false, .boolean⟩
      | true => exact ⟨_, .true, .boolean⟩
  | number stored =>
      obtain ⟨again, literal, kept, restated⟩ := Number.restated stored
      rw [render_number]
      exact ⟨_, .number literal kept, .number restated⟩
  | string =>
      rw [render_string]
      exact ⟨_, .string (quote_literal _), .string⟩

theorem render_spelled {depth : Nat} {value : Json} (readable : Readable depth value) :
    ∃ again, Spells Kept depth (render value) again ∧ Returns value again := by
  induction depth generalizing value with
  | zero => exact atom_spelled readable
  | succ depth ih =>
      cases readable with
      | atom atom =>
          obtain ⟨again, scalar, returned⟩ := atom_spelled atom
          exact ⟨again, .scalar scalar, returned⟩
      | @array items each =>
          choose! answer spelled returned using fun item member => ih (each item member)
          have texts : List.Forall₂ (Spells Kept depth) (items.map render) (items.map answer) := by
            rw [List.forall₂_map_left_iff, List.forall₂_map_right_iff, List.forall₂_same]
            exact spelled
          refine ⟨.array (items.map answer), ?_, .array_map returned⟩
          rw [render_array]
          exact .array (enclosed_listed (.scalar ']') texts)
      | @object members distinct each =>
          choose! answer spelled returned using fun (member : Text × Json) included =>
            ih (each member.1 member.2 included)
          have texts : List.Forall₂ (MemberText (Spells Kept depth)) (members.map renderMember)
              (members.map (answered answer)) := by
            rw [List.forall₂_map_left_iff, List.forall₂_map_right_iff, List.forall₂_same]
            intro member included
            have text : MemberText (Spells Kept depth)
                (quote member.1 ++ ([] ++ .scalar ':' :: ([] ++ render member.2)))
                (answered answer member) :=
              .pair (quote_literal member.1) .nil .nil (spelled member included)
            exact text
          refine ⟨.object (members.map (answered answer)), ?_, .object_map returned⟩
          rw [render_object, ← ofList_answered distinct answer]
          exact .object (enclosed_listed (.scalar '\x7d') texts)

theorem SpellsWhole.read {text : Text} {value : Json} (spelled : SpellsWhole Kept deepest text value)
    (label : Option Text) : Document.read label (.text text) = .ok value := by
  rw [Document.read, readText_complete spelled]
  rfl

end JsonTemplate.Json
