import JsonTemplate.Proofs.Comparison.Reports
import JsonTemplate.Proofs.Decimal.Notation
import JsonTemplate.Proofs.Json.Completeness
import JsonTemplate.Proofs.Json.Emission
import JsonTemplate.Proofs.Json.Printer

set_option autoImplicit false

/-!
# What the text of a value tells

The first position of a value's text tells the kind of the value, and the whole text of a
scalar tells which scalar it is. Numbers are told up to their form, since `30` and `3e1`
may be written alike.
-/

namespace JsonTemplate

namespace Json

theorem NumberLiteral.unique {text : Text} {left right : Number}
    (first : NumberLiteral text left) (second : NumberLiteral text right) : left = right := by
  have read := number?_complete first stops_nil
  rw [number?_complete second stops_nil] at read
  cases read
  rfl

private theorem toRat_eq_of_render_eq {left right : Number} (same : left.render = right.render) :
    left.toRat = right.toRat := by
  obtain ⟨again, literal, leftSame⟩ := left.literal_render
  obtain ⟨other, otherLiteral, rightSame⟩ := right.literal_render
  rw [same] at literal
  rw [← leftSame, ← rightSame, literal.unique otherLiteral]

private theorem eq_of_quote_eq {left right : Text} (same : quote left = quote right) :
    left = right := by
  obtain ⟨body, split, read⟩ := readString_complete (quote_literal left) []
  obtain ⟨other, otherSplit, otherRead⟩ := readString_complete (quote_literal right) []
  rw [same, otherSplit] at split
  cases split
  rw [read] at otherRead
  cases otherRead
  rfl

def kindFrom (first : CodePoint) : Kind :=
  if first = .scalar 'n' then .null
  else if first = .scalar 't' ∨ first = .scalar 'f' then .boolean
  else if first = .scalar '"' then .string
  else if first = .scalar '[' then .array
  else if first = .scalar '\x7b' then .object
  else .number

private theorem kindFrom_of_isDigit {first : CodePoint} (digit : first.isDigit = true) :
    kindFrom first = .number := by
  have others : ∀ character : Char, character.isDigit = false → first ≠ .scalar character :=
    fun _ other => ne_of_isDigit digit other
  simp [kindFrom, others]

private theorem NumberLiteral.kindFrom_head {text : Text} {value : Number}
    (literal : NumberLiteral text value) :
    ∃ first rest, text = first :: rest ∧ kindFrom first = .number := by
  obtain ⟨first, rest, split, digit | ⟨rfl, _⟩⟩ := literal.head
  · exact ⟨first, rest, split, kindFrom_of_isDigit digit⟩
  · exact ⟨_, rest, split, rfl⟩

theorem render_head (value : Json) :
    ∃ first rest, render value = first :: rest ∧ kindFrom first = value.kind := by
  cases value with
  | null => exact ⟨_, _, render_null, rfl⟩
  | boolean value =>
      rw [render_boolean]
      cases value with
      | false => exact ⟨_, _, rfl, rfl⟩
      | true => exact ⟨_, _, rfl, rfl⟩
  | number value =>
      obtain ⟨_, literal, _⟩ := value.literal_render
      obtain ⟨first, rest, split, kind⟩ := literal.kindFrom_head
      exact ⟨first, rest, by rw [render_number, split], kind⟩
  | string leaf => exact ⟨_, _, by rw [render_string, quote]; rfl, rfl⟩
  | array items => exact ⟨_, _, render_array items, rfl⟩
  | object members => exact ⟨_, _, render_object members, rfl⟩

/-- A text that starts like a number spells nothing but a number. -/
theorem Spells.number {admitted : Number → Prop} {depth : Nat} {text rest : Text}
    {first : CodePoint} {value : Json} (spelled : Spells admitted depth text value)
    (split : text = first :: rest) (kind : kindFrom first = .number) :
    ∃ number, value = .number number ∧ NumberLiteral text number ∧ admitted number := by
  have scalar : ∀ {value}, Scalar admitted text value →
      ∃ number, value = .number number ∧ NumberLiteral text number ∧ admitted number := by
    intro value spelled
    cases spelled with
    | number literal kept => exact ⟨_, rfl, literal, kept⟩
    | string literal =>
        obtain ⟨_, same⟩ := literal.head
        cases same.symm.trans split
        cases kind
    | _ =>
        cases split
        cases kind
  cases depth with
  | zero => exact scalar spelled
  | succ depth =>
      cases spelled with
      | scalar spelled => exact scalar spelled
      | _ =>
          cases split
          cases kind

/-- A number literal is read as its number where that is kept, and not at all otherwise. -/
theorem readText_number_iff {text : Text} {number : Number} {value : Json}
    (literal : NumberLiteral text number) :
    readText text = .ok value ↔ value = .number number ∧ Kept number := by
  constructor
  · intro accepted
    obtain ⟨before, core, after, whole, blankBefore, spelled, blankAfter⟩ :=
      readText_sound accepted
    obtain ⟨first, rest, split, kind⟩ := literal.kindFrom_head
    have solid : isSpace first = false := by
      obtain ⟨_, _, same, opens, _⟩ := @Scalar.head (fun _ => True) _ _ (.number literal trivial)
      cases same.symm.trans split
      exact opens.1
    have nothing : before = [] := blankBefore.eq_nil solid (whole.symm.trans split)
    subst nothing
    obtain ⟨other, others, rfl, _⟩ := spelled.head
    cases whole.symm.trans split
    obtain ⟨found, rfl, inside, kept⟩ := spelled.number rfl kind
    -- The literal ends where the text does, and what was read of it ends before white space.
    have taken := number?_complete literal stops_nil
    have takenInside := number?_complete inside (stops_nil.blank blankAfter)
    rw [List.append_nil] at taken takenInside
    rw [whole, List.nil_append, takenInside] at taken
    cases taken
    exact ⟨rfl, kept⟩
  · intro ⟨same, kept⟩
    subst same
    exact readText_complete ((Scalar.number literal kept).spells deepest).whole

theorem kind_eq_of_render_eq {left right : Json} (same : render left = render right) :
    left.kind = right.kind := by
  obtain ⟨first, rest, split, kind⟩ := render_head left
  obtain ⟨other, others, otherSplit, otherKind⟩ := render_head right
  rw [same, otherSplit] at split
  cases split
  exact kind.symm.trans otherKind

end Json

theorem Template.kind_toJson (template : Template) : template.toJson.kind = template.kind := by
  cases template <;> rfl

namespace Comparison

/-- Scalars of one kind that are written alike are the same. -/
theorem sameScalar_of_render_eq {expected : Template} {actual : Json}
    (scalar : expected.kind.IsScalar)
    (same : Json.render expected.toJson = Json.render actual) : SameScalar expected actual := by
  have alike := Json.kind_eq_of_render_eq same
  cases expected with
  | null =>
      cases actual <;> cases alike
      exact .null
  | boolean wanted =>
      cases actual <;> cases alike
      next found =>
        have written :=
          (Json.render_boolean wanted).symm.trans (same.trans (Json.render_boolean found))
        have equal : wanted = found := by
          cases wanted <;> cases found <;> first | rfl | cases written
        exact equal ▸ .boolean
  | number wanted =>
      cases actual <;> cases alike
      have written := (Json.render_number wanted).symm.trans (same.trans (Json.render_number _))
      exact .number (Json.toRat_eq_of_render_eq written)
  | string leaf =>
      cases actual <;> cases alike
      next found =>
        have written :=
          (Json.render_string leaf.text).symm.trans (same.trans (Json.render_string found))
        have equal : leaf.text = found := Json.eq_of_quote_eq written
        exact equal ▸ .string
  | array items => exact absurd rfl scalar.1
  | object members => exact absurd rfl scalar.2

end Comparison

end JsonTemplate
