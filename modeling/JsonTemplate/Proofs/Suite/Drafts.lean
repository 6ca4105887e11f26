import JsonTemplate.Proofs.Json.RoundTrip
import JsonTemplate.Proofs.Suite.Literals

set_option autoImplicit false

/-!
# Variables in place of values

A draft of a document's text has variables in place of some values. Inserting the bound values
into the draft and reading the outcome gives the document with those values put in these places
and with the strings that are bound filled into its strings.
-/

namespace JsonTemplate

/-! ## How deep values are -/

inductive Tree.Within {α : Type} : Nat → Tree α → Prop where
  | scalar {depth : Nat} {tree : Tree α} : tree.kind.IsScalar → Within depth tree
  | array {depth : Nat} {items : List (Tree α)} :
      (∀ item ∈ items, Within depth item) → Within (depth + 1) (.array items)
  | object {depth : Nat} {members : List (Text × Tree α)} :
      (∀ key value, (key, value) ∈ members → Within depth value) →
      Within (depth + 1) (.object members)

namespace Json

private theorem Readable.atom_of_isScalar {depth : Nat} {value : Json}
    (readable : Readable depth value)
    (scalar : value.kind.IsScalar) : Atom value := by
  cases depth with
  | zero => exact readable
  | succ depth =>
      cases readable with
      | atom atom => exact atom
      | array => exact absurd rfl scalar.1
      | object => exact absurd rfl scalar.2

theorem Readable.within {depth deeper : Nat} {value : Json} (readable : Readable deeper value)
    (within : value.Within depth) : Readable depth value := by
  induction within generalizing deeper with
  | @scalar depth value scalar =>
      have atom := readable.atom_of_isScalar scalar
      cases depth with
      | zero => exact atom
      | succ depth => exact .atom atom
  | array _ ih =>
      cases deeper with
      | zero => cases readable
      | succ deeper =>
          cases readable with
          | atom atom => cases atom
          | array each => exact .array fun item member => ih item member (each item member)
  | object _ ih =>
      cases deeper with
      | zero => cases readable
      | succ deeper =>
          cases readable with
          | atom atom => cases atom
          | object keys each =>
              exact .object keys fun key value member => ih key value member (each key value member)

/-- The value that is read from the text of a value is the same at every depth that the value
goes to. -/
theorem exists_returned {value : Json} (readable : Readable room value) :
    ∃ again, Returns value again ∧ ∀ depth, value.Within depth →
      Spells Kept depth (render value) again := by
  obtain ⟨again, spelled, returned⟩ := render_spelled readable
  refine ⟨again, returned, fun depth within => ?_⟩
  obtain ⟨other, otherSpelled, _⟩ := render_spelled (readable.within within)
  rwa [spelled.unique otherSpelled]

end Json

/-! ## Drafts -/

/-- What stands at a leaf of a draft: a string, or a variable in place of a value. -/
inductive Spot where
  | kept (text : Text)
  | hole (name : Text) (value : Json)

abbrev Draft := Tree Spot

def Spot.original : Spot → Json
  | .kept text => .string text
  | .hole _ value => value

/-- The value that stands for a name in place of its variable, and a string with the strings that
are bound filled in. -/
def Spot.filled (bound : Bindings Json) (value : Text → Json) : Spot → Json
  | .kept text => .string (Variables.fill bound text)
  | .hole name _ => value name

namespace Variables

open Json (Blank Spells Kept Series Enclosed MemberText NumberLiteral LegibleLiteral deepest
  render)
open Placeholder (isName)

/-- Elements that are written in one way and drafted in another, with the same commas and white
space. -/
inductive DraftSeries {α : Type} (element : Text → Text → α → Prop) (close : CodePoint) :
    Text → Text → List α → Prop where
  | last {before written text after : Text} {value : α} :
      Blank before → element written text value → Blank after →
      DraftSeries element close (before ++ (written ++ (after ++ [close])))
        (before ++ (text ++ (after ++ [close]))) [value]
  | more {before written text after others rest : Text} {value : α} {values : List α} :
      Blank before → element written text value → Blank after →
      DraftSeries element close others rest values →
      DraftSeries element close (before ++ (written ++ (after ++ .scalar ',' :: others)))
        (before ++ (text ++ (after ++ .scalar ',' :: rest))) (value :: values)

inductive DraftEnclosed {α : Type} (element : Text → Text → α → Prop) (close : CodePoint) :
    Text → Text → List α → Prop where
  | none {gap : Text} : Blank gap → DraftEnclosed element close (gap ++ [close]) (gap ++ [close]) []
  | some {written text : Text} {values : List α} :
      DraftSeries element close written text values →
      DraftEnclosed element close written text values

/-- A member, written and drafted. Its key spells no variable that is bound. -/
inductive DraftMember (bound : Bindings Json) (inner : Text → Text → Draft → Prop) :
    Text → Text → Text × Draft → Prop where
  | pair {key name gap space written text : Text} {draft : Draft} :
      LegibleLiteral key name → (∀ label, Mentions name label → bound.get? label = none) →
      Blank gap → Blank space → inner written text draft →
      DraftMember bound inner (key ++ (gap ++ .scalar ':' :: (space ++ written)))
        (key ++ (gap ++ .scalar ':' :: (space ++ text))) (name, draft)

/-- A scalar that is drafted as it is written, or a value in whose place there is a variable bound
to another value than a string. Variables in strings are bound to strings. -/
inductive DraftLeaf (bound : Bindings Json) (depth : Nat) : Text → Text → Draft → Prop where
  | null : DraftLeaf bound depth (lit "null") (lit "null") .null
  | true : DraftLeaf bound depth (lit "true") (lit "true") (.boolean true)
  | false : DraftLeaf bound depth (lit "false") (lit "false") (.boolean false)
  | number {text : Text} {value : Number} :
      NumberLiteral text value → Kept value → DraftLeaf bound depth text text (.number value)
  | string {text value : Text} :
      LegibleLiteral text value → StringsIn bound value →
      DraftLeaf bound depth text text (.string (.kept value))
  | hole {written name : Text} {value found : Json} :
      Spells Kept depth written value → isName name = true → bound.get? name = some found →
      (∀ text, found ≠ .string text) → found.Within depth →
      DraftLeaf bound depth written (spelling name) (.string (.hole name value))

inductive DraftLayer (bound : Bindings Json) (depth : Nat) (inner : Text → Text → Draft → Prop) :
    Text → Text → Draft → Prop where
  | leaf {written text : Text} {draft : Draft} :
      DraftLeaf bound depth written text draft → DraftLayer bound depth inner written text draft
  | array {written text : Text} {items : List Draft} :
      DraftEnclosed inner (.scalar ']') written text items →
      DraftLayer bound depth inner (.scalar '[' :: written) (.scalar '[' :: text) (.array items)
  | object {written text : Text} {members : List (Text × Draft)} :
      DraftEnclosed (DraftMember bound inner) (.scalar '\x7d') written text members →
      DraftLayer bound depth inner (.scalar '\x7b' :: written) (.scalar '\x7b' :: text)
        (.object (Bindings.ofList members))

/-- A written value and a draft of it: the text in which variables stand in place of any of its
values, so that no more than `depth` arrays and objects stand around each other. -/
def Drafts (bound : Bindings Json) : Nat → Text → Text → Draft → Prop
  | 0 => DraftLeaf bound 0
  | depth + 1 => DraftLayer bound (depth + 1) (Drafts bound depth)

private theorem DraftLeaf.drafts {bound : Bindings Json} {depth : Nat} {written text : Text}
    {draft : Draft}
    (leaf : DraftLeaf bound depth written text draft) :
    Drafts bound depth written text draft := by
  cases depth with
  | zero => exact leaf
  | succ depth => exact .leaf leaf

def DraftsWhole (bound : Bindings Json) (written text : Text) (draft : Draft) : Prop :=
  ∃ before core changed after, written = before ++ (core ++ after) ∧
    text = before ++ (changed ++ after) ∧ Blank before ∧
    Drafts bound deepest core changed draft ∧ Blank after

/-! ## From drafts to documents -/

/-- One text spells a value as it is, and another one spells a value when texts are put in place
of its variables. -/
def Carries {β : Type} (put : Text → Text) (spells : Text → β → Prop) (written text : Text)
    (before after : β) : Prop :=
  spells written before ∧ ∃ out, Becomes put text out ∧ spells out after

variable {put : Text → Text} {bound : Bindings Json} {again : Text → Json}

theorem Becomes.blank {gap : Text} (blank : Blank gap) : Becomes put gap gap := by
  apply Becomes.points
  rintro point member rfl
  exact absurd (blank _ member) (by decide)

section Lists

variable {α β : Type} {element : Text → Text → α → Prop} {spells : Text → β → Prop}
  {close : CodePoint} {before after : α → β} {written text : Text} {values : List α}

private theorem DraftSeries.carries (series : DraftSeries element close written text values)
    (closes : close ≠ .scalar '\x7b')
    (each : ∀ {written text value}, element written text value →
      Carries put spells written text (before value) (after value)) :
    Carries put (Series spells close) written text (values.map before) (values.map after) := by
  have ending : Becomes put [close] [close] := .cons closes .nil
  induction series with
  | last gap here space =>
      obtain ⟨kept, out, becomes, spelled⟩ := each here
      refine ⟨.last gap kept space, _, ?_, .last gap spelled space⟩
      exact (Becomes.blank gap).append (becomes.append ((Becomes.blank space).append ending))
  | more gap here space _ ih =>
      obtain ⟨kept, out, becomes, spelled⟩ := each here
      obtain ⟨keptOthers, others, becomesOthers, spelledOthers⟩ := ih
      refine ⟨.more gap kept space keptOthers, _, ?_, .more gap spelled space spelledOthers⟩
      exact (Becomes.blank gap).append
        (becomes.append ((Becomes.blank space).append (.cons (by decide) becomesOthers)))

private theorem DraftEnclosed.carries (enclosed : DraftEnclosed element close written text values)
    (closes : close ≠ .scalar '\x7b')
    (each : ∀ {written text value}, element written text value →
      Carries put spells written text (before value) (after value)) :
    Carries put (Enclosed spells close) written text (values.map before) (values.map after) := by
  cases enclosed with
  | none gap => exact ⟨.none gap, _, (Becomes.blank gap).append (.cons closes .nil), .none gap⟩
  | some series =>
      obtain ⟨kept, out, becomes, spelled⟩ := series.carries closes each
      exact ⟨.some kept, out, becomes, .some spelled⟩

/-- White space in front of another position than a brace, or nothing. -/
theorem exists_head {gap rest : Text} {point : CodePoint} (blank : Blank gap)
    (notBrace : point ≠ .scalar '\x7b') :
    ∃ first others, gap ++ point :: rest = first :: others ∧ first ≠ .scalar '\x7b' := by
  cases gap with
  | nil => exact ⟨point, rest, rfl, notBrace⟩
  | cons space gap =>
      refine ⟨space, gap ++ point :: rest, rfl, ?_⟩
      rintro rfl
      exact absurd (blank _ List.mem_cons_self) (by decide)

theorem DraftEnclosed.head (enclosed : DraftEnclosed element close written text values)
    (closes : close ≠ .scalar '\x7b')
    (each : ∀ {written text value}, element written text value →
      ∃ first rest, text = first :: rest ∧ first ≠ .scalar '\x7b') :
    ∃ first rest, text = first :: rest ∧ first ≠ .scalar '\x7b' := by
  cases enclosed with
  | none gap => exact exists_head gap closes
  | some series =>
      cases series with
      | last gap here =>
          obtain ⟨first, rest, rfl, notBrace⟩ := each here
          exact exists_head gap notBrace
      | more gap here =>
          obtain ⟨first, rest, rfl, notBrace⟩ := each here
          exact exists_head gap notBrace

end Lists

/-- A key is written anew as it is, since it spells no variable that is bound. -/
theorem fill_eq_self {text : Text}
    (unbound : ∀ name, Mentions text name → bound.get? name = none) : fill bound text = text := by
  apply replace_eq_self
  intro name mentions
  rw [content, unbound name mentions]

private theorem DraftMember.carries {inner : Text → Text → Draft → Prop}
    {spells : Text → Json → Prop}
    {before after : Draft → Json} {written text : Text} {member : Text × Draft}
    (drafted : DraftMember bound inner written text member)
    (each : ∀ {written text draft}, inner written text draft →
      Carries (inserting bound) spells written text (before draft) (after draft)) :
    Carries (inserting bound) (MemberText spells) written text
      (member.1, before member.2) (member.1, after member.2) := by
  cases drafted with
  | @pair key name gap space written text draft literal unbound blank blankBehind inside =>
      have strings : StringsIn bound name := by
        intro label value mentions found
        rw [unbound label mentions] at found
        cases found
      obtain ⟨keyOut, becomesKey, spelledKey⟩ := literal_filled literal strings
      rw [fill_eq_self unbound] at spelledKey
      obtain ⟨kept, out, becomes, spelled⟩ := each inside
      refine ⟨.pair literal.literal blank blankBehind kept, _, ?_,
        .pair spelledKey blank blankBehind spelled⟩
      exact becomesKey.append ((Becomes.blank blank).append
        (.cons (by decide) ((Becomes.blank blankBehind).append becomes)))

theorem DraftMember.head {inner : Text → Text → Draft → Prop} {written text : Text}
    {member : Text × Draft} (drafted : DraftMember bound inner written text member) :
    ∃ first rest, text = first :: rest ∧ first ≠ .scalar '\x7b' := by
  cases drafted with
  | pair literal =>
      obtain ⟨rest, rfl⟩ := literal.literal.head
      exact ⟨_, _, rfl, by decide⟩

def Reads (bound : Bindings Json) (again : Text → Json) : Prop :=
  ∀ name found, bound.get? name = some found → ∀ depth, found.Within depth →
    Spells Kept depth (render found) (again name)

private theorem DraftLeaf.carries {depth : Nat} {written text : Text} {draft : Draft}
    (drafted : DraftLeaf bound depth written text draft) (reads : Reads bound again) :
    Carries (inserting bound) (Spells Kept depth) written text
      (draft.graft Spot.original) (draft.graft (Spot.filled bound again)) := by
  have word : ∀ {text : Text} {value : Json}, Json.Scalar Kept text value →
      (∀ point ∈ text, point ≠ .scalar '\x7b') →
      Carries (inserting bound) (Spells Kept depth) text text value value :=
    fun scalar plain => ⟨scalar.spells depth, _, .points plain, scalar.spells depth⟩
  cases drafted with
  | null => exact word .null (by decide)
  | true => exact word .true (by decide)
  | false => exact word .false (by decide)
  | number literal kept => exact word (.number literal kept) literal.not_brace
  | string literal strings =>
      obtain ⟨out, becomes, spelled⟩ := literal_filled literal strings
      exact ⟨(Json.Scalar.string literal.literal).spells depth, out, becomes,
        (Json.Scalar.string spelled).spells depth⟩
  | @hole written name value found spelled named bounded notString within =>
      refine ⟨spelled, inserting bound name, .variable named, ?_⟩
      -- Strings are inserted without quotes, all other values as they are written.
      have rendered : inserting bound name = render found := by
        rw [inserting, bounded]
        cases found with
        | string text => exact absurd rfl (notString text)
        | _ => rfl
      rw [rendered]
      exact reads name found bounded depth within

private theorem Drafts.carries {depth : Nat} {written text : Text} {draft : Draft}
    (drafted : Drafts bound depth written text draft) (reads : Reads bound again) :
    Carries (inserting bound) (Spells Kept depth) written text
      (draft.graft Spot.original) (draft.graft (Spot.filled bound again)) := by
  induction depth generalizing written text draft with
  | zero => exact DraftLeaf.carries drafted reads
  | succ depth ih =>
      have inner : ∀ {written text draft}, Drafts bound depth written text draft →
          Carries (inserting bound) (Spells Kept depth) written text
            (draft.graft Spot.original) (draft.graft (Spot.filled bound again)) :=
        fun inside => ih inside
      cases drafted with
      | leaf leaf => exact leaf.carries reads
      | array enclosed =>
          obtain ⟨kept, out, becomes, spelled⟩ := enclosed.carries (by decide) inner
          rw [Tree.graft_array, Tree.graft_array]
          exact ⟨.array kept, _, becomes.cons (by decide), .array spelled⟩
      | object enclosed =>
          -- With another brace behind it, the brace of the object would open a variable.
          obtain ⟨first, rest, rfl, notBrace⟩ := enclosed.head (by decide) DraftMember.head
          obtain ⟨kept, out, becomes, spelled⟩ :=
            enclosed.carries (by decide) fun member => member.carries inner
          rw [Tree.graft_object, Tree.graft_object, ← Bindings.ofList_map, ← Bindings.ofList_map]
          exact ⟨.object kept, _, becomes.brace notBrace, .object spelled⟩

/-- Bound values that were read are read again from their texts. -/
theorem exists_reads
    (stored : ∀ name found, bound.get? name = some found →
      ∃ label document, Document.read label document = .ok found) :
    ∃ again, Reads bound again ∧
      ∀ name found, bound.get? name = some found → Json.Returns found (again name) := by
  have each : ∀ name, ∃ again, ∀ found, bound.get? name = some found →
      Json.Returns found again ∧ ∀ depth, found.Within depth →
        Spells Kept depth (render found) again := by
    intro name
    cases taken : bound.get? name with
    | none => exact ⟨.null, nofun⟩
    | some value =>
        obtain ⟨label, document, accepted⟩ := stored name value taken
        obtain ⟨text, read⟩ := Document.read_text accepted
        obtain ⟨again, returned⟩ := Json.exists_returned (Json.readText_readable read)
        refine ⟨again, ?_⟩
        rintro found ⟨⟩
        exact returned
  choose again good using each
  exact ⟨again, fun name found taken => (good name found taken).2,
    fun name found taken => (good name found taken).1⟩

/-- Inserting values into the text is putting them into the tree. A document is read as written,
and its draft is read with the bound values inserted: the values stand where their variables do,
as they are read from their texts, and the strings that are bound stand in the strings. -/
theorem read_substitute {written text : Text} {draft : Draft}
    (stored : ∀ name found, bound.get? name = some found →
      ∃ label document, Document.read label document = .ok found)
    (drafted : DraftsWhole bound written text draft) :
    (∀ label, Document.read label (.text written) = .ok (draft.graft Spot.original)) ∧
    ∃ again : Text → Json,
      (∀ name found, bound.get? name = some found → Json.Returns found (again name)) ∧
      ∀ label, Document.read label (.text (substitute bound text)) =
        .ok (draft.graft (Spot.filled bound again)) := by
  obtain ⟨again, reads, returned⟩ := exists_reads stored
  obtain ⟨before, core, changed, after, rfl, rfl, blank, drafted, blankAfter⟩ := drafted
  obtain ⟨kept, out, becomes, spelled⟩ := drafted.carries reads
  have inserted : substitute bound (before ++ (changed ++ after)) = before ++ (out ++ after) := by
    rw [substitute_eq_replace]
    exact ((Becomes.blank blank).append (becomes.append (Becomes.blank blankAfter))).whole
  have whole : ∀ {core : Text} {value : Json}, Spells Kept deepest core value →
      Json.SpellsWhole Kept deepest (before ++ (core ++ after)) value :=
    fun spelled => ⟨before, _, after, rfl, blank, spelled, blankAfter⟩
  rw [inserted]
  exact ⟨(whole kept).read, again, returned, (whole spelled).read⟩

/-- A variable stands right in front of the closing brace of an object, and another one in a
string, where the first one's text is put in. -/
theorem read_substitute_adjacent_braces :
    let bound : Bindings Json :=
      [(lit "A", .string (lit "\x7b\x7bB\x7d\x7d\"")), (lit "B", .boolean true)]
    let written := lit "\x7b\"a\":\"\x7b\x7bA\x7d\x7d\",\"b\":null\x7d"
    let text := lit "\x7b\"a\":\"\x7b\x7bA\x7d\x7d\",\"b\":\x7b\x7bB\x7d\x7d\x7d"
    Document.read none (.text written) =
      .ok (.object [(lit "a", .string (lit "\x7b\x7bA\x7d\x7d")), (lit "b", .null)]) ∧
    ∃ again, Json.Returns (.boolean true) again ∧
      Document.read none (.text (substitute bound text)) =
        .ok (.object [(lit "a", .string (lit "\x7b\x7bB\x7d\x7d\"")), (lit "b", again)]) := by
  intro bound written text
  have stored : ∀ name found, bound.get? name = some found →
      ∃ label document, Document.read label document = .ok found := by
    have read : ∀ {literal : Text} {value : Json}, Json.Scalar Kept literal value →
        ∃ label document, Document.read label document = .ok value :=
      fun scalar => ⟨none, .text _, (scalar.spells deepest).whole.read none⟩
    intro name found taken
    rw [Bindings.get?, lookup_cons_eq, lookup_cons_eq] at taken
    split at taken
    · cases taken
      exact read (.string (Json.quote_literal _))
    · split at taken
      · cases taken
        exact read .true
      · cases taken
  have unbound : ∀ {key : Text}, .scalar '\x7b' ∉ key →
      ∀ label, Mentions key label → bound.get? label = none :=
    fun plain label mentions => absurd mentions (not_mentions plain label)
  have strings : StringsIn bound (lit "\x7b\x7bA\x7d\x7d") := by
    intro name value mentions taken
    rw [Bindings.get?, lookup_cons_eq, lookup_cons_eq] at taken
    split at taken
    · cases taken
      exact ⟨_, rfl⟩
    · split at taken
      · next same =>
          subst same
          exact absurd mentions.2 (by decide)
      · cases taken
  have first : DraftMember bound (Drafts bound 989)
      (lit "\"a\"" ++ ([] ++ .scalar ':' :: ([] ++ lit "\"\x7b\x7bA\x7d\x7d\"")))
      (lit "\"a\"" ++ ([] ++ .scalar ':' :: ([] ++ lit "\"\x7b\x7bA\x7d\x7d\"")))
      (lit "a", .string (.kept (lit "\x7b\x7bA\x7d\x7d"))) :=
    .pair (.of_marks rfl (by decide)) (unbound (by decide)) .nil .nil
      (DraftLeaf.drafts (.string (.of_marks rfl (by decide)) strings))
  have second : DraftMember bound (Drafts bound 989)
      (lit "\"b\"" ++ ([] ++ .scalar ':' :: ([] ++ lit "null")))
      (lit "\"b\"" ++ ([] ++ .scalar ':' :: ([] ++ spelling (lit "B"))))
      (lit "b", .string (.hole (lit "B") .null)) :=
    .pair (.of_marks rfl (by decide)) (unbound (by decide)) .nil .nil
      (DraftLeaf.drafts (.hole (Json.Scalar.null.spells _) (by decide) rfl
        (fun _ same => by cases same) (.scalar ⟨by decide, by decide⟩)))
  have members : DraftSeries (DraftMember bound (Drafts bound 989)) (.scalar '\x7d')
      ([] ++ (_ ++ ([] ++ .scalar ',' :: ([] ++ (_ ++ ([] ++ [.scalar '\x7d']))))))
      ([] ++ (_ ++ ([] ++ .scalar ',' :: ([] ++ (_ ++ ([] ++ [.scalar '\x7d'])))))) [_, _] :=
    .more .nil first .nil (.last .nil second .nil)
  have drafted : DraftLayer bound 990 (Drafts bound 989) written text
      (.object (Bindings.ofList [_, _])) :=
    .object (.some members)
  have whole : DraftsWhole bound written text
      (.object (Bindings.ofList [(lit "a", .string (.kept (lit "\x7b\x7bA\x7d\x7d"))),
        (lit "b", .string (.hole (lit "B") .null))])) :=
    ⟨[], written, text, [], (List.append_nil _).symm, (List.append_nil _).symm, .nil, drafted,
      .nil⟩
  have filled : fill bound (lit "\x7b\x7bA\x7d\x7d") = lit "\x7b\x7bB\x7d\x7d\"" :=
    (Becomes.variable (by decide : isName (lit "A") = true)).whole
  obtain ⟨original, again, returned, inserted⟩ := read_substitute stored whole
  refine ⟨original none, again (lit "B"), returned _ _ rfl, ?_⟩
  rw [← filled]
  exact inserted none

end Variables

end JsonTemplate
