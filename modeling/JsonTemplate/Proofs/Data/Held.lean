import JsonTemplate.Data.Display
import JsonTemplate.Data.OfJson
import JsonTemplate.Proofs.Bindings
import JsonTemplate.Proofs.Data.Literal
import JsonTemplate.Proofs.Place
import JsonTemplate.Proofs.Text.Utf8

set_option autoImplicit false

/-!
# Documents held as loose data

A document can be given as loose data, with its collections in the data itself or in the pool.
Unless it is nested too deeply it can be shown and written, and the text is read back as the
document when nothing is lost: fractions become binary numbers in the data, and two surrogates side
by side are joined by the reader.
-/

namespace JsonTemplate

namespace Data

open Json (rejoin)

variable {pool : Pool}

/-- The loose data of a document, where every collection stands in the data or in the pool. -/
inductive Holds (pool : Pool) : Json → Data → Prop where
  | null : Holds pool .null .null
  | boolean {value : Bool} : Holds pool (.boolean value) (.boolean value)
  | number {value : Number} : Holds pool (.number value) (ofNumber value)
  | string {text : Text} : Holds pool (.string text) (.text text)
  | array {items : List Json} {data : Data} {held : List Data} :
      data.opened pool = .list held → List.Forall₂ (Holds pool) items held →
      Holds pool (.array items) data
  | object {members : List (Text × Json)} {data : Data} {entries : List (Data × Data)} :
      data.opened pool = .mapping entries →
      entries.map Prod.fst = members.map (fun member => Data.text member.1) →
      List.Forall₂ (Holds pool) (members.map Prod.snd) (entries.map Prod.snd) →
      Holds pool (.object members) data

theorem holds_ofJson (value : Json) : Holds pool value (ofJson value) := by
  induction value using Tree.inductionOn with
  | null => exact .null
  | boolean value => exact .boolean
  | number value => exact .number
  | string text => exact .string
  | array items ih =>
      refine .array rfl ?_
      induction items with
      | nil => exact .nil
      | cons item rest others =>
          obtain ⟨first, each⟩ := List.forall_mem_cons.mp ih
          exact .cons first (others each)
  | object members ih =>
      refine .object rfl ?_ ?_
      · clear ih
        induction members with
        | nil => rfl
        | cons member rest others => rw [ofMembers, List.map_cons, List.map_cons, others]
      · induction members with
        | nil => exact .nil
        | cons member rest others =>
            refine .cons (ih member.1 member.2 List.mem_cons_self) (others ?_)
            exact fun key value inside => ih key value (List.mem_cons_of_mem member inside)

/-- An entry is for a member: its key is the text of the member's key and their values go
together. -/
def EntryFor (related : Json → Data → Prop) (member : Text × Json) (entry : Data × Data) : Prop :=
  entry.1 = .text member.1 ∧ related member.2 entry.2

theorem Holds.list {items : List Json} {data : Data} (holds : Holds pool (.array items) data) :
    ∃ held, data.opened pool = .list held ∧ List.Forall₂ (Holds pool) items held := by
  cases holds with
  | array opened each => exact ⟨_, opened, each⟩

theorem Holds.entries {members : List (Text × Json)} {data : Data}
    (holds : Holds pool (.object members) data) :
    ∃ entries, data.opened pool = .mapping entries ∧
      List.Forall₂ (EntryFor (Holds pool)) members entries := by
  cases holds with
  | @object _ _ entries opened keys values =>
      refine ⟨entries, opened, ?_⟩
      clear opened
      induction members generalizing entries with
      | nil =>
          cases List.map_eq_nil_iff.mp keys
          exact .nil
      | cons member members ih =>
          cases entries with
          | nil => cases keys
          | cons entry entries =>
              obtain ⟨key, others⟩ := List.cons.inj keys
              cases values with
              | cons value rest => exact .cons ⟨key, value⟩ (ih others rest)

private theorem opened_ofNumber (value : Number) :
    (ofNumber value).opened pool = ofNumber value := by
  cases value <;> rfl

section Lookup

variable {related : Json → Data → Prop} {members : List (Text × Json)}
  {entries : List (Data × Data)}

/-- A text is the same key as itself only, so both lookups stop at one place. -/
theorem lookup?_related (each : List.Forall₂ (EntryFor related) members entries) (key : Text) :
    Option.Rel related (members.lookup key) (lookup? entries key) := by
  induction each with
  | nil => exact .none
  | @cons member entry members entries here _ ih =>
      obtain ⟨other, value⟩ := member
      obtain ⟨spelling, data⟩ := entry
      obtain ⟨rfl, holds⟩ := here
      rw [lookup_cons_eq]
      by_cases same : key = other
      · simpa [lookup?, sameKey, sameScalar, same] using holds
      · simpa [lookup?, sameKey, sameScalar, same, Ne.symm same] using ih

theorem getD_related (each : List.Forall₂ (EntryFor related) members entries) {value : Json}
    {data : Data} (missing : related value data) (key : Text) :
    related ((members.lookup key).getD value) ((lookup? entries key).getD data) := by
  have found := lookup?_related each key
  generalize members.lookup key = member at found
  generalize lookup? entries key = entry at found
  cases found with
  | some here => exact here
  | none => exact missing

end Lookup

theorem entries?_held {members : List (Text × Json)} {data : Data}
    (holds : Holds pool (.object members) data) :
    ∃ entries, data.entries? pool = some entries ∧
      List.Forall₂ (EntryFor (Holds pool)) members entries := by
  obtain ⟨entries, opened, each⟩ := holds.entries
  exact ⟨entries, by rw [entries?, opened], each⟩

/-- What data holds tells how deeply the data is nested. -/
theorem Holds.nesting_le {value other : Json} {data : Data} (holds : Holds pool value data)
    (same : Holds pool other data) : value.nesting ≤ other.nesting := by
  induction value using Tree.inductionOn generalizing other data with
  | array items ih =>
      obtain ⟨held, opened, each⟩ := holds.list
      cases same with
      | array again others =>
          cases opened.symm.trans again
          obtain ⟨some, less⟩ := Tree.nesting_array_le_iff.mp le_rfl
          refine Tree.nesting_array_le_iff.mpr ⟨some, fun item member => ?_⟩
          obtain ⟨part, included, inside⟩ := exists_of_mem_left each item member
          obtain ⟨source, listed, there⟩ := exists_of_mem_right others part included
          exact (ih item member inside there).trans_lt (less source listed)
      | number => rw [opened_ofNumber] at opened; cases ‹Number› <;> cases opened
      | object again => cases opened.symm.trans again
      | _ => cases opened
  | object members ih =>
      obtain ⟨entries, opened, each⟩ := holds.entries
      cases other with
      | object sources =>
          obtain ⟨_, again, others⟩ := same.entries
          cases opened.symm.trans again
          obtain ⟨some, less⟩ := Tree.nesting_object_le_iff.mp le_rfl
          refine Tree.nesting_object_le_iff.mpr ⟨some, fun member included => ?_⟩
          obtain ⟨entry, found, _, inside⟩ := exists_of_mem_left each member included
          obtain ⟨source, listed, _, there⟩ := exists_of_mem_right others entry found
          exact (ih member.1 member.2 included inside there).trans_lt (less source listed)
      | array items =>
          obtain ⟨held, again, _⟩ := same.list
          cases opened.symm.trans again
      | number value => cases same; rw [opened_ofNumber] at opened; cases value <;> cases opened
      | _ => cases same; cases opened
  | _ => exact Nat.zero_le _

/-! ## What can be shown and written -/

def Writable (value : Json) : Prop :=
  ∀ number, Tree.Inside (.number (.integer number)) value → Numeral.isWritable number = true

private theorem writable_array_iff {items : List Json} :
    Writable (.array items) ↔ ∀ item ∈ items, Writable item := by
  refine ⟨fun writable item member number inside => writable number (.item member inside), ?_⟩
  intro each number inside
  cases inside with
  | item member inner => exact each _ member number inner

private theorem writable_object_iff {members : List (Text × Json)} :
    Writable (.object members) ↔ ∀ member ∈ members, Writable member.2 := by
  refine ⟨fun writable member included number inside =>
    writable number (.member included inside), ?_⟩
  intro each number inside
  cases inside with
  | member included inner => exact each _ included number inner

private theorem writable_integer_iff {value : Int} :
    Writable (.number (.integer value)) ↔ Numeral.isWritable value = true := by
  refine ⟨fun writable => writable value .here, fun writable number inside => ?_⟩
  cases inside
  exact writable

/-- A value does not contain the collections that it is inside of: they hold deeper values. -/
def Apart (pool : Pool) (around : List Nat) (value : Json) : Prop :=
  ∀ number ∈ around, ∀ other, Holds pool other (.pooled number) → value.nesting < other.nesting

private theorem Apart.not_mem {around : List Nat} {value : Json} {number : Nat}
    (apart : Apart pool around value) (holds : Holds pool value (.pooled number)) :
    number ∉ around :=
  fun member => Nat.lt_irrefl _ (apart number member value holds)

theorem Apart.inside {around : List Nat} {value part : Json} (apart : Apart pool around value)
    (less : part.nesting < value.nesting) : Apart pool around part :=
  fun number member other holds => less.trans (apart number member other holds)

private theorem Apart.inside_pooled {around : List Nat} {value part : Json} {number : Nat}
    (apart : Apart pool around value) (holds : Holds pool value (.pooled number))
    (less : part.nesting < value.nesting) : Apart pool (number :: around) part :=
  List.forall_mem_cons.mpr
    ⟨fun _ same => less.trans_le (holds.nesting_le same), apart.inside less⟩

section Parts

variable {ε β : Type} {cause : ε}

private theorem items_held {items : List Json} {held : List Data} {inner : Data → Except ε β}
    (all : List.Forall₂ (Holds pool) items held)
    (each : ∀ part data, Holds pool part data → part.nesting < (Tree.array items).nesting →
      Decided (Writable part) cause (inner data)) :
    Decided (Writable (.array items)) cause (held.mapM inner) := by
  obtain ⟨_, less⟩ := Tree.nesting_array_le_iff.mp (le_refl (Tree.array items).nesting)
  have done := Decided.mapM (forall₂_imp_of_mem all fun item member data inside =>
    each item data inside (less item member))
  exact done.congr writable_array_iff.symm

private theorem members_held {members : List (Text × Json)} {entries : List (Data × Data)}
    {step : Data × Data → Except ε β} (all : List.Forall₂ (EntryFor (Holds pool)) members entries)
    (each : ∀ key value data, Holds pool value data →
      value.nesting < (Tree.object members).nesting →
      Decided (Writable value) cause (step (.text key, data))) :
    Decided (Writable (.object members)) cause (entries.mapM step) := by
  obtain ⟨_, less⟩ := Tree.nesting_object_le_iff.mp (le_refl (Tree.object members).nesting)
  have done := Decided.mapM (forall₂_imp_of_mem all fun member included (key, data) held => by
    obtain ⟨rfl, inside⟩ := held
    exact each member.1 member.2 data inside (less member included))
  exact done.congr writable_object_iff.symm

/-- An integer is the only scalar of a document that may be too long. -/
theorem integer_decided {value : Int} {text : β} :
    Decided (Writable (.number (.integer value))) cause
      (if Numeral.isWritable value then .ok text else .error cause) := by
  split
  · next writable => exact .done (writable_integer_iff.mpr writable)
  · next long => exact .failed fun writable => long (writable_integer_iff.mp writable)

end Parts

private theorem outerQuoted_held {inner : Data → Except Unshowable Text} {value : Json}
    {data : Data}
    (holds : Holds pool value data)
    (each : ∀ part data, Holds pool part data → part.nesting < value.nesting →
      Decided (Writable part) .integerTooLong (inner data)) :
    Decided (Writable value) .integerTooLong (outerQuoted inner (data.opened pool)) := by
  cases value with
  | null | boolean | string => cases holds; exact .done fun number inside => nomatch inside
  | number value =>
      cases holds
      rw [opened_ofNumber]
      cases value with
      | decimal value => exact .done fun number inside => nomatch inside
      | integer value => exact @integer_decided _ _ _ value (Numeral.ofInt value)
  | array items =>
      obtain ⟨held, opened, all⟩ := holds.list
      rw [opened]
      exact (items_held all each).total fun texts => ⟨_, rfl⟩
  | object members =>
      obtain ⟨entries, opened, all⟩ := holds.entries
      obtain ⟨some, _⟩ := Tree.nesting_object_le_iff.mp (le_refl (Tree.object members).nesting)
      rw [opened]
      refine (members_held all fun key value data inside less => ?_).total fun texts => ⟨_, rfl⟩
      refine Decided.congr (.bind (each (.string key) (.text key) .string some) fun _ =>
        (each value data inside less).total fun _ => ⟨_, rfl⟩) (and_iff_right ?_)
      exact fun number inside => nomatch inside

/-- A value is shown when its integers can be, as long as there are more levels than its arrays and
objects need. -/
theorem quotedWithin_held {levels : Nat} {around : List Nat} {value : Json} {data : Data}
    (holds : Holds pool value data) (few : value.nesting < levels)
    (apart : Apart pool around value) :
    Decided (Writable value) .integerTooLong (quotedWithin pool levels around data) := by
  induction levels generalizing around value data with
  | zero => exact absurd few (Nat.not_lt_zero _)
  | succ levels ih =>
      rw [quotedWithin.eq_def]
      dsimp only
      split
      · next number =>
          rw [if_neg (by simpa using apart.not_mem holds)]
          exact outerQuoted_held holds fun part data inside less =>
            ih inside (by omega) (apart.inside_pooled holds less)
      · next notPooled =>
          have body := outerQuoted_held holds fun part data inside less =>
            ih inside (by omega) (apart.inside less)
          rwa [opened_of_not_pooled notPooled] at body

private theorem outerText_held {inner : Data → Except Unwritable Text} {value : Json} {data : Data}
    (holds : Holds pool value data)
    (each : ∀ part data, Holds pool part data → part.nesting < value.nesting →
      Decided (Writable part) .integerTooLong (inner data)) :
    Decided (Writable value) .integerTooLong (outerText inner (data.opened pool)) := by
  cases value with
  | null | boolean | string => cases holds; exact .done fun number inside => nomatch inside
  | number value =>
      cases holds
      rw [opened_ofNumber]
      cases value with
      | decimal value => exact .done fun number inside => nomatch inside
      | integer value => exact @integer_decided _ _ _ value (Numeral.ofInt value)
  | array items =>
      obtain ⟨held, opened, all⟩ := holds.list
      rw [opened]
      exact (items_held all each).total fun texts => ⟨_, rfl⟩
  | object members =>
      obtain ⟨entries, opened, all⟩ := holds.entries
      rw [opened]
      refine (members_held all fun key value data inside less => ?_).total fun texts => ⟨_, rfl⟩
      exact (each value data inside less).total fun _ => ⟨_, rfl⟩

theorem Holds.scalar {value : Json} {data : Data} (holds : Holds pool value data)
    (flat : value.nesting ≤ 0) : data.isNested = false := by
  cases value with
  | null | boolean | string => cases holds; rfl
  | number value => cases holds; cases value <;> rfl
  | array items => exact absurd (Tree.nesting_array_le_iff.mp flat).1 (Nat.lt_irrefl 0)
  | object members => exact absurd (Tree.nesting_object_le_iff.mp flat).1 (Nat.lt_irrefl 0)

private theorem textWithin_held {levels : Nat} {around : List Nat} {value : Json} {data : Data}
    (holds : Holds pool value data) (few : value.nesting ≤ levels)
    (apart : Apart pool around value) :
    Decided (Writable value) .integerTooLong (textWithin pool levels around data) := by
  induction levels generalizing around value data with
  | zero =>
      have flat := holds.scalar few
      have alone : outerText (fun _ => .ok []) (data.opened pool) = data.scalarText := by
        cases data <;> first | rfl | cases flat
      rw [textWithin_flat (by simp [flat]), ← alone]
      exact outerText_held holds fun part data inside less => absurd less (by omega)
  | succ levels ih =>
      rw [textWithin.eq_def]
      dsimp only
      split
      · next number =>
          rw [if_neg (by simpa using apart.not_mem holds)]
          exact outerText_held holds fun part data inside less =>
            ih inside (by omega) (apart.inside_pooled holds less)
      · next notPooled =>
          have body := outerText_held holds fun part data inside less =>
            ih inside (by omega) (apart.inside less)
          rwa [opened_of_not_pooled notPooled] at body

/-- Only a string stands for itself, as a text and as a document. -/
theorem Holds.structured {value : Json} {data : Data} (holds : Holds pool value data)
    (structured : ∀ text, value ≠ .string text) :
    data.show? pool = quotedWithin pool mostShown [] data ∧
      data.documentText pool = data.jsonText pool := by
  cases value with
  | null | boolean => cases holds; exact ⟨rfl, rfl⟩
  | number value => cases holds; cases value <;> exact ⟨rfl, rfl⟩
  | string text => exact absurd rfl (structured text)
  | array items =>
      obtain ⟨held, opened, _⟩ := holds.list
      cases data <;> first | exact ⟨rfl, rfl⟩ | cases opened
  | object members =>
      obtain ⟨entries, opened, _⟩ := holds.entries
      cases data <;> first | exact ⟨rfl, rfl⟩ | cases opened

theorem show?_held {value : Json} {data : Data} (holds : Holds pool value data)
    (shallow : value.nesting < mostShown) :
    Decided (Writable value) .integerTooLong (data.show? pool) := by
  by_cases string : ∃ text, value = .string text
  · obtain ⟨text, rfl⟩ := string
    cases holds
    exact .done fun number inside => nomatch inside
  · rw [(holds.structured fun text same => string ⟨text, same⟩).1]
    exact quotedWithin_held holds shallow (List.forall_mem_nil _)

theorem documentText_held {value : Json} {data : Data} (holds : Holds pool value data)
    (shallow : value.nesting ≤ mostWritten) :
    Decided (Writable value) .integerTooLong (data.documentText pool) := by
  by_cases string : ∃ text, value = .string text
  · obtain ⟨text, rfl⟩ := string
    cases holds
    exact .done fun number inside => nomatch inside
  · rw [(holds.structured fun text same => string ⟨text, same⟩).2]
    exact textWithin_held holds shallow (List.forall_mem_nil _)

/-! ## What is written is read back -/

/-- A value that loose data holds without loss: its numbers are integers that can be written, none
of its texts and keys has a surrogate, and no object has a key twice. -/
structure Lossless (value : Json) : Prop where
  integers : ∀ number, Tree.Inside (.number number) value →
    ∃ integer, number = .integer integer ∧ Numeral.isWritable integer = true
  texts : ∀ text, Tree.Inside (.string text) value → ∀ point ∈ text, Utf8.Whole point
  keys : ∀ members, Tree.Inside (.object members) value →
    ∀ member ∈ members, ∀ point ∈ member.1, Utf8.Whole point
  distinct : value.DistinctKeys

theorem Lossless.writable {value : Json} (lossless : Lossless value) : Writable value := by
  intro number inside
  obtain ⟨_, same, writable⟩ := lossless.integers _ inside
  cases same
  exact writable

theorem Lossless.string {text : Text} (whole : ∀ point ∈ text, Utf8.Whole point) :
    Lossless (.string text) where
  integers number inside := nomatch inside
  texts other inside := by
    cases inside
    exact whole
  keys members inside := nomatch inside
  distinct := .string

theorem Lossless.array {items : List Json} (each : ∀ item ∈ items, Lossless item) :
    Lossless (.array items) where
  integers number inside := by
    cases inside with
    | item member inner => exact (each _ member).integers number inner
  texts text inside := by
    cases inside with
    | item member inner => exact (each _ member).texts text inner
  keys members inside := by
    cases inside with
    | item member inner => exact (each _ member).keys members inner
  distinct := .array fun item member => (each item member).distinct

theorem Lossless.item {items : List Json} {item : Json} (lossless : Lossless (.array items))
    (member : item ∈ items) : Lossless item where
  integers number inside := lossless.integers number (.item member inside)
  texts text inside := lossless.texts text (.item member inside)
  keys members inside := lossless.keys members (.item member inside)
  distinct := Tree.distinctKeys_array.mp lossless.distinct item member

theorem Lossless.member {members : List (Text × Json)} {member : Text × Json}
    (lossless : Lossless (.object members)) (included : member ∈ members) : Lossless member.2 where
  integers number inside := lossless.integers number (.member included inside)
  texts text inside := lossless.texts text (.member included inside)
  keys members inside := lossless.keys members (.member included inside)
  distinct := (Tree.distinctKeys_object.mp lossless.distinct).2 member included

private theorem rejoin_whole {text : Text} (whole : ∀ point ∈ text, Utf8.Whole point) :
    rejoin text = text := by
  induction text with
  | nil => rfl
  | cons point rest ih =>
      obtain ⟨⟨character, same⟩, others⟩ := List.forall_mem_cons.mp whole
      have single : point.isHighSurrogate = false := by
        rw [same]
        rfl
      rw [Json.rejoin_not_high single, ih others]

private theorem literal?_flat {data : Data} (flat : data.isNested = false) (levels : Nat) :
    data.literal? pool levels = data.scalarLiteral? := by
  cases levels with
  | zero =>
      rw [literal?, flat]
      rfl
  | succ levels => cases data <;> first | rfl | cases flat

/-- What data holds without loss is what it stands for. -/
theorem literal?_held {levels : Nat} {value : Json} {data : Data} (holds : Holds pool value data)
    (lossless : Lossless value) (few : value.nesting ≤ levels) :
    data.literal? pool levels = some value := by
  induction value using Tree.inductionOn generalizing levels data with
  | null | boolean => cases holds; exact literal?_flat rfl levels
  | number value =>
      obtain ⟨integer, rfl, writable⟩ := lossless.integers value .here
      cases holds
      rw [ofNumber, literal?_flat rfl, scalarLiteral?, if_pos writable]
  | string text =>
      cases holds
      rw [literal?_flat rfl, scalarLiteral?, rejoin_whole (lossless.texts text .here)]
  | array items ih =>
      obtain ⟨held, opened, each⟩ := holds.list
      obtain ⟨some, inner⟩ := Tree.nesting_array_le_iff.mp few
      obtain ⟨levels, rfl⟩ := Nat.exists_eq_add_one.mpr some
      have all : held.mapM (literal? pool levels) = .some items :=
        mapM_of_forall₂ each fun item member part inside =>
          ih item member inside (lossless.item member) (Nat.lt_succ_iff.mp (inner item member))
      rw [literal?, opened, outerLiteral?, all]
      rfl
  | object members ih =>
      obtain ⟨entries, opened, each⟩ := holds.entries
      obtain ⟨some, inner⟩ := Tree.nesting_object_le_iff.mp few
      obtain ⟨levels, rfl⟩ := Nat.exists_eq_add_one.mpr some
      have all : entries.mapM (entryLiteral? (literal? pool levels)) = .some members := by
        refine mapM_of_forall₂ each fun member included entry part => ?_
        obtain ⟨key, inside⟩ := part
        rw [entryLiteral?, key, keyText]
        dsimp only
        rw [rejoin_whole (lossless.keys members .here member included),
          ih member.1 member.2 included inside (lossless.member included)
            (Nat.lt_succ_iff.mp (inner member included))]
        rfl
      have distinct := (Tree.distinctKeys_object.mp lossless.distinct).1
      rw [literal?, opened, outerLiteral?, all, Option.map_some, distinct.ofList_eq]

private theorem outerText_of_nested {levels : Nat} {around : List Nat} {data : Data} {text : Text}
    (nested : data.isNested = true) (written : textWithin pool levels around data = .ok text) :
    ∃ less further, levels = less + 1 ∧
      outerText (textWithin pool less further) (data.opened pool) = .ok text := by
  cases levels with
  | zero =>
      rw [textWithin, if_pos nested] at written
      cases written
  | succ less =>
      obtain ⟨further, outer⟩ := textWithin_succ written
      exact ⟨less, further, rfl, outer⟩

/-- Every level of a value that is written is counted. -/
theorem nesting_le_of_written {levels : Nat} {around : List Nat} {value : Json} {data : Data}
    {text : Text} (holds : Holds pool value data)
    (written : textWithin pool levels around data = .ok text) : value.nesting ≤ levels := by
  induction value using Tree.inductionOn generalizing levels around data text with
  | array items ih =>
      obtain ⟨held, opened, each⟩ := holds.list
      have nested : data.isNested = true := by cases data <;> first | rfl | cases opened
      obtain ⟨less, further, rfl, outer⟩ := outerText_of_nested nested written
      rw [opened] at outer
      obtain ⟨texts, all, _⟩ := ok_of_bind outer
      refine Tree.nesting_array_le_iff.mpr ⟨less.succ_pos, fun item member => ?_⟩
      obtain ⟨part, included, inside⟩ := exists_of_mem_left each item member
      obtain ⟨inner, written⟩ := ok_of_mapM all part included
      exact Nat.lt_succ_iff.mpr (ih item member inside written)
  | object members ih =>
      obtain ⟨entries, opened, each⟩ := holds.entries
      have nested : data.isNested = true := by cases data <;> first | rfl | cases opened
      obtain ⟨less, further, rfl, outer⟩ := outerText_of_nested nested written
      rw [opened] at outer
      obtain ⟨texts, all, _⟩ := ok_of_bind outer
      refine Tree.nesting_object_le_iff.mpr ⟨less.succ_pos, fun member included => ?_⟩
      obtain ⟨entry, found, _, inside⟩ := exists_of_mem_left each member included
      obtain ⟨inner, written⟩ := ok_of_mapM all entry found
      obtain ⟨key, _, written⟩ := ok_of_bind written
      obtain ⟨value, written, _⟩ := ok_of_bind written
      exact Nat.lt_succ_iff.mpr (ih member.1 member.2 included inside written)
  | _ => exact Nat.zero_le _

end Data
end JsonTemplate
