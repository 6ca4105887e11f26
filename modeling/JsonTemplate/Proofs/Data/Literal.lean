import JsonTemplate.Data.JsonText
import JsonTemplate.Proofs.Decimal.Binary64
import JsonTemplate.Proofs.Json.Ascii
import JsonTemplate.Proofs.Json.Taken
import JsonTemplate.Proofs.Outcome

set_option autoImplicit false

/-!
# The values that loose data stands for

A value of a suite stands for a document when it can be written out as one and read back. What it
stands for is told here part by part, without writing anything.
-/

namespace JsonTemplate.Data

open Json (Takes Scalar Stop enoughLevels rejoin readValue)

/-- The value of data with no other data inside it, unless it stands for none: an integer may be too
long, a number may be none or not finite, and octets and sets are no documents. -/
def scalarLiteral? : Data → Option Json
  | .null => some .null
  | .boolean value => some (.boolean value)
  | .integer value => if Numeral.isWritable value then some (.number (.integer value)) else none
  | .float value =>
      (Json.number? (Binary64.text Binary64.documentWords value)).map fun (number, _) =>
        .number number
  | .text value => some (.string (rejoin value))
  | .date value => some (.string (rejoin value.render))
  | .timestamp wall offset =>
      some (.string (rejoin (wall.render (.scalar 'T') ++ (offset.map Offset.render).getD [])))
  | _ => none

def entryLiteral? (inner : Data → Option Json) (entry : Data × Data) : Option (Text × Json) :=
  match keyText entry.1 with
  | .ok key => (inner entry.2).map (rejoin key, ·)
  | .error _ => none

def outerLiteral? (inner : Data → Option Json) : Data → Option Json
  | .list items => (items.mapM inner).map Tree.array
  | .pair first second => ([first, second].mapM inner).map Tree.array
  | .mapping entries =>
      (entries.mapM (entryLiteral? inner)).map fun members => .object (Bindings.ofList members)
  | other => other.scalarLiteral?

/-- The value that data stands for, with at most so many lists and mappings around each other. -/
def literal? (pool : Pool) : (levels : Nat) → Data → Option Json
  | 0, data => if data.isNested then none else data.scalarLiteral?
  | levels + 1, data => outerLiteral? (literal? pool levels) (data.opened pool)

/-! ## What is written stands for what is read -/

private theorem float_takes (value : Float) {depth : Nat} (enough : enoughLevels ≤ depth) :
    Takes Stop.IsConstant (readValue depth) (Binary64.text Binary64.documentWords value)
      (scalarLiteral? (.float value)) := by
  rw [scalarLiteral?]
  cases shape : Binary64.form value with
  | notANumber =>
      rw [Binary64.text, shape]
      exact Json.Constant.notANumber.takes enough
  | infinite negative =>
      rw [Binary64.text, shape]
      cases negative with
      | true => exact Json.Constant.negativeInfinity.takes enough
      | false => exact Json.Constant.infinity.takes enough
  | finite negative magnitude =>
      obtain ⟨number, literal, kept⟩ := Binary64.text_literal Binary64.documentWords shape
      have read := Json.number?_complete literal Json.stops_nil
      rw [List.append_nil] at read
      rw [read]
      exact (Scalar.number literal kept).takes enough

private theorem scalarText_takes {data : Data} {text : Text} (written : data.scalarText = .ok text)
    {depth : Nat} (enough : enoughLevels ≤ depth) :
    Takes Stop.IsConstant (readValue depth) text data.scalarLiteral? := by
  have string : ∀ content, Takes Stop.IsConstant (readValue depth) (Json.asciiLiteral content)
      (some (.string (rejoin content))) := fun content =>
    (Scalar.string (Json.asciiLiteral_literal content)).takes enough
  cases data with
  | null => cases written; exact Scalar.null.takes enough
  | boolean value =>
      cases written
      cases value with
      | true => exact Scalar.true.takes enough
      | false => exact Scalar.false.takes enough
  | integer value =>
      rw [scalarText, integerText] at written
      split at written
      · next writable =>
          cases written
          rw [scalarLiteral?, if_pos writable]
          exact (Scalar.number (integer_literal writable)
            (kept_of_writable writable)).takes enough
      · cases written
  | float value => cases written; exact float_takes value enough
  | notANumber mark => cases written; exact Json.Constant.notANumber.takes enough
  | text content => cases written; exact string content
  | date value => cases written; exact string _
  | timestamp wall offset => cases written; exact string _
  | _ => cases written

variable {pool : Pool}

private theorem blank_space : Json.Blank [.scalar ' '] := by
  simp [Json.Blank, Json.isSpace]

private theorem entryText_takes {inner : Data → Except Unwritable Text}
    {outcome : Data → Option Json}
    {depth : Nat}
    (each : ∀ data text, inner data = .ok text →
      Takes Stop.IsConstant (readValue depth) text (outcome data))
    {entry : Data × Data} {text : Text} (written : entryText inner entry = .ok text) :
    Takes Stop.IsConstant (Json.readMember (readValue depth)) text
      (entryLiteral? outcome entry) := by
  obtain ⟨key, keyWritten, written⟩ := ok_of_bind written
  obtain ⟨value, valueWritten, written⟩ := ok_of_bind written
  cases written
  rw [entryLiteral?, keyWritten, List.append_assoc]
  exact Json.takes_member blank_space (Json.asciiLiteral_literal key) (each _ _ valueWritten)

private theorem outerText_takes {inner : Data → Except Unwritable Text}
    {outcome : Data → Option Json}
    {depth : Nat} (enough : enoughLevels ≤ depth)
    (each : ∀ data text, inner data = .ok text →
      Takes Stop.IsConstant (readValue depth) text (outcome data))
    {data : Data} {text : Text} (written : outerText inner data = .ok text) :
    Takes Stop.IsConstant (readValue (depth + 1)) text (outerLiteral? outcome data) := by
  have kept : ∀ stop : Stop, stop.IsConstant → stop.raised depth = stop :=
    fun stop _ => stop.raised_of_enough enough
  cases data with
  | list items =>
      obtain ⟨texts, all, written⟩ := ok_of_bind written
      cases written
      exact Json.takes_array kept blank_space ((forall₂_of_mapM all).imp each)
  | pair first second =>
      obtain ⟨texts, all, written⟩ := ok_of_bind written
      cases written
      exact Json.takes_array kept blank_space ((forall₂_of_mapM all).imp each)
  | mapping entries =>
      obtain ⟨texts, all, written⟩ := ok_of_bind written
      cases written
      exact Json.takes_object kept blank_space
        ((forall₂_of_mapM all).imp fun _ _ => entryText_takes each)
  | _ =>
      simp only [outerText, outerLiteral?] at written ⊢
      exact scalarText_takes written (by omega)

theorem opened_of_not_pooled {data : Data} (notPooled : ∀ number, data ≠ .pooled number) :
    data.opened pool = data := by
  cases data with
  | pooled number => exact absurd rfl (notPooled number)
  | _ => rfl

/-- The text of any data is written in one step around what is inside. -/
theorem textWithin_succ {levels : Nat} {around : List Nat} {data : Data} {text : Text}
    (written : textWithin pool (levels + 1) around data = .ok text) :
    ∃ further, outerText (textWithin pool levels further) (data.opened pool) = .ok text := by
  rw [textWithin.eq_def] at written
  dsimp only at written
  split at written
  · split at written
    · cases written
    · exact ⟨_, written⟩
  · next notPooled => exact ⟨around, by rwa [opened_of_not_pooled notPooled]⟩

/-- Whatever the collections around it, what is written for data is read as the value that the data
stands for. -/
theorem textWithin_takes {levels depth : Nat} {around : List Nat} {data : Data} {text : Text}
    (written : textWithin pool levels around data = .ok text)
    (enough : levels + enoughLevels ≤ depth) :
    Takes Stop.IsConstant (readValue depth) text (literal? pool levels data) := by
  induction levels generalizing around data text depth with
  | zero =>
      rw [textWithin] at written
      rw [literal?]
      split at written
      · cases written
      · next flat =>
          rw [if_neg flat]
          exact scalarText_takes written (by omega)
  | succ levels ih =>
      obtain ⟨depth, rfl⟩ : ∃ less, depth = less + 1 := Nat.exists_eq_add_one.mpr (by omega)
      obtain ⟨further, written⟩ := textWithin_succ written
      exact outerText_takes (by omega) (fun data text inside => ih inside (by omega)) written

/-! ## What stands for a value is written -/

private theorem outerLiteral?_imp {inner other : Data → Option Json}
    (each : ∀ data value, inner data = some value → other data = some value) {data : Data}
    {value : Json} (stands : outerLiteral? inner data = some value) :
    outerLiteral? other data = some value := by
  cases data with
  | list items =>
      obtain ⟨values, all, rfl⟩ := Option.map_eq_some_iff.mp stands
      exact congrArg (Option.map _) (mapM_imp each all)
  | pair first second =>
      obtain ⟨values, all, rfl⟩ := Option.map_eq_some_iff.mp stands
      exact congrArg (Option.map _) (mapM_imp each all)
  | mapping entries =>
      obtain ⟨members, all, rfl⟩ := Option.map_eq_some_iff.mp stands
      refine congrArg (Option.map _) (mapM_imp (fun entry member found => ?_) all)
      rw [entryLiteral?] at found ⊢
      split at found
      · obtain ⟨value, inside, rfl⟩ := Option.map_eq_some_iff.mp found
        rw [each _ _ inside]
        rfl
      · cases found
  | _ => exact stands

private theorem literal?_succ {levels : Nat} {data : Data} {value : Json}
    (stands : literal? pool levels data = some value) :
    literal? pool (levels + 1) data = some value := by
  induction levels generalizing data value with
  | zero =>
      rw [literal?] at stands
      split at stands
      · cases stands
      · cases data <;> first | exact stands | contradiction
  | succ levels ih => exact outerLiteral?_imp (fun data value => ih) stands

private theorem literal?_eq_none_of_succ {levels : Nat} {data : Data}
    (none : literal? pool (levels + 1) data = none) : literal? pool levels data = .none := by
  rw [Option.eq_none_iff_forall_ne_some]
  intro value stands
  rw [literal?_succ stands] at none
  cases none

private theorem scalarText_of_literal? {data : Data} {value : Json}
    (stands : data.scalarLiteral? = some value) : ∃ text, data.scalarText = .ok text := by
  cases data with
  | integer value =>
      rw [scalarLiteral?] at stands
      split at stands
      · next writable => exact ⟨_, by rw [scalarText, integerText, if_pos writable]⟩
      · cases stands
  | null | boolean | float | text | date | timestamp => exact ⟨_, rfl⟩
  | _ => cases stands

private theorem outerText_of_literal? {inner : Data → Except Unwritable Text}
    {outcome : Data → Option Json}
    (each : ∀ data value, outcome data = some value → ∃ text, inner data = .ok text)
    {data : Data} {value : Json} (stands : outerLiteral? outcome data = some value) :
    ∃ text, outerText inner data = .ok text := by
  have listed : ∀ {items : List Data} {values : List Json}, items.mapM outcome = some values →
      ∃ texts, items.mapM inner = .ok texts := by
    intro items values all
    refine mapM_total fun item member => ?_
    obtain ⟨value, found⟩ := some_of_mapM all item member
    exact each item value found
  cases data with
  | list items =>
      obtain ⟨values, all, _⟩ := Option.map_eq_some_iff.mp stands
      obtain ⟨texts, written⟩ := listed all
      exact ⟨_, by rw [outerText, written]; rfl⟩
  | pair first second =>
      obtain ⟨values, all, _⟩ := Option.map_eq_some_iff.mp stands
      obtain ⟨texts, written⟩ := listed all
      exact ⟨_, by rw [outerText, written]; rfl⟩
  | mapping entries =>
      obtain ⟨members, all, _⟩ := Option.map_eq_some_iff.mp stands
      obtain ⟨texts, written⟩ : ∃ texts, entries.mapM (entryText inner) = .ok texts := by
        refine mapM_total fun entry member => ?_
        obtain ⟨found, stands⟩ := some_of_mapM all entry member
        rw [entryLiteral?] at stands
        split at stands
        · next key keyWritten =>
            obtain ⟨value, inside, _⟩ := Option.map_eq_some_iff.mp stands
            obtain ⟨text, written⟩ := each _ _ inside
            exact ⟨_, by rw [entryText, keyWritten, written]; rfl⟩
        · cases stands
      exact ⟨_, by rw [outerText, written]; rfl⟩
  | _ =>
      simp only [outerText, outerLiteral?] at stands ⊢
      exact scalarText_of_literal? stands

theorem textWithin_flat {data : Data} (flat : ¬ data.isNested = true) {levels : Nat}
    {around : List Nat} : textWithin pool levels around data = data.scalarText := by
  cases levels with
  | zero => rw [textWithin, if_neg flat]
  | succ levels => cases data <;> first | rfl | exact absurd rfl flat

/-- Data that stands for a value is written inside any collections that stand for none with as many
levels, so also where nothing is around it. -/
theorem textWithin_of_literal? {levels most : Nat} {around : List Nat} {data : Data} {value : Json}
    (stands : literal? pool levels data = some value) (few : levels ≤ most)
    (apart : ∀ number ∈ around, literal? pool levels (.pooled number) = none) :
    ∃ text, textWithin pool most around data = .ok text := by
  induction levels generalizing most around data value with
  | zero =>
      rw [literal?] at stands
      split at stands
      · cases stands
      · next flat =>
          rw [textWithin_flat flat]
          exact scalarText_of_literal? stands
  | succ levels ih =>
      obtain ⟨most, rfl⟩ : ∃ less, most = less + 1 := Nat.exists_eq_add_one.mpr (by omega)
      have outside : ∀ number ∈ around, literal? pool levels (.pooled number) = none :=
        fun number member => literal?_eq_none_of_succ (apart number member)
      -- A collection inside itself would need as many levels inside as it needs outside.
      cases already : literal? pool levels data with
      | some earlier => exact ih already (by omega) outside
      | none =>
          rw [textWithin.eq_def]
          dsimp only
          split
          · next number =>
              split
              · next member =>
                  rw [apart number (List.contains_iff_mem.mp member)] at stands
                  cases stands
              · exact outerText_of_literal? (fun data value inside => ih inside (by omega)
                  (List.forall_mem_cons.mpr ⟨already, outside⟩)) stands
          · next notPooled =>
              rw [literal?, opened_of_not_pooled notPooled] at stands
              exact outerText_of_literal? (fun data value inside => ih inside (by omega) outside)
                stands

/-! ## Documents -/

theorem literal?_of_jsonText {data : Data} {text : Text} (written : data.jsonText pool = .ok text) :
    (∀ value, data.literal? pool mostWritten = some value → Json.readText text = .ok value) ∧
      (data.literal? pool mostWritten = none →
        ∃ named, Json.readText text = .error (.fault (.constant named))) := by
  obtain ⟨found, stopped⟩ := (textWithin_takes written (by decide)).document
  refine ⟨found, fun none => ?_⟩
  obtain ⟨_, ⟨named, rfl⟩, refused⟩ := stopped none
  exact ⟨named, refused⟩

/-- Data stands for a value exactly when a text is written for it that is read as this value. -/
theorem literal?_eq_some_iff {data : Data} {value : Json} :
    data.literal? pool mostWritten = some value ↔
      ∃ text, data.jsonText pool = .ok text ∧ Json.readText text = .ok value := by
  constructor
  · intro stands
    obtain ⟨text, written⟩ := textWithin_of_literal? stands le_rfl (List.forall_mem_nil _)
    exact ⟨text, written, (literal?_of_jsonText written).1 value stands⟩
  · rintro ⟨text, written, read⟩
    obtain ⟨found, constant⟩ := literal?_of_jsonText written
    cases stands : data.literal? pool mostWritten with
    | none =>
        obtain ⟨named, refused⟩ := constant stands
        rw [read] at refused
        cases refused
    | some other =>
        rw [found other stands] at read
        rw [Except.ok.inj read]

theorem literal?_of_unwritten {data : Data} {cause : Unwritable}
    (unwritten : data.jsonText pool = .error cause) : data.literal? pool mostWritten = none := by
  rw [Option.eq_none_iff_forall_ne_some]
  intro value stands
  obtain ⟨text, written, _⟩ := literal?_eq_some_iff.mp stands
  cases unwritten.symm.trans written

end JsonTemplate.Data
