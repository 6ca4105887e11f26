import JsonTemplate.Proofs.Data.Held
import JsonTemplate.Proofs.Match.Calls
import JsonTemplate.Proofs.Match.PlaceholderFree
import JsonTemplate.Proofs.Suite.Variables
import JsonTemplate.Proofs.Suite.Verdict

set_option autoImplicit false

/-!
# Inline documents of a case

A case may give its documents as data in place of texts. Writing such a document, quoting what is
bare in it and reading it again leads back to the document, so that the case compares the two
documents that its mapping holds.
-/

namespace JsonTemplate

open Json (readText)
open Placeholder (quoteBare)

namespace Case

open Data (Holds EntryFor Lossless Writable)

/-! ## The parts of a case -/

def present (entries : List (Data × Data)) (number : Int) : Except Failure Unit :=
  let absent := requiredKeys.filter fun key => (Data.lookup? entries key).isNone
  if absent.isEmpty then .ok () else .error (.reported (.argument (.caseMissing number absent)))

def givenMode (pool : Data.Pool) (entries : List (Data × Data)) (number : Int) :
    Except Failure Mode := do
  let given ←
    Suite.shownOf pool ((Data.lookup? entries (lit "mode")).getD (.text (lit "exact")))
  match modeOf? given with
  | some mode => .ok mode
  | none => .error (.reported (.argument (.caseMode number given)))

def givenName (pool : Data.Pool) (entries : List (Data × Data)) (number : Int) :
    Except Failure Text :=
  match Data.lookup? entries (lit "name") with
  | some name => Suite.shownOf pool name
  | none => .ok (lit "case-" ++ Numeral.ofInt number)

/-- The parts of a case are worked out one after the other, up to the first failure. -/
theorem ofEntries_eq (pool : Data.Pool) (entries : List (Data × Data)) (number : Int) :
    ofEntries pool entries number = do
      present entries number
      let mode ← givenMode pool entries number
      let name ← givenName pool entries number
      let expected ← inlineText pool (Data.lookupD entries (lit "expected"))
      let actual ← inlineText pool (Data.lookupD entries (lit "actual"))
      let captures ← capturesOf pool (Data.lookupD entries (lit "expect_captures"))
      return ⟨name, expected, actual, mode,
        ((Data.lookup? entries (lit "expect_match")).map (Data.isTrue pool)).getD true,
        captures, Data.lookupD entries (lit "expect_error")⟩ := by
  rw [ofEntries, present, givenMode, givenName]
  dsimp only
  cases (requiredKeys.filter fun key => (Data.lookup? entries key).isNone).isEmpty with
  | false => rfl
  | true =>
      cases Suite.shownOf pool ((Data.lookup? entries (lit "mode")).getD (.text (lit "exact"))) with
      | error failure => rfl
      | ok given =>
          simp only [bind, Except.bind]
          cases modeOf? given with
          | none => rfl
          | some mode =>
              cases Data.lookup? entries (lit "name") <;>
                cases Data.lookup? entries (lit "expect_match") <;> rfl

theorem present_ok_iff {entries : List (Data × Data)} {number : Int} :
    present entries number = .ok () ↔ ∀ key ∈ requiredKeys, Data.lookup? entries key ≠ none := by
  have absent : (requiredKeys.filter fun key => (Data.lookup? entries key).isNone) = [] ↔
      ∀ key ∈ requiredKeys, Data.lookup? entries key ≠ none := by
    simp [List.filter_eq_nil_iff]
  rw [← absent, present, ← List.isEmpty_iff]
  split <;> simp_all

variable {pool : Data.Pool}

/-- The texts of a case are those of its two documents. -/
theorem documents_of_ofData {item : Data} {index : Int} {entry : Case}
    {members : List (Text × Json)} (holds : Holds pool (.object members) item)
    (made : ofData pool item index = .ok entry) :
    ∃ entries, List.Forall₂ (EntryFor (Holds pool)) members entries ∧
      inlineText pool (Data.lookupD entries (lit "expected")) = .ok entry.expected ∧
      inlineText pool (Data.lookupD entries (lit "actual")) = .ok entry.actual := by
  obtain ⟨entries, mapping, each⟩ := Data.entries?_held holds
  refine ⟨entries, each, ?_⟩
  rw [ofData, mapping] at made
  dsimp only at made
  rw [ofEntries_eq] at made
  obtain ⟨_, _, made⟩ := ok_of_bind made
  obtain ⟨mode, _, made⟩ := ok_of_bind made
  obtain ⟨name, _, made⟩ := ok_of_bind made
  obtain ⟨expected, written, made⟩ := ok_of_bind made
  obtain ⟨actual, other, made⟩ := ok_of_bind made
  obtain ⟨captures, _, made⟩ := ok_of_bind made
  cases made
  exact ⟨written, other⟩

/-! ## Writing, quoting and reading -/

variable {value : Json} {data : Data}

private theorem inlineText_ok_iff (holds : Holds pool value data)
    (structured : ∀ text, value ≠ .string text) {text : Text} :
    inlineText pool data = .ok text ↔ data.jsonText pool = .ok text := by
  rw [inlineText, (holds.structured structured).2]
  refine ⟨ok_of_mapError, fun written => ?_⟩
  rw [written]
  rfl

/-- A value is the text of a case exactly when its integers can be written. -/
theorem inlineText_held (holds : Holds pool value data)
    (shallow : value.nesting ≤ Data.mostWritten) :
    Decided (Writable value) (Suite.misshapen (.notWritable .integerTooLong))
      (inlineText pool data) :=
  (Data.documentText_held holds shallow).mapError fun cause =>
    Suite.misshapen (.notWritable cause)

private theorem inlineText_total_iff (holds : Holds pool value data) (writable : Writable value)
    (structured : ∀ text, value ≠ .string text) :
    (∃ text, inlineText pool data = .ok text) ↔ value.nesting ≤ Data.mostWritten := by
  constructor
  · rintro ⟨text, written⟩
    exact Data.nesting_le_of_written holds ((inlineText_ok_iff holds structured).mp written)
  · exact fun shallow => (inlineText_held holds shallow).ok_iff.mpr writable

private theorem read_inlineText (holds : Holds pool value data) (lossless : Lossless value)
    (structured : ∀ text, value ≠ .string text) {text : Text}
    (written : inlineText pool data = .ok text) :
    readText text = .ok value ∧ quoteBare text = text := by
  have shallow := (inlineText_total_iff holds lossless.writable structured).mp ⟨text, written⟩
  have stands := Data.literal?_held holds lossless shallow
  have read := (Data.literal?_of_jsonText ((inlineText_ok_iff holds structured).mp written)).1
    value stands
  exact ⟨read, Placeholder.quoteBare_document (Json.readText_sound read)⟩

end Case

namespace Suite

open Data (Holds EntryFor Lossless)

variable {σ : Type}

/-- With nothing bound, a case whose texts are read resolves and compares what is read. -/
theorem matched_of_read {entry : Case} {wanted found : Json}
    (readExpected : readText entry.expected = .ok wanted)
    (readActual : readText entry.actual = .ok found) (suite : Suite σ) (world : σ) :
    suite.matched entry ⟨[], world⟩ =
      match (Template.ofJson wanted).resolve suite.registry world with
      | (.error error, progress) => (.error (.reported error), progress.world)
      | (.ok resolved, progress) =>
          (.ok (Match.compareTrees suite.config entry.mode resolved found), progress.world) := by
  rw [matched, Variables.substitute_nil, Variables.substitute_nil]
  have accepted : (Document.text entry.expected).read none = .ok wanted := by
    rw [Document.read, readExpected]
    rfl
  have other : (Document.text entry.actual).read (some (lit "actual")) = .ok found := by
    rw [Document.read, readActual]
    rfl
  exact (Match.run_of_read suite.registry entry.mode world
    (Match.read_prepare suite.config accepted _) other).2

/-- Inline documents mean what they say. A document that is no string is written unless it is nested
too deeply for the writer, and if nothing is lost in the data, what is written has nothing bare to
quote and is read back as the document. So as long as nothing is bound, a case with two such
documents comes to what resolving the calls of the first and comparing it with the second comes
to. -/
theorem inline_documents :
    (∀ pool value data, Holds pool value data → Lossless value →
      (∀ text, value ≠ .string text) →
      ((∃ text, Case.inlineText pool data = .ok text) ↔ value.nesting ≤ Data.mostWritten) ∧
      ∀ text, Case.inlineText pool data = .ok text →
        readText text = .ok value ∧ quoteBare text = text) ∧
    ∀ pool members item index entry wanted found, Holds pool (.object members) item →
      Case.ofData pool item index = .ok entry →
      members.lookup (lit "expected") = some wanted → Lossless wanted →
      (∀ text, wanted ≠ .string text) →
      members.lookup (lit "actual") = some found → Lossless found →
      (∀ text, found ≠ .string text) →
      (readText entry.expected = .ok wanted ∧ quoteBare entry.expected = entry.expected ∧
        readText entry.actual = .ok found) ∧
      ∀ (suite : Suite σ) world, suite.matched entry ⟨[], world⟩ =
        match (Template.ofJson wanted).resolve suite.registry world with
        | (.error error, progress) => (.error (.reported error), progress.world)
        | (.ok resolved, progress) =>
            (.ok (Match.compareTrees suite.config entry.mode resolved found),
              progress.world) := by
  constructor
  · intro pool value data holds lossless structured
    exact ⟨Case.inlineText_total_iff holds lossless.writable structured,
      fun text => Case.read_inlineText holds lossless structured⟩
  · intro pool members item index entry wanted found holds made atExpected wantedLossless
      wantedStructured atActual foundLossless foundStructured
    obtain ⟨entries, each, expected, actual⟩ := Case.documents_of_ofData holds made
    have wantedHeld := Data.getD_related each .null (lit "expected")
    have foundHeld := Data.getD_related each .null (lit "actual")
    rw [atExpected] at wantedHeld
    rw [atActual] at foundHeld
    obtain ⟨readExpected, unquoted⟩ :=
      Case.read_inlineText wantedHeld wantedLossless wantedStructured expected
    obtain ⟨readActual, _⟩ :=
      Case.read_inlineText foundHeld foundLossless foundStructured actual
    exact ⟨⟨readExpected, unquoted, readActual⟩, matched_of_read readExpected readActual⟩

/-- Brackets that would make a bare capture, and a character that is written as two surrogates. -/
theorem inline_documents_nested :
    let wanted : Json := .array [.array [.string (lit "N😀")]]
    ∃ entry, Case.ofData #[] (Data.ofJson (.object [(lit "actual", wanted),
        (lit "expected", wanted)])) 0 = .ok entry ∧
      entry.expected = lit "[[\"N\\ud83d\\ude00\"]]" ∧ readText entry.expected = .ok wanted ∧
      ∀ suite : Suite Nat, suite.matched entry ⟨[], 0⟩ = (.ok ⟨.exact, [], []⟩, 0) := by
  intro wanted
  let held : Data := .list [.list [.text (lit "N😀")]]
  let entries : List (Data × Data) := [(.text (lit "actual"), held), (.text (lit "expected"), held)]
  let written : Text := lit "[[\"N\\ud83d\\ude00\"]]"
  have made : Case.ofData #[] (.mapping entries) 0 =
      .ok ⟨lit "case-1", written, written, .exact, true, [], .null⟩ := by
    change Case.ofEntries #[] entries (0 + 1) = _
    rw [Case.ofEntries_eq, Case.present_ok_iff.mpr (by decide)]
    cbv
  have lossless : Lossless wanted := by
    refine .array fun item member => ?_
    cases List.mem_singleton.mp member
    refine .array fun item member => ?_
    cases List.mem_singleton.mp member
    refine .string fun point member => ?_
    rcases List.mem_cons.mp member with rfl | member
    · exact ⟨'N', rfl⟩
    · cases List.mem_singleton.mp member
      exact ⟨'😀', rfl⟩
  have holds : Holds #[] (.object [(lit "actual", wanted), (lit "expected", wanted)])
      (.mapping entries) := Data.holds_ofJson _
  have structured : ∀ text, wanted ≠ .string text := by simp [wanted]
  obtain ⟨⟨read, _, _⟩, ran⟩ := inline_documents.2 #[] _ _ 0 _ wanted wanted holds made
    rfl lossless structured rfl lossless structured
  refine ⟨_, made, rfl, read, fun suite => ?_⟩
  rw [ran]
  cbv

end Suite

end JsonTemplate
