import JsonTemplate.Match
import JsonTemplate.Proofs.Comparison.SameValue
import JsonTemplate.Proofs.Comparison.Worklist
import JsonTemplate.Proofs.Placeholder.Bare
import JsonTemplate.Proofs.Resolution

set_option autoImplicit false

/-!
# Templates without placeholders

A document in which no string value is a placeholder is a template for the documents
that are equal to it by value. Nothing on the way there changes it: quoting leaves its
text alone, every string stands for itself, and no call has to be resolved.
-/

namespace JsonTemplate

def PlaceholderFree (document : Json) : Prop :=
  ∀ text placeholder, document.Leaf text → Placeholder.Named placeholder →
    text ≠ Placeholder.spelling placeholder

theorem placeholderFree_of_scan {document : Json}
    (unscanned : ∀ entry ∈ document.leaves, Placeholder.scan entry.2 = none) :
    PlaceholderFree document := by
  intro text placeholder leaf named same
  obtain ⟨place, listed⟩ := leaf.listed
  have scanned := Placeholder.scan_eq_some_iff.mpr ⟨named, same⟩
  rw [unscanned _ listed] at scanned
  cases scanned

namespace Template

theorem ofJson_eq_literal {document : Json} (free : PlaceholderFree document) :
    ofJson document = literal document := by
  refine Tree.map_congr fun text leaf => ?_
  have unscanned : Placeholder.scan text = none := by
    rw [Option.eq_none_iff_forall_ne_some]
    intro placeholder scanned
    obtain ⟨named, same⟩ := Placeholder.scan_eq_some_iff.mp scanned
    exact free text placeholder leaf named same
  rw [Slot.ofText, unscanned]

private theorem literal_noCalls (document : Json) : (literal document).NoCalls := by
  intro name leaf
  obtain ⟨text, same⟩ := literal_leaf leaf
  cases same

end Template

namespace Match

variable {σ : Type}

/-- Preparing a document that can be read does not change it. -/
theorem read_prepare (config : MatchConfig) {source : Option Text} {document : Document}
    {value : Json} (accepted : document.read source = .ok value) (label : Option Text) :
    (prepare config document).read label = .ok value := by
  cases document with
  | octets content => exact Document.read_source accepted
  | other => cases accepted
  | text characters =>
      have spelled := Json.readText_sound (ok_of_mapError accepted)
      rw [prepare, Placeholder.quoteBare_document spelled, ite_self]
      exact Document.read_source accepted

theorem run_literal (registry : Registry σ) (config : MatchConfig) (mode : Mode)
    {expected actual : Document} {wanted found : Json} {left right : Option Text}
    (readExpected : expected.read left = .ok wanted) (readActual : actual.read right = .ok found)
    (free : PlaceholderFree wanted) (world : σ) :
    run registry config mode expected actual world =
      (.ok ⟨mode, Comparison.differencesOf
        (Comparison.findings mode [] (Template.literal wanted) found), []⟩, world) := by
  have read : readBoth config expected actual = .ok (Template.literal wanted, found) := by
    rw [readBoth, read_prepare config readExpected, Document.read_source readActual,
      ← Template.ofJson_eq_literal free]
    rfl
  obtain ⟨_, accepted⟩ := Document.read_text readExpected
  have distinct : (Template.literal wanted).DistinctKeys :=
    (Json.readText_readable accepted).distinctKeys.map Slot.literal
  rw [run, read]
  simp only [Template.resolve_of_noCalls registry distinct (Template.literal_noCalls wanted),
    compareTrees,
    Comparison.compare_eq, Comparison.capturesOf_literal]
  rfl

/-- An exact match with a template without placeholders succeeds exactly when both documents
are equal by value. It captures nothing and leaves the world as it was. Such a template
matches itself in either mode. -/
theorem run_placeholderFree (registry : Registry σ) (config : MatchConfig)
    {expected actual : Document} {wanted found : Json} {left right : Option Text}
    (readExpected : expected.read left = .ok wanted) (readActual : actual.read right = .ok found)
    (free : PlaceholderFree wanted) (world : σ) :
    (∃ result, run registry config .exact expected actual world = (.ok result, world) ∧
      result.captures = [] ∧ (result.success = true ↔ SameValue wanted found)) ∧
    ∀ mode, run registry config mode expected expected world = (.ok ⟨mode, [], []⟩, world) := by
  obtain ⟨text, accepted⟩ := Document.read_text readExpected
  have readable := Json.readText_readable accepted
  constructor
  · refine ⟨_, run_literal registry config .exact readExpected readActual free world, rfl, ?_⟩
    rw [MatchResult.success, List.isEmpty_iff,
      Comparison.differencesOf_eq_nil_iff (Comparison.capturesOf_literal .exact [] wanted found)]
    exact ⟨Comparison.sameValue_of_findings readable,
      Comparison.findings_of_sameValue .exact [] readable⟩
  · intro mode
    rw [run_literal registry config mode readExpected readExpected free world,
      Comparison.findings_of_sameValue mode [] readable (.refl wanted)]
    rfl

/-- Keys in another order. -/
theorem run_placeholderFree_reordered :
    ∃ result, run Registry.empty .default .exact
        (.text (lit "\x7b\"a\":true,\"b\":\"x\"\x7d"))
        (.text (lit "\x7b\"b\":\"x\",\"a\":true\x7d")) () = (.ok result, ()) ∧
      result.captures = [] ∧ result.success = true := by
  have readExpected : Document.read none (.text (lit "\x7b\"a\":true,\"b\":\"x\"\x7d")) =
      .ok (.object [(lit "a", .boolean true), (lit "b", .string (lit "x"))]) := by
    cbv
  have readActual : Document.read none (.text (lit "\x7b\"b\":\"x\",\"a\":true\x7d")) =
      .ok (.object [(lit "b", .string (lit "x")), (lit "a", .boolean true)]) := by
    cbv
  have free : PlaceholderFree
      (.object [(lit "a", .boolean true), (lit "b", .string (lit "x"))]) := by
    intro text placeholder leaf named same
    have scanned := Placeholder.scan_eq_some_iff.mpr ⟨named, same⟩
    cases leaf with
    | member included inside =>
        rcases List.mem_cons.mp included with first | later
        · cases first
          cases inside
        · cases List.mem_singleton.mp later
          cases inside
          cases scanned
  have same : SameValue (.object [(lit "a", .boolean true), (lit "b", .string (lit "x"))])
      (.object [(lit "b", .string (lit "x")), (lit "a", .boolean true)]) := by
    refine .object (fun key => by simp [or_comm]) fun key first second leftAt rightAt => ?_
    rcases List.mem_cons.mp (mem_of_lookup_eq_some leftAt) with member | later
    · cases member
      cases rightAt
      exact .boolean
    · cases List.mem_singleton.mp later
      cases rightAt
      exact .string
  obtain ⟨⟨result, ran, nothing, succeeds⟩, _⟩ :=
    run_placeholderFree Registry.empty .default readExpected readActual free ()
  exact ⟨result, ran, nothing, succeeds.mpr same⟩

end Match

end JsonTemplate
