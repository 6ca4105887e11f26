import JsonTemplate.Proofs.Comparison.Answered
import JsonTemplate.Proofs.Match.Calls
import Mathlib

set_option autoImplicit false

/-!
# Answers do not interfere

Two matches of the same texts whose calls all give texts differ in value mismatches at the places of
calls and in nothing else, whatever the texts look like. They capture the same.
-/

namespace JsonTemplate

def Template.callsAt (template : Template) (place : Path) : Bool :=
  place ∈ template.callLeaves.map Prod.fst

namespace Match

open Comparison (Facing differencesOf capturesOf differenceOutline)
open Registry (Answers)

variable {σ τ : Type}

/-- A match whose calls all give texts has compared the template answered by them. -/
theorem run_ok_answers {registry : Registry σ} {config : MatchConfig} {mode : Mode}
    {expected actual : Document} {world later : σ} {result : MatchResult}
    (ran : run registry config mode expected actual world = (.ok result, later)) :
    ∃ wanted found assign, (prepare config expected).read (some (lit "expected")) = .ok wanted ∧
      actual.read (some (lit "actual")) = .ok found ∧
      Answers registry world (Template.ofJson wanted).calls
        ((Template.ofJson wanted).answers assign) later ∧
      ((Template.ofJson wanted).answer assign).DistinctKeys ∧
      result = compareTrees config mode ((Template.ofJson wanted).answer assign) found := by
  cases readExpected : (prepare config expected).read (some (lit "expected")) with
  | error failure =>
      rw [run_of_unread_template registry mode actual world readExpected] at ran
      cases ran
  | ok wanted =>
      cases readActual : actual.read (some (lit "actual")) with
      | error failure =>
          rw [run_of_unread_document registry mode world readExpected readActual] at ran
          cases ran
      | ok found =>
          obtain ⟨distinct, whole⟩ := run_of_read registry mode world readExpected readActual
          rw [whole] at ran
          rcases Template.resolve_cases registry distinct world with
            ⟨assign, last, answered, resolved⟩ | ⟨_, _, _, _, _, _, _, _, _, _, resolved⟩
          · have keys := (Template.resolve_ok distinct resolved).1
            rw [resolved] at ran
            cases ran
            exact ⟨wanted, found, assign, rfl, rfl, answered, keys, rfl⟩
          · rw [resolved] at ran
            cases ran

/-- Where a call faces a string there is a value mismatch exactly if its answer is another string;
`values` are the answers in document order. -/
def TellsAnswers (template : Template) (found : Json) (values : List Text)
    (result : MatchResult) : Prop :=
  ∀ (position : Nat) place name value text, template.callLeaves[position]? = some (place, name) →
    values[position]? = some value →
    Facing template found place (.string (.call name)) (.string text) →
    ((∃ difference ∈ result.differences, difference.path = place ∧
      difference.mismatch.word = lit "VALUE_MISMATCH") ↔ text ≠ value)

private theorem tells_answers (config : MatchConfig) (mode : Mode) {template : Template}
    (found : Json)
    {assign : Path → Text} (distinct : (template.answer assign).DistinctKeys) :
    TellsAnswers template found (template.answers assign)
      (compareTrees config mode (template.answer assign) found) := by
  intro position place name value text listed given facing
  have same : assign place = value := by
    rw [Template.answers, List.getElem?_map, listed] at given
    exact Option.some.inj given
  rw [compareTrees, Comparison.compare_empty, ← same]
  exact Comparison.value_mismatch_iff distinct facing

private theorem covers_calls (template : Template) :
    Comparison.Covers template.callsAt [] template := by
  intro leaf listed
  exact decide_eq_true (List.mem_map_of_mem listed)

/-- Two matches of the same texts, each with its own registry, capture the same and report the same
kinds of difference at the same places, apart from value mismatches where functions are called.
Those say which string facing a call is not its answer. -/
theorem run_answers_noninterfering {first : Registry σ} {second : Registry τ}
    {config : MatchConfig} {mode : Mode} {expected actual : Document} {world later : σ}
    {otherWorld otherLater : τ} {left right : MatchResult}
    (ranFirst : run first config mode expected actual world = (.ok left, later))
    (ranSecond : run second config mode expected actual otherWorld = (.ok right, otherLater)) :
    ∃ wanted found, (prepare config expected).read (some (lit "expected")) = .ok wanted ∧
      actual.read (some (lit "actual")) = .ok found ∧
      let template := Template.ofJson wanted
      left.captures = right.captures ∧
      differenceOutline template.callsAt left.differences =
        differenceOutline template.callsAt right.differences ∧
      (∃ values, Answers first world template.calls values later ∧
        TellsAnswers template found values left) ∧
      ∃ values, Answers second otherWorld template.calls values otherLater ∧
        TellsAnswers template found values right := by
  obtain ⟨wanted, found, assign, readExpected, readActual, answered, keys, rfl⟩ :=
    run_ok_answers ranFirst
  obtain ⟨again, document, other, sameExpected, sameActual, otherwise, otherKeys, rfl⟩ :=
    run_ok_answers ranSecond
  cases readExpected.symm.trans sameExpected
  cases readActual.symm.trans sameActual
  let template := Template.ofJson wanted
  have outline := Comparison.outline_answer mode template.callsAt template [] assign found
    (covers_calls template)
  have otherOutline := Comparison.outline_answer mode template.callsAt template [] other found
    (covers_calls template)
  have alike := outline.trans otherOutline.symm
  refine ⟨wanted, found, readExpected, readActual, ?_, ?_, ?_, ?_⟩
  · rw [compareTrees, compareTrees, Comparison.compare_empty, Comparison.compare_empty,
      Comparison.capturesOf_outline template.callsAt, alike,
      ← Comparison.capturesOf_outline template.callsAt]
  · rw [compareTrees, compareTrees, Comparison.compare_empty, Comparison.compare_empty,
      Comparison.differenceOutline_eq, Comparison.differenceOutline_eq, alike]
  · exact ⟨_, answered, tells_answers config mode found keys⟩
  · exact ⟨_, otherwise, tells_answers config mode found otherKeys⟩

/-- One answer looks like a capture, the other is what the document has. -/
theorem run_answers_noninterfering_capture_text :
    let first : Registry Unit := ⟨[⟨lit "F", fun world => (.text (lit "[[X]]"), world)⟩]⟩
    let second : Registry Nat := ⟨[⟨lit "f", fun calls => (.text (lit "x"), calls + 1)⟩]⟩
    let expected := Document.text (lit "[\"\x7b\x7bF()\x7d\x7d\", \"[[Y]]\"]")
    let actual := Document.text (lit "[\"x\", null]")
    ∃ left right, run first .default .exact expected actual () = (.ok left, ()) ∧
      run second .default .exact expected actual 0 = (.ok right, 1) ∧
      left.captures = right.captures ∧ right.captures = [(lit "Y", .null)] ∧
      left.differences.map Difference.path = [[.index 0]] ∧ right.differences = [] := by
  intro first second expected actual
  let mismatch : Difference := ⟨[.index 0], .value (.string (lit "[[X]]")) (.string (lit "x"))⟩
  have ranFirst : run first .default .exact expected actual () =
      (.ok ⟨.exact, [mismatch], [(lit "Y", .null)]⟩, ()) := by
    cbv
  have ranSecond : run second .default .exact expected actual 0 =
      (.ok ⟨.exact, [], [(lit "Y", .null)]⟩, 1) := by
    cbv
  obtain ⟨_, _, _, _, captures, _⟩ := run_answers_noninterfering ranFirst ranSecond
  exact ⟨_, _, ranFirst, ranSecond, captures, rfl, rfl, rfl⟩

end Match

end JsonTemplate
