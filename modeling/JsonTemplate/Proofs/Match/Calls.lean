import JsonTemplate.Proofs.Match.Compared
import JsonTemplate.Proofs.Resolution.InOrder
import Mathlib

set_option autoImplicit false

/-!
# The calls of a match

A match calls nothing unless both documents can be read. Then it calls every function of the
template, in document order, whatever the comparison comes to look at.
-/

namespace JsonTemplate

namespace Match

open Registry (Answers Refuses)

variable {σ : Type}

theorem run_of_unread_template (registry : Registry σ) {config : MatchConfig} (mode : Mode)
    {expected : Document} (actual : Document) (world : σ) {failure : Failure}
    (unread : (prepare config expected).read (some (lit "expected")) = .error failure) :
    run registry config mode expected actual world = (.error failure, world) := by
  have stopped : readBoth config expected actual = .error failure := by rw [readBoth, unread]; rfl
  rw [run, stopped]

theorem run_of_unread_document (registry : Registry σ) {config : MatchConfig} (mode : Mode)
    {expected actual : Document} (world : σ) {wanted : Json} {failure : Failure}
    (read : (prepare config expected).read (some (lit "expected")) = .ok wanted)
    (unread : actual.read (some (lit "actual")) = .error failure) :
    run registry config mode expected actual world = (.error failure, world) := by
  have stopped : readBoth config expected actual = .error failure := by
    rw [readBoth, read]
    change (actual.read _ >>= _) = _
    rw [unread]
    rfl
  rw [run, stopped]

/-- A match of two documents that can be read resolves the template of the first. -/
theorem run_of_read (registry : Registry σ) {config : MatchConfig} (mode : Mode)
    {expected actual : Document} (world : σ) {wanted found : Json}
    (readExpected : (prepare config expected).read (some (lit "expected")) = .ok wanted)
    (readActual : actual.read (some (lit "actual")) = .ok found) :
    (Template.ofJson wanted).DistinctKeys ∧
      run registry config mode expected actual world =
        match (Template.ofJson wanted).resolve registry world with
        | (.error error, progress) => (.error (.reported error), progress.world)
        | (.ok resolved, progress) =>
            (.ok (compareTrees config mode resolved found), progress.world) := by
  have both : readBoth config expected actual = .ok (Template.ofJson wanted, found) := by
    rw [readBoth, readExpected]
    change (actual.read _ >>= _) = _
    rw [readActual]
    rfl
  refine ⟨(readBoth_distinctKeys both).1, ?_⟩
  rewrite [run, both]
  rfl

/-- No function is called unless both documents can be read, and the template is read first. Then
the functions of all call leaves are called in document order, each once, until one is refused: its
error ends the match. When none is, the texts take the places of the calls as literals and the
resolved template, in which nothing is left to call, is compared with the document. -/
theorem run_calls_in_order (registry : Registry σ) (config : MatchConfig) (mode : Mode)
    (expected actual : Document) (world : σ) :
    match (prepare config expected).read (some (lit "expected")),
      actual.read (some (lit "actual")) with
    | .error failure, _ => run registry config mode expected actual world = (.error failure, world)
    | .ok _, .error failure =>
        run registry config mode expected actual world = (.error failure, world)
    | .ok wanted, .ok found =>
        let template := Template.ofJson wanted
        (∃ before name after values between error last,
          template.calls = before ++ name :: after ∧
          Answers registry world before values between ∧
          Refuses registry name between error last ∧
          template.resolve registry world = (.error error, ⟨last, before.length + 1⟩) ∧
          run registry config mode expected actual world = (.error (.reported error), last)) ∨
        ∃ assign last,
          Answers registry world template.calls (template.answers assign) last ∧
          template.resolve registry world =
            (.ok (template.answer assign), ⟨last, template.calls.length⟩) ∧
          run registry config mode expected actual world =
            (.ok (compareTrees config mode (template.answer assign) found), last) ∧
          ∀ later, (template.answer assign).resolve registry later =
            (.ok (template.answer assign), ⟨later, 0⟩) := by
  cases readExpected : (prepare config expected).read (some (lit "expected")) with
  | error failure => exact run_of_unread_template registry mode actual world readExpected
  | ok wanted =>
      cases readActual : actual.read (some (lit "actual")) with
      | error failure => exact run_of_unread_document registry mode world readExpected readActual
      | ok found =>
          obtain ⟨distinct, ran⟩ := run_of_read registry mode world readExpected readActual
          rcases Template.resolve_cases registry distinct world with
            ⟨assign, last, answered, resolved⟩ |
              ⟨before, name, after, values, between, error, last, split, answered, refused,
                resolved⟩
          · obtain ⟨keys, noCalls⟩ := Template.resolve_ok distinct resolved
            refine .inr ⟨assign, last, answered, resolved, ?_, fun later => ?_⟩
            · rw [ran, resolved]
            · exact Template.resolve_of_noCalls registry keys noCalls later
          · refine .inl ⟨before, name, after, values, between, error, last, split, answered,
              refused, resolved, ?_⟩
            rw [ran, resolved]

/-- The second call of a function that is answered once; the world lists the calls. -/
theorem run_calls_in_order_twice :
    let logging : Registry (List Text) :=
      ⟨[⟨lit "A", fun calls => (.text (lit "[[X]]"), calls ++ [lit "A"])⟩,
        ⟨lit "B", fun calls =>
          (if lit "B" ∈ calls then .failure (lit "twice") else .text [], calls ++ [lit "B"])⟩]⟩
    let expected := Document.text
      (lit "\x7b\"a\": \"\x7b\x7bA()\x7d\x7d\", \"b\": [\"\x7b\x7bB()\x7d\x7d\", " ++
        lit "\"\x7b\x7bb()\x7d\x7d\", \"\x7b\x7bA()\x7d\x7d\"]\x7d")
    let refusal := Error.functionFailed (lit "b") (lit "twice")
    run logging .default .exact expected (.text (lit "[]")) [] =
        (.error (.reported refusal), [lit "A", lit "B", lit "B"]) ∧
      ∃ values between, Answers logging [] [lit "A", lit "B"] values between ∧
        Refuses logging (lit "b") between refusal [lit "A", lit "B", lit "B"] := by
  intro logging expected refusal
  have calls := run_calls_in_order logging .default .exact expected (.text (lit "[]")) []
  let wanted : Json := .object [(lit "a", .string (lit "\x7b\x7bA()\x7d\x7d")),
    (lit "b", .array [.string (lit "\x7b\x7bB()\x7d\x7d"),
      .string (lit "\x7b\x7bb()\x7d\x7d"), .string (lit "\x7b\x7bA()\x7d\x7d")])]
  have readExpected : (prepare .default expected).read (some (lit "expected")) = .ok wanted := by
    cbv
  have readActual : (Document.text (lit "[]")).read (some (lit "actual")) = .ok (.array []) := by
    cbv
  have ran : run logging .default .exact expected (.text (lit "[]")) [] =
      (.error (.reported refusal), [lit "A", lit "B", lit "B"]) := by cbv
  rw [readExpected, readActual] at calls
  rcases calls with ⟨before, name, after, values, between, error, last, split, answered, refused,
      resolved, stopped⟩ | ⟨_, _, _, _, finished, _⟩
  · cases ran.symm.trans stopped
    have listed : (Template.ofJson wanted).calls =
        [lit "A", lit "B"] ++ [lit "b", lit "A"] := by cbv
    have reached : ((Template.ofJson wanted).resolve logging []).2.reached = 3 := by cbv
    rw [resolved] at reached
    obtain ⟨rfl, rest⟩ := List.append_inj (listed.symm.trans split) (Nat.succ.inj reached).symm
    cases rest
    exact ⟨ran, values, between, answered, refused⟩
  · cases ran.symm.trans finished

end Match

end JsonTemplate
