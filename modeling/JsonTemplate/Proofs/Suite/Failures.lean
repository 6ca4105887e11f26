import JsonTemplate.Proofs.Json.Overflow
import JsonTemplate.Proofs.Suite.Run

set_option autoImplicit false

/-!
# Failures that are not reported

Reading a document gives a value or an error of the library, unless a number out of range stands in
it. Such a number ends the match, and with it the run of a suite.
-/

namespace JsonTemplate

variable {σ : Type}

namespace Document

def text? : Document → Option Text
  | .text characters => some characters
  | .octets content => (Utf8.decode (Utf8.dropMark content)).toOption
  | .other _ => none

def Overflows (document : Document) : Prop :=
  ∃ text, document.text? = some text ∧ Json.Overflows text

/-- A text, or octets in its place, that cannot be read is malformed or has a number out of
range. -/
theorem read_cases (source : Option Text) {document : Document}
    (given : ∀ typeName, document ≠ .other typeName) :
    (∃ value, document.read source = .ok value) ∨
      (∃ fault, document.read source = .error (.reported (.parse source fault))) ∨
      document.read source = .error (.escaped .numberOutOfRange) ∧ document.Overflows := by
  have texts : ∀ text, document.text? = some text →
      document.read source = (Json.readText text).mapError (Json.Refusal.failure source) →
      (∃ value, document.read source = .ok value) ∨
        (∃ fault, document.read source = .error (.reported (.parse source fault))) ∨
        document.read source = .error (.escaped .numberOutOfRange) ∧ document.Overflows := by
    intro text same read
    rw [read]
    cases outcome : Json.readText text with
    | ok value => exact .inl ⟨value, rfl⟩
    | error refusal =>
        cases refusal with
        | fault fault => exact .inr (.inl ⟨fault, rfl⟩)
        | numberOutOfRange =>
            exact .inr (.inr ⟨rfl, text, same, Json.readText_overflows outcome⟩)
  cases document with
  | text characters => exact texts characters rfl rfl
  | octets content =>
      cases decoded : Utf8.decode (Utf8.dropMark content) with
      | error fault =>
          refine .inr (.inl ⟨.notUtf8 fault, ?_⟩)
          rw [read, Json.readOctets, decoded]
          rfl
      | ok text =>
          exact texts text (by rw [text?, decoded]; rfl) (by rw [read, Json.readOctets, decoded])
  | other typeName => exact absurd rfl (given typeName)

private theorem read_escaped {source : Option Text} {document : Document} {escape : Escape}
    (failed : document.read source = .error (.escaped escape)) :
    escape = .numberOutOfRange ∧ document.Overflows := by
  by_cases given : ∀ typeName, document ≠ .other typeName
  · rcases read_cases source given with ⟨value, read⟩ | ⟨fault, read⟩ | ⟨read, overflows⟩
    · cases failed.symm.trans read
    · cases failed.symm.trans read
    · cases failed.symm.trans read
      exact ⟨rfl, overflows⟩
  · obtain ⟨typeName, same⟩ := not_forall_not.mp given
    subst same
    cases failed

end Document

namespace Match

/-- What ends a match without being reported is a number out of range in one of its documents. -/
theorem run_escaped {registry : Registry σ} {config : MatchConfig} {mode : Mode}
    {expected actual : Document} {world later : σ} {escape : Escape}
    (ran : run registry config mode expected actual world = (.error (.escaped escape), later)) :
    escape = .numberOutOfRange ∧ ((prepare config expected).Overflows ∨ actual.Overflows) := by
  cases readExpected : (prepare config expected).read (some (lit "expected")) with
  | error failure =>
      rw [run_of_unread_template registry mode actual world readExpected] at ran
      cases ran
      obtain ⟨same, overflows⟩ := Document.read_escaped readExpected
      exact ⟨same, .inl overflows⟩
  | ok wanted =>
      cases readActual : actual.read (some (lit "actual")) with
      | error failure =>
          rw [run_of_unread_document registry mode world readExpected readActual] at ran
          cases ran
          obtain ⟨same, overflows⟩ := Document.read_escaped readActual
          exact ⟨same, .inr overflows⟩
      | ok found =>
          rw [(run_of_read registry mode world readExpected readActual).2] at ran
          split at ran <;> cases ran

end Match

namespace Suite

/-- The documents that a case hands to its match, when some variables are bound. -/
def expectedOf (entry : Case) (bound : Bindings Json) : Document :=
  .text (Variables.substitute bound entry.expected)

def actualOf (entry : Case) (bound : Bindings Json) : Document :=
  .text (Variables.substitute bound entry.actual)

/-- A case without a verdict has a number out of range in one of its documents, or its match was
completed and what the case expects of it cannot be checked. -/
theorem runCase_failed {suite : Suite σ} {entry : Case} {state last : State σ} {failure : Failure}
    (ran : suite.runCase entry state = (.error failure, last)) :
    (failure = .escaped .numberOutOfRange ∧
      ((Match.prepare suite.config (expectedOf entry state.bound)).Overflows ∨
        (actualOf entry state.bound).Overflows)) ∨
    ∃ result world, Match.run suite.registry suite.config entry.mode
        (expectedOf entry state.bound) (actualOf entry state.bound) state.world =
          (.ok result, world) ∧
      Verdict.ofResult suite.pool entry result = .error failure := by
  unfold runCase at ran
  dsimp only at ran
  split at ran
  · cases ran
  · next world other unreported matched =>
      cases ran
      cases failure with
      | reported error => exact absurd rfl (unreported error)
      | escaped escape =>
          obtain ⟨rfl, overflows⟩ := Match.run_escaped matched
          exact .inl ⟨rfl, overflows⟩
  · next result world matched =>
      obtain ⟨failed, _⟩ := Prod.mk.inj ran
      exact .inr ⟨result, world, matched, failed⟩

/-- A run that has no report stops at the first case that has no verdict. -/
theorem runCases_failed {suite : Suite σ} {cases : List Case} {state last : State σ}
    {failure : Failure} (ran : suite.runCases cases state = (.error failure, last)) :
    ∃ before entry after verdicts between, cases = before ++ entry :: after ∧
      suite.runCases before state = (.ok verdicts, between) ∧
      suite.runCase entry between = (.error failure, last) := by
  induction cases generalizing state with
  | nil => cases ran
  | cons entry rest ih =>
      rcases first : suite.runCase entry state with ⟨outcome, next⟩
      rw [runCases, first] at ran
      cases outcome with
      | error other =>
          cases ran
          exact ⟨[], entry, rest, [], state, rfl, rfl, first⟩
      | ok verdict =>
          rcases further : suite.runCases rest next with ⟨others, final⟩
          simp only [further] at ran
          obtain ⟨failed, rfl⟩ := Prod.mk.inj ran
          rw [error_of_map failed] at further
          obtain ⟨before, inner, after, verdicts, between, rfl, front, stopped⟩ := ih further
          exact ⟨entry :: before, inner, after, verdict :: verdicts, between, rfl,
            runCases_cons first front, stopped⟩

/-- Reading a text or octets gives a value, an error about the document, or nothing that the library
reports, and the last only when a number out of range stands in it. Nothing else of a match fails to
be reported. A run of a suite stops without a report at a case with such a number in one of its
documents, or at one whose match was completed and whose expectations cannot be checked. -/
theorem failures_of_large_numbers :
    (∀ (source : Option Text) (document : Document), (∀ typeName, document ≠ .other typeName) →
      (∃ value, document.read source = .ok value) ∨
      (∃ fault, document.read source = .error (.reported (.parse source fault))) ∨
      document.read source = .error (.escaped .numberOutOfRange) ∧ document.Overflows) ∧
    (∀ (registry : Registry σ) config mode expected actual world later escape,
      Match.run registry config mode expected actual world = (.error (.escaped escape), later) →
      escape = .numberOutOfRange ∧
        ((Match.prepare config expected).Overflows ∨ actual.Overflows)) ∧
    ∀ (suite : Suite σ) left failure last, suite.run left = (.error failure, last) →
      ∃ before entry after verdicts state, suite.cases = before ++ entry :: after ∧
        suite.runCases before ⟨[], left.world⟩ = (.ok verdicts, state) ∧
        suite.runCase entry state = (.error failure, last) ∧
        ((failure = .escaped .numberOutOfRange ∧
          ((Match.prepare suite.config (expectedOf entry state.bound)).Overflows ∨
            (actualOf entry state.bound).Overflows)) ∨
        ∃ result later, Match.run suite.registry suite.config entry.mode
            (expectedOf entry state.bound) (actualOf entry state.bound) state.world =
              (.ok result, later) ∧
          Verdict.ofResult suite.pool entry result = .error failure) := by
  refine ⟨fun source document given => Document.read_cases source given,
    fun registry config mode expected actual world later escape ran => Match.run_escaped ran,
    fun suite left failure last ran => ?_⟩
  rw [run] at ran
  rcases stopped : suite.runCases suite.cases ⟨[], left.world⟩ with ⟨outcome, final⟩
  rw [stopped] at ran
  obtain ⟨failed, rfl⟩ := Prod.mk.inj ran
  rw [error_of_map failed] at stopped
  obtain ⟨before, entry, after, verdicts, state, split, front, here⟩ := runCases_failed stopped
  exact ⟨before, entry, after, verdicts, state, split, front, here, runCase_failed here⟩

/-- The exponent of a number is larger than any that can be kept. Nothing reports it, and no case
behind it is run. -/
theorem large_exponent_is_not_reported :
    let large := lit "1e1000000000000000000"
    let suite : Suite Unit := ⟨#[], .default, .empty,
      [⟨lit "large", lit "null", large, .exact, true, [], .text (lit "ParseError")⟩,
        ⟨lit "behind", lit "null", lit "null", .exact, true, [], .null⟩]⟩
    Document.read none (.text large) = .error (.escaped .numberOutOfRange) ∧
      Match.run .empty .default .exact (.text (lit "null")) (.text large) () =
        (.error (.escaped .numberOutOfRange), ()) ∧
      suite.run ⟨[], ()⟩ = (.error (.escaped .numberOutOfRange), ⟨[], ()⟩) := by
  intro large suite
  have number : Json.number? large = some (.decimal ⟨false, 1, 1000000000000000000⟩, []) := by
    decide
  -- The digits of the coefficient are taken by recursion on its size, so they are given by name.
  have tooLarge : Decimal.inRange ⟨false, 1, 1000000000000000000⟩ = false := by
    rw [Decimal.inRange, Decimal.adjusted, Numeral.ofNat_of_lt (by decide)]
    decide
  have enough : ¬ Json.room < Json.numberLevels large := by decide
  have atom : Json.readAtom Json.room large = .error .outOfRange := by
    have same : Json.readAtom Json.room large = Json.readNumber Json.room large := by rfl
    rw [same, Json.readNumber, number]
    simp only [if_neg enough, Number.toDecimal, tooLarge]
    rfl
  have value : Json.readValue Json.room (Json.skipSpace large) = .error .outOfRange := by
    have same : Json.readValue Json.room (Json.skipSpace large) =
        Json.readAtom Json.room large := by rfl
    rw [same, atom]
  have refused : Json.readText large = .error .numberOutOfRange := by
    have same : Json.readText large =
        (Json.readWhole large).mapError (Json.Stop.refusal large) := by rfl
    rw [same, Json.readWhole, value]
    rfl
  have unread : ∀ source, Document.read source (.text large) =
      .error (.escaped .numberOutOfRange) := fun source => by
    rw [Document.read, refused]
    rfl
  have null : (Match.prepare .default (.text (lit "null"))).read (some (lit "expected")) =
      .ok .null := by
    cbv
  have matched : Match.run .empty .default .exact (.text (lit "null")) (.text large) () =
      (.error (.escaped .numberOutOfRange), ()) :=
    Match.run_of_unread_document .empty .exact () null (unread _)
  refine ⟨unread none, matched, ?_⟩
  have stopped : suite.runCase ⟨lit "large", lit "null", large, .exact, true, [],
      .text (lit "ParseError")⟩ ⟨[], ()⟩ = (.error (.escaped .numberOutOfRange), ⟨[], ()⟩) := by
    rw [runCase, Variables.substitute_nil, Variables.substitute_nil, matched]
  rw [run, runCases, stopped]
  rfl

end Suite

end JsonTemplate
