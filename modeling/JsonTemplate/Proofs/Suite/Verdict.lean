import JsonTemplate.Proofs.Comparison.SameValue
import JsonTemplate.Proofs.Data.Literal
import JsonTemplate.Proofs.Suite.Run

set_option autoImplicit false

/-!
# What a verdict says

A case passes when its match ends with the error that it expects, or when the match is completed
and meets every expectation. What it expects of a capture is a plain value: it is compared, but
nothing in it is captured or called.
-/

namespace JsonTemplate

variable {σ : Type}

namespace Verdict

variable {pool : Data.Pool} {captures : Bindings Json}

/-- An expected capture is met: its name has been captured with the value that is wanted. -/
def Met (pool : Data.Pool) (captures : Bindings Json) (expected : Data × Data) : Prop :=
  ∃ name found value, expected.1 = .text name ∧ captures.get? name = some found ∧
    expected.2.literal? pool Data.mostWritten = some value ∧ SameValue value found

/-- Something can be said about an expected capture: its key can be shown, and the value that is
wanted for a capture is not nested too deeply. -/
def Tellable (pool : Data.Pool) (captures : Bindings Json) (expected : Data × Data) : Prop :=
  (∃ shown, Suite.shownOf pool expected.1 = .ok shown) ∧
    ∀ name found, expected.1 = .text name → captures.get? name = some found →
      expected.2.jsonText pool ≠ .error .tooDeep

/-- Why a wanted value cannot be used: it cannot be written, or it is read as a constant. -/
inductive Unusable (pool : Data.Pool) (wanted : Data) : Text → Prop where
  | unwritable {cause : Data.Unwritable} :
      cause ≠ .tooDeep → wanted.jsonText pool = .error cause → Unusable pool wanted cause.message
  | constant {text : Text} {named : Json.Constant} :
      wanted.jsonText pool = .ok text → Json.readText text = .error (.fault (.constant named)) →
      Unusable pool wanted (Error.parse (some (lit "expected capture")) (.constant named)).message

def comparedLines (name : Text) (value found : Json) : List Text :=
  (Comparison.compare .exact .last .empty [] (Template.literal value) found).2.differences.map
    fun difference => lit "Capture '" ++ name ++ lit "': " ++ difference.message

/-- The lines about an expected capture. -/
inductive CaptureLines (pool : Data.Pool) (captures : Bindings Json) :
    Data × Data → List Text → Prop where
  | missing {key wanted : Data} {shown : Text} :
      Suite.shownOf pool key = .ok shown →
      (∀ name, key = .text name → captures.get? name = none) →
      CaptureLines pool captures (key, wanted) [lit "Capture '" ++ shown ++ lit "' was not recorded"]
  | unusable {name cause : Text} {wanted : Data} {found : Json} :
      captures.get? name = some found → wanted.literal? pool Data.mostWritten = none →
      Unusable pool wanted cause →
      CaptureLines pool captures (.text name, wanted) [unusable name cause]
  | compared {name : Text} {wanted : Data} {found value : Json} :
      captures.get? name = some found → wanted.literal? pool Data.mostWritten = some value →
      CaptureLines pool captures (.text name, wanted) (comparedLines name value found)

private theorem tellable_of_literal? {name : Text} {wanted : Data} {value : Json}
    (stands : wanted.literal? pool Data.mostWritten = some value) :
    Tellable pool captures (.text name, wanted) := by
  obtain ⟨text, written, _⟩ := Data.literal?_eq_some_iff.mp stands
  exact ⟨⟨name, rfl⟩, fun _ _ _ _ tooDeep => by cases written.symm.trans tooDeep⟩

private theorem Met.tellable {expected : Data × Data} (met : Met pool captures expected) :
    Tellable pool captures expected := by
  obtain ⟨key, wanted⟩ := expected
  obtain ⟨name, found, value, same, _, stands, _⟩ := met
  cases same
  exact tellable_of_literal? stands

private theorem captureFailures_missing {key wanted : Data} {shown : Text}
    (display : Suite.shownOf pool key = .ok shown)
    (absent : ∀ name, key = .text name → captures.get? name = none) :
    captureFailures pool captures key wanted =
      .ok [lit "Capture '" ++ shown ++ lit "' was not recorded"] := by
  unfold captureFailures
  simp only [display, Bind.bind, Except.bind]
  cases key with
  | text name => simp only [absent name rfl, Pure.pure, Except.pure]
  | _ => rfl

private theorem captureFailures_unwritten {name : Text} {found : Json} {wanted : Data}
    {cause : Data.Unwritable} (captured : captures.get? name = some found)
    (unwritten : wanted.jsonText pool = .error cause) :
    captureFailures pool captures (.text name) wanted =
      if cause = .tooDeep then .error (Suite.misshapen (.notWritable .tooDeep))
      else .ok [unusable name cause.message] := by
  have display : Suite.shownOf pool (.text name) = .ok name := rfl
  unfold captureFailures
  simp only [display, Bind.bind, Except.bind, captured, unwritten]
  cases cause <;> rfl

private theorem captureFailures_written {name text : Text} {found : Json} {wanted : Data}
    (captured : captures.get? name = some found) (written : wanted.jsonText pool = .ok text) :
    captureFailures pool captures (.text name) wanted =
      match Document.read (some (lit "expected capture")) (.text text) with
      | .error (.reported error) => .ok [unusable name error.message]
      | .error failure => .error failure
      | .ok value => .ok (comparedLines name value found) := by
  have display : Suite.shownOf pool (.text name) = .ok name := rfl
  unfold captureFailures
  simp only [display, Bind.bind, Except.bind, captured, written]
  rfl

/-- What is written for a wanted value can be told about, whatever is read from it. -/
theorem captureLines_of_written {name text : Text} {found : Json} {wanted : Data}
    (captured : captures.get? name = some found) (written : wanted.jsonText pool = .ok text) :
    ∃ lines, captureFailures pool captures (.text name) wanted = .ok lines ∧
      CaptureLines pool captures (.text name, wanted) lines := by
  obtain ⟨reads, stops⟩ := Data.literal?_of_jsonText written
  rw [captureFailures_written captured written, Document.read]
  cases stands : wanted.literal? pool Data.mostWritten with
  | none =>
      obtain ⟨named, refused⟩ := stops stands
      rw [refused]
      exact ⟨_, rfl, .unusable captured stands (.constant written refused)⟩
  | some value =>
      rw [reads value stands]
      exact ⟨_, rfl, .compared captured stands⟩

/-- Lines are given exactly when something can be said. -/
theorem captureFailures_cases (pool : Data.Pool) (captures : Bindings Json) (key wanted : Data) :
    Tellable pool captures (key, wanted) ∧
        (∃ lines, captureFailures pool captures key wanted = .ok lines ∧
          CaptureLines pool captures (key, wanted) lines) ∨
      ¬ Tellable pool captures (key, wanted) ∧
        ∃ failure, captureFailures pool captures key wanted = .error failure := by
  cases display : Suite.shownOf pool key with
  | error failure =>
      refine .inr ⟨fun tellable => ?_, failure, ?_⟩
      · obtain ⟨⟨shown, same⟩, _⟩ := tellable
        cases display.symm.trans same
      · unfold captureFailures
        rw [display]
        rfl
  | ok shown =>
      by_cases recorded : ∃ name found, key = .text name ∧ captures.get? name = some found
      · obtain ⟨name, found, rfl, captured⟩ := recorded
        cases written : wanted.jsonText pool with
        | ok text =>
            exact .inl ⟨⟨⟨shown, display⟩, fun _ _ _ _ tooDeep => by
              cases written.symm.trans tooDeep⟩, captureLines_of_written captured written⟩
        | error cause =>
            have lines := captureFailures_unwritten captured written
            split at lines
            · next deep =>
                rw [deep] at written
                exact .inr ⟨fun tellable => tellable.2 name found rfl captured written, _, lines⟩
            · next shallow =>
                refine .inl ⟨⟨⟨shown, display⟩, fun _ _ _ _ tooDeep => ?_⟩, _, lines, .unusable
                  captured (Data.literal?_of_unwritten written) (.unwritable shallow written)⟩
                cases written.symm.trans tooDeep
                exact shallow rfl
      · have absent : ∀ name, key = .text name → captures.get? name = none :=
          fun name same => Option.eq_none_iff_forall_ne_some.mpr fun found captured =>
            recorded ⟨name, found, same, captured⟩
        exact .inl ⟨⟨⟨shown, display⟩, fun name found same captured =>
            absurd ⟨name, found, same, captured⟩ recorded⟩, _,
          captureFailures_missing display absent, .missing display absent⟩

private theorem CaptureLines.eq_nil_iff {expected : Data × Data} {lines : List Text}
    (told : CaptureLines pool captures expected lines) :
    lines = [] ↔ Met pool captures expected := by
  cases told with
  | missing display absent =>
      refine iff_of_false (List.cons_ne_nil _ _) ?_
      rintro ⟨name, found, value, same, captured, _⟩
      rw [absent name same] at captured
      cases captured
  | unusable captured none cause =>
      refine iff_of_false (List.cons_ne_nil _ _) ?_
      rintro ⟨name, found, value, same, _, stands, _⟩
      rw [none] at stands
      cases stands
  | @compared name wanted found value captured stands =>
      obtain ⟨text, _, read⟩ := Data.literal?_eq_some_iff.mp stands
      rw [comparedLines, Comparison.compare_empty, List.map_eq_nil_iff,
        Comparison.differencesOf_eq_nil_iff (Comparison.capturesOf_literal _ _ _ _),
        Comparison.findings_eq_nil_iff_sameValue (Json.readText_readable read)]
      constructor
      · exact fun same => ⟨name, found, value, rfl, captured, stands, same⟩
      · rintro ⟨_, other, literal, ⟨⟩, located, denoted, same⟩
        rw [captured] at located
        rw [stands] at denoted
        cases located
        cases denoted
        exact same

private theorem CaptureLines.eq_of_literal? {name : Text} {wanted : Data} {found value : Json}
    {lines : List Text} (told : CaptureLines pool captures (.text name, wanted) lines)
    (captured : captures.get? name = some found)
    (stands : wanted.literal? pool Data.mostWritten = some value) :
    lines = comparedLines name value found := by
  cases told with
  | missing _ absent =>
      rw [absent name rfl] at captured
      cases captured
  | unusable _ none =>
      rw [none] at stands
      cases stands
  | compared located denoted =>
      cases captured.symm.trans located
      cases stands.symm.trans denoted
      rfl

private theorem matchFailures_eq_nil_iff (entry : Case) (result : MatchResult) :
    matchFailures entry result = [] ↔ result.success = entry.expectMatch := by
  have success : result.differences = [] ↔ result.success = true := by
    simp [MatchResult.success]
  unfold matchFailures
  cases matched : result.success <;> cases entry.expectMatch <;> simp_all

private theorem errorFailures_cases (pool : Data.Pool) (entry : Case) :
    entry.expectError.isTrue pool = false ∧ errorFailures pool entry = .ok [] ∨
      entry.expectError.isTrue pool = true ∧
        errorFailures pool entry = (Suite.shownOf pool entry.expectError).map fun shown =>
          [lit "Expected " ++ shown ++ lit ", but the comparison completed"] := by
  unfold errorFailures
  cases entry.expectError.isTrue pool with
  | false => exact .inl ⟨rfl, rfl⟩
  | true =>
      refine .inr ⟨rfl, ?_⟩
      cases Suite.shownOf pool entry.expectError <;> rfl

private theorem errorFailures_eq_ok_nil_iff {entry : Case} {errors : List Text}
    (told : errorFailures pool entry = .ok errors) :
    errors = [] ↔ entry.expectError.isTrue pool = false := by
  rcases errorFailures_cases pool entry with ⟨none, empty⟩ | ⟨given, shows⟩
  · cases empty.symm.trans told
    exact iff_of_true rfl none
  · rw [shows] at told
    obtain ⟨shown, _, rfl⟩ := ok_of_map told
    simp [given]

def AllTellable (pool : Data.Pool) (entry : Case) (captures : Bindings Json) : Prop :=
  (entry.expectError.isTrue pool = true →
    ∃ shown, Suite.shownOf pool entry.expectError = .ok shown) ∧
    ∀ expected ∈ entry.expectCaptures, Tellable pool captures expected

private theorem ofResult_eq (pool : Data.Pool) (entry : Case) (result : MatchResult) :
    ofResult pool entry result = (errorFailures pool entry).bind fun errors =>
      (entry.expectCaptures.mapM fun expected =>
        captureFailures pool result.captures expected.1 expected.2).bind fun lines =>
          .ok ⟨entry.name, (errors ++ matchFailures entry result ++ lines.flatten).isEmpty,
            some result, none, errors ++ matchFailures entry result ++ lines.flatten⟩ := rfl

private theorem ofResult_ok {entry : Case} {result : MatchResult} {verdict : Verdict}
    (done : ofResult pool entry result = .ok verdict) :
    ∃ errors lines, errorFailures pool entry = .ok errors ∧
      List.Forall₂ (CaptureLines pool result.captures) entry.expectCaptures lines ∧
      verdict.failures = errors ++ matchFailures entry result ++ lines.flatten ∧
      verdict.passed = verdict.failures.isEmpty := by
  obtain ⟨errors, told, done⟩ := ok_of_bind done
  obtain ⟨lines, each, done⟩ := ok_of_bind done
  cases done
  refine ⟨errors, lines, told, (forall₂_of_mapM each).imp ?_, rfl, rfl⟩
  rintro ⟨key, wanted⟩ one told
  rcases captureFailures_cases pool result.captures key wanted with
    ⟨_, other, same, lines⟩ | ⟨_, failure, failed⟩
  · cases same.symm.trans told
    exact lines
  · cases failed.symm.trans told

private theorem ofResult_total_iff {entry : Case} {result : MatchResult} :
    (∃ verdict, ofResult pool entry result = .ok verdict) ↔
      AllTellable pool entry result.captures := by
  constructor
  · rintro ⟨verdict, done⟩
    obtain ⟨errors, told, done⟩ := ok_of_bind done
    obtain ⟨lines, each, _⟩ := ok_of_bind done
    constructor
    · intro given
      rcases errorFailures_cases pool entry with ⟨none, _⟩ | ⟨_, shows⟩
      · cases none.symm.trans given
      · rw [shows] at told
        obtain ⟨shown, display, _⟩ := ok_of_map told
        exact ⟨shown, display⟩
    · rintro ⟨key, wanted⟩ member
      obtain ⟨one, told⟩ := ok_of_mapM each _ member
      rcases captureFailures_cases pool result.captures key wanted with
        ⟨tellable, _⟩ | ⟨_, failure, failed⟩
      · exact tellable
      · cases failed.symm.trans told
  · rintro ⟨showable, each⟩
    have errors : ∃ errors, errorFailures pool entry = .ok errors := by
      rcases errorFailures_cases pool entry with ⟨_, empty⟩ | ⟨given, shows⟩
      · exact ⟨[], empty⟩
      · obtain ⟨shown, display⟩ := showable given
        exact ⟨_, by rw [shows, display]; rfl⟩
    obtain ⟨errors, told⟩ := errors
    obtain ⟨lines, written⟩ := @mapM_total _ _ _ (fun expected : Data × Data =>
        captureFailures pool result.captures expected.1 expected.2) entry.expectCaptures (by
      intro expected member
      rcases captureFailures_cases pool result.captures expected.1 expected.2 with
        ⟨_, lines, same, _⟩ | ⟨untold, _⟩
      · exact ⟨lines, same⟩
      · exact absurd (each expected member) untold)
    rw [ofResult_eq, told, written]
    exact ⟨_, rfl⟩

private theorem flatten_eq_nil_iff {captures : Bindings Json} {expected : List (Data × Data)}
    {lines : List (List Text)} (each : List.Forall₂ (CaptureLines pool captures) expected lines) :
    lines.flatten = [] ↔ ∀ one ∈ expected, Met pool captures one := by
  induction each with
  | nil => simp
  | cons here _ ih => simp [here.eq_nil_iff, ih]

/-- Where all other expected captures are met, the lines are those about the one that is left. -/
theorem lines_of_one {before after : List (Data × Data)} {expected : Data × Data}
    {lines : List (List Text)}
    (each : List.Forall₂ (CaptureLines pool captures) (before ++ expected :: after) lines)
    (others : ∀ other ∈ before ++ after, Met pool captures other) :
    CaptureLines pool captures expected lines.flatten := by
  induction before generalizing lines with
  | nil =>
      cases each with
      | cons here rest =>
          rw [List.flatten_cons, (flatten_eq_nil_iff rest).mpr others, List.append_nil]
          exact here
  | cons first before ih =>
      cases each with
      | cons here rest =>
          obtain ⟨met, others⟩ := List.forall_mem_cons.mp others
          rw [List.flatten_cons, here.eq_nil_iff.mpr met, List.nil_append]
          exact ih rest others

/-- The verdict on a completed match says that it passed when all expectations are met. -/
theorem passed_iff {entry : Case} {result : MatchResult} {verdict : Verdict}
    (done : ofResult pool entry result = .ok verdict) :
    verdict.passed = true ↔ entry.expectError.isTrue pool = false ∧
      result.success = entry.expectMatch ∧
      ∀ expected ∈ entry.expectCaptures, Met pool result.captures expected := by
  obtain ⟨errors, lines, told, each, failures, passed⟩ := ofResult_ok done
  rw [passed, failures, List.isEmpty_iff, List.append_eq_nil_iff, List.append_eq_nil_iff,
    errorFailures_eq_ok_nil_iff told, matchFailures_eq_nil_iff, flatten_eq_nil_iff each, and_assoc]

end Verdict

namespace Suite

def matched (suite : Suite σ) (entry : Case) (state : State σ) : Except Failure MatchResult × σ :=
  Match.run suite.registry suite.config entry.mode
    (.text (Variables.substitute state.bound entry.expected))
    (.text (Variables.substitute state.bound entry.actual)) state.world

/-- A case gets what it expects: the error, or a completed match as it should be and every
capture. -/
inductive Meets (suite : Suite σ) (entry : Case) (state : State σ) : Prop where
  | error {error : Error} {world : σ} :
      suite.matched entry state = (.error (.reported error), world) →
      entry.expectError = .text error.kind → Meets suite entry state
  | completed {result : MatchResult} {world : σ} :
      suite.matched entry state = (.ok result, world) →
      entry.expectError.isTrue suite.pool = false → result.success = entry.expectMatch →
      (∀ expected ∈ entry.expectCaptures, Verdict.Met suite.pool result.captures expected) →
      Meets suite entry state

private theorem runCase_eq (suite : Suite σ) (entry : Case) (state : State σ) :
    suite.runCase entry state =
      match suite.matched entry state with
      | (.error (.reported error), world) => (.ok (.ofError entry error), ⟨state.bound, world⟩)
      | (.error failure, world) => (.error failure, ⟨state.bound, world⟩)
      | (.ok result, world) =>
          (Verdict.ofResult suite.pool entry result,
            ⟨state.bound.setAll result.captures, world⟩) := rfl

private theorem passed_ofError_iff (entry : Case) (error : Error) :
    (Verdict.ofError entry error).passed = true ↔ entry.expectError = .text error.kind := by
  unfold Verdict.ofError
  cases entry.expectError <;> simp

variable {suite : Suite σ} {entry : Case} {state : State σ}

private theorem runCase_of_reported {error : Error} {world : σ}
    (ended : suite.matched entry state = (.error (.reported error), world)) :
    suite.runCase entry state = (.ok (.ofError entry error), ⟨state.bound, world⟩) := by
  rw [runCase_eq, ended]

private theorem runCase_of_completed {result : MatchResult} {world : σ}
    (completed : suite.matched entry state = (.ok result, world)) :
    suite.runCase entry state = (Verdict.ofResult suite.pool entry result,
      ⟨state.bound.setAll result.captures, world⟩) := by
  rw [runCase_eq, completed]

private theorem passed_iff_meets :
    (∃ verdict next, suite.runCase entry state = (.ok verdict, next) ∧ verdict.passed = true) ↔
      suite.Meets entry state := by
  constructor
  · rintro ⟨verdict, next, ran, passed⟩
    rcases matched : suite.matched entry state with ⟨(failure | result), world⟩
    · cases failure with
      | escaped escape =>
          rw [runCase_eq, matched] at ran
          cases ran
      | reported error =>
          rw [runCase_of_reported matched] at ran
          cases ran
          exact .error matched ((passed_ofError_iff entry error).mp passed)
    · rw [runCase_of_completed matched] at ran
      obtain ⟨done, _⟩ := Prod.mk.inj ran
      obtain ⟨noError, success, each⟩ := (Verdict.passed_iff done).mp passed
      exact .completed matched noError success each
  · intro meets
    cases meets with
    | error matched expected =>
        exact ⟨_, _, runCase_of_reported matched, (passed_ofError_iff entry _).mpr expected⟩
    | @completed result world matched noError success each =>
        have told : Verdict.AllTellable suite.pool entry result.captures :=
          ⟨by simp [noError], fun expected member => (each expected member).tellable⟩
        obtain ⟨verdict, done⟩ := Verdict.ofResult_total_iff.mpr told
        exact ⟨verdict, _, by rw [runCase_of_completed matched, done],
          (Verdict.passed_iff done).mpr ⟨noError, success, each⟩⟩

/-- A case passes exactly when it gets what it expects: the error of its match, or a completed match
that succeeds as expected, without an error expected, and in which every expected capture has been
made with the same value. A wanted value is taken as it is: whatever it looks like, the variables
that are bound in the end are the captures of the match, and nothing is called after it. When the
match is completed there is a verdict unless something cannot be told; a wanted value that cannot be
used has a line like any other failure. The verdict says that the case failed exactly when there are
lines, and when nothing but the value of one capture is wrong, they are the differences of the two
values compared exactly. -/
theorem runCase_verdict (suite : Suite σ) (entry : Case) (state : State σ) :
    ((∃ verdict next, suite.runCase entry state = (.ok verdict, next) ∧ verdict.passed = true) ↔
      suite.Meets entry state) ∧
    (∀ error world, suite.matched entry state = (.error (.reported error), world) →
      ∃ verdict, suite.runCase entry state = (.ok verdict, ⟨state.bound, world⟩)) ∧
    ∀ result world, suite.matched entry state = (.ok result, world) →
      (suite.runCase entry state).2 = ⟨state.bound.setAll result.captures, world⟩ ∧
      ((∃ verdict, (suite.runCase entry state).1 = .ok verdict) ↔
        Verdict.AllTellable suite.pool entry result.captures) ∧
      (∀ verdict, (suite.runCase entry state).1 = .ok verdict →
        (verdict.passed = false ↔ verdict.failures ≠ []) ∧
        ∃ errors lines, Verdict.errorFailures suite.pool entry = .ok errors ∧
          List.Forall₂ (Verdict.CaptureLines suite.pool result.captures) entry.expectCaptures
            lines ∧
          verdict.failures = errors ++ Verdict.matchFailures entry result ++ lines.flatten) ∧
      ∀ before name wanted after found value,
        entry.expectCaptures = before ++ (.text name, wanted) :: after →
        entry.expectError.isTrue suite.pool = false → result.success = entry.expectMatch →
        (∀ other ∈ before ++ after, Verdict.Met suite.pool result.captures other) →
        result.captures.get? name = some found →
        wanted.literal? suite.pool Data.mostWritten = some value →
        ∃ verdict, (suite.runCase entry state).1 = .ok verdict ∧
          verdict.failures = Verdict.comparedLines name value found := by
  refine ⟨passed_iff_meets, fun error world ended => ⟨_, runCase_of_reported ended⟩, ?_⟩
  intro result world completed
  rw [runCase_of_completed completed]
  refine ⟨rfl, Verdict.ofResult_total_iff, fun verdict done => ?_, ?_⟩
  · obtain ⟨errors, lines, told, each, failures, passed⟩ := Verdict.ofResult_ok done
    exact ⟨by simp [passed], errors, lines, told, each, failures⟩
  · intro before name wanted after found value split noError success others captured stands
    have told : Verdict.AllTellable suite.pool entry result.captures := by
      refine ⟨by simp [noError], fun expected member => ?_⟩
      rw [split, List.mem_append, List.mem_cons, or_left_comm, ← List.mem_append] at member
      rcases member with rfl | other
      · exact Verdict.tellable_of_literal? stands
      · exact (others expected other).tellable
    obtain ⟨verdict, done⟩ := Verdict.ofResult_total_iff.mpr told
    obtain ⟨errors, lines, errorTold, each, failures, _⟩ := Verdict.ofResult_ok done
    refine ⟨verdict, done, ?_⟩
    rw [split] at each
    rw [failures, (Verdict.errorFailures_eq_ok_nil_iff errorTold).mpr noError,
      (Verdict.matchFailures_eq_nil_iff entry result).mpr success]
    -- Nothing is left but the lines about the one capture, which has been compared.
    have compared := (Verdict.lines_of_one each others).eq_of_literal? captured stands
    simpa using compared

/-- What looks like a capture or a call stands for itself where it is wanted. -/
example :
    let suite : Suite Nat := ⟨#[], .default,
      ⟨[⟨lit "F", fun calls => (.text (lit "[[M]]"), calls + 1)⟩]⟩, []⟩
    let wanting (wanted : Data) : Case := ⟨lit "plain", lit "[\"[[N]]\"]", lit "[\"[[M]]\"]",
      .exact, true, [(.text (lit "N"), wanted)], .null⟩
    let result : MatchResult := ⟨.exact, [], [(lit "N", .string (lit "[[M]]"))]⟩
    let next : State Nat := ⟨result.captures, 0⟩
    suite.runCase (wanting (.text (lit "[[M]]"))) ⟨[], 0⟩ =
        (.ok ⟨lit "plain", true, some result, none, []⟩, next) ∧
      suite.runCase (wanting (.text (lit "\x7b\x7bF()\x7d\x7d"))) ⟨[], 0⟩ =
        (.ok ⟨lit "plain", false, some result, none, [lit "Capture 'N': $: Value mismatch. " ++
          lit "Expected \"\x7b\x7bF()\x7d\x7d\", got \"[[M]]\"."]⟩, next) := by
  constructor
  · cbv
  · cbv

end Suite

end JsonTemplate
