import JsonTemplate.Proofs.Suite.Captured
import JsonTemplate.Proofs.Suite.Constants

set_option autoImplicit false

/-!
# Runs of a suite

A run has one verdict for every case. What a case finds bound are the last captures of the cases
before it in the same run, and a case that ends with an error binds nothing. A run whose functions
are constant comes out the same again.
-/

namespace JsonTemplate

variable {σ : Type}

namespace Suite

/-! ## What a case does -/

/-- How a case is carried out with the variables of a state. -/
inductive Evaluates (suite : Suite σ) (entry : Case) (state : State σ) :
    Verdict → State σ → Prop where
  | completed {result : MatchResult} {verdict : Verdict} {world : σ} :
      Match.run suite.registry suite.config entry.mode
        (.text (Variables.substitute state.bound entry.expected))
        (.text (Variables.substitute state.bound entry.actual)) state.world = (.ok result, world) →
      Verdict.ofResult suite.pool entry result = .ok verdict →
      Evaluates suite entry state verdict ⟨state.bound.setAll result.captures, world⟩
  | aborted {error : Error} {world : σ} :
      Match.run suite.registry suite.config entry.mode
        (.text (Variables.substitute state.bound entry.expected))
        (.text (Variables.substitute state.bound entry.actual)) state.world =
          (.error (.reported error), world) →
      Evaluates suite entry state (.ofError entry error) ⟨state.bound, world⟩

private theorem evaluates_of_runCase {suite : Suite σ} {entry : Case} {state next : State σ}
    {verdict : Verdict} (ran : suite.runCase entry state = (.ok verdict, next)) :
    suite.Evaluates entry state verdict next := by
  unfold runCase at ran
  dsimp only at ran
  split at ran
  · next matched =>
      cases ran
      exact .aborted matched
  · cases ran
  · next matched =>
      obtain ⟨done, rfl⟩ := Prod.mk.inj ran
      exact .completed matched done

private theorem ofResult_name {pool : Data.Pool} {entry : Case} {result : MatchResult}
    {verdict : Verdict}
    (done : Verdict.ofResult pool entry result = .ok verdict) : verdict.name = entry.name := by
  obtain ⟨errors, _, done⟩ := ok_of_bind done
  obtain ⟨captures, _, done⟩ := ok_of_bind done
  cases done
  rfl

private theorem Evaluates.name_eq {suite : Suite σ} {entry : Case} {state next : State σ}
    {verdict : Verdict} (evaluated : suite.Evaluates entry state verdict next) :
    verdict.name = entry.name := by
  cases evaluated with
  | completed _ done => exact ofResult_name done
  | aborted _ => rfl

/-- A case without a result leaves the variables as they are, whatever it expects. -/
theorem Evaluates.bound_eq {suite : Suite σ} {entry : Case} {state next : State σ}
    {verdict : Verdict} (evaluated : suite.Evaluates entry state verdict next)
    (aborted : verdict.result = none) : next.bound = state.bound := by
  cases evaluated with
  | completed _ done =>
      rw [ofResult_result done] at aborted
      cases aborted
  | aborted _ => rfl

/-! ## The cases before and after a case -/

private theorem runCases_cons_ok {suite : Suite σ} {entry : Case} {rest : List Case}
    {state final : State σ} {verdicts : List Verdict}
    (ran : suite.runCases (entry :: rest) state = (.ok verdicts, final)) :
    ∃ verdict between later, verdicts = verdict :: later ∧
      suite.runCase entry state = (.ok verdict, between) ∧
      suite.runCases rest between = (.ok later, final) := by
  rw [runCases] at ran
  rcases first : suite.runCase entry state with ⟨outcome, between⟩
  rw [first] at ran
  cases outcome with
  | error failure => cases ran
  | ok verdict =>
      rcases further : suite.runCases rest between with ⟨others, last⟩
      simp only [further] at ran
      obtain ⟨done, rfl⟩ := Prod.mk.inj ran
      obtain ⟨later, rfl, rfl⟩ := ok_of_map done
      exact ⟨verdict, between, later, rfl, rfl, further⟩

theorem runCases_cons {suite : Suite σ} {entry : Case} {rest : List Case}
    {state between final : State σ} {verdict : Verdict} {later : List Verdict}
    (first : suite.runCase entry state = (.ok verdict, between))
    (others : suite.runCases rest between = (.ok later, final)) :
    suite.runCases (entry :: rest) state = (.ok (verdict :: later), final) := by
  simp only [runCases, first, others]
  rfl

private theorem runCases_append_ok {suite : Suite σ} {before after : List Case}
    {state final : State σ}
    {verdicts : List Verdict}
    (ran : suite.runCases (before ++ after) state = (.ok verdicts, final)) :
    ∃ earlier between later, verdicts = earlier ++ later ∧
      suite.runCases before state = (.ok earlier, between) ∧
      suite.runCases after between = (.ok later, final) := by
  induction before generalizing state verdicts with
  | nil => exact ⟨[], state, verdicts, rfl, rfl, ran⟩
  | cons entry rest ih =>
      obtain ⟨verdict, next, others, rfl, first, further⟩ := runCases_cons_ok ran
      obtain ⟨earlier, between, later, rfl, front, back⟩ := ih further
      exact ⟨verdict :: earlier, between, later, rfl, runCases_cons first front, back⟩

private theorem runCases_names {suite : Suite σ} {cases : List Case} {state final : State σ}
    {verdicts : List Verdict} (ran : suite.runCases cases state = (.ok verdicts, final)) :
    verdicts.map Verdict.name = cases.map Case.name := by
  induction cases generalizing state verdicts with
  | nil =>
      cases ran
      rfl
  | cons entry rest ih =>
      obtain ⟨verdict, next, others, rfl, first, further⟩ := runCases_cons_ok ran
      rw [List.map_cons, List.map_cons, (evaluates_of_runCase first).name_eq, ih further]

private theorem length_of_runCases {suite : Suite σ} {cases : List Case} {state final : State σ}
    {verdicts : List Verdict} (ran : suite.runCases cases state = (.ok verdicts, final)) :
    verdicts.length = cases.length := by
  rw [← List.length_map (f := Verdict.name), runCases_names ran, List.length_map]

/-! ## Variables -/

/-- Of the completed cases that have captured a name, the last has captured this value. -/
def LastCaptured (verdicts : List Verdict) (name : Text) (value : Json) : Prop :=
  ∃ before verdict after result, verdicts = before ++ verdict :: after ∧
    verdict.result = some result ∧ result.captures.get? name = some value ∧
    ∀ later ∈ after, ∀ other, later.result = some other → other.captures.get? name = none

private theorem LastCaptured.snoc {verdicts : List Verdict} {name : Text} {value : Json}
    (captured : LastCaptured verdicts name value) {last : Verdict}
    (kept : ∀ result, last.result = some result → result.captures.get? name = none) :
    LastCaptured (verdicts ++ [last]) name value := by
  obtain ⟨before, verdict, after, result, rfl, completed, found, others⟩ := captured
  refine ⟨before, verdict, after ++ [last], result, by simp, completed, found, ?_⟩
  intro later member
  rcases List.mem_append.mp member with old | new
  · exact others later old
  · cases List.mem_singleton.mp new
    exact kept

private theorem lastCaptured_of_bound {verdicts : List Verdict}
    (named : ∀ verdict ∈ verdicts, CapturesNamed verdict) {name : Text} {value : Json}
    (bound : Bindings.get? (verdicts.foldl (fun bound verdict => verdict.bind bound) []) name =
      some value) : LastCaptured verdicts name value := by
  -- The last verdict decides, if it has captured the name.
  induction verdicts using List.reverseRecOn with
  | nil => cases bound
  | append_singleton rest last ih =>
      have lastNamed : CapturesNamed last := named last (by simp)
      rw [List.foldl_append, List.foldl_cons, List.foldl_nil] at bound
      by_cases captures : ∃ result found, last.result = some result ∧
          result.captures.get? name = some found
      · obtain ⟨result, found, completed, captured⟩ := captures
        cases bound.symm.trans (bind_of_captured lastNamed completed captured)
        exact ⟨rest, last, [], result, rfl, completed, captured, nofun⟩
      · have kept : ∀ result, last.result = some result →
            result.captures.get? name = none := fun result completed =>
          Option.eq_none_iff_forall_ne_some.mpr fun found captured =>
            captures ⟨result, found, completed, captured⟩
        rw [bind_of_not_captured lastNamed kept] at bound
        exact (ih (fun verdict member => named verdict (by simp [member])) bound).snoc kept

/-- What cases leave bound are their last captures. -/
theorem bound_iff_lastCaptured {suite : Suite σ} {cases : List Case} {world : σ} {final : State σ}
    {verdicts : List Verdict} (ran : suite.runCases cases ⟨[], world⟩ = (.ok verdicts, final))
    (name : Text) (value : Json) :
    final.bound.get? name = some value ↔ LastCaptured verdicts name value := by
  constructor
  · intro found
    obtain ⟨bound, named⟩ := runCases_ok ran
    rw [bound] at found
    exact lastCaptured_of_bound named found
  · rintro ⟨before, verdict, after, result, rfl, completed, captured, kept⟩
    exact (bound_of_captured ran completed captured kept).1

/-! ## Running again -/

/-- The names that the templates of cases call, each read with the variables that are bound when
its case has its turn. -/
def Calls (suite : Suite σ) (cases : List Case) (state : State σ) (name : Text) : Prop :=
  ∃ before entry after earlier between, cases = before ++ entry :: after ∧
    suite.runCases before state = (.ok earlier, between) ∧
    Match.Calls suite.config (.text (Variables.substitute between.bound entry.expected)) name

private theorem runCase_steady {suite : Suite σ} {entry : Case} {bound : Bindings Json}
    (constant : ∀ name,
      Match.Calls suite.config (.text (Variables.substitute bound entry.expected)) name →
        suite.registry.ConstantAt name) :
    ∃ outcome later, ∀ world, ∃ last,
      suite.runCase entry ⟨bound, world⟩ = (outcome, ⟨later, last⟩) := by
  obtain ⟨outcome, same⟩ := Match.run_steady constant entry.mode
    (.text (Variables.substitute bound entry.actual))
  cases outcome with
  | ok result =>
      refine ⟨Verdict.ofResult suite.pool entry result, bound.setAll result.captures,
        fun world => ?_⟩
      obtain ⟨last, matched⟩ := same world
      exact ⟨last, by simp only [runCase, matched]⟩
  | error failure =>
      cases failure with
      | reported error =>
          refine ⟨.ok (.ofError entry error), bound, fun world => ?_⟩
          obtain ⟨last, matched⟩ := same world
          exact ⟨last, by simp only [runCase, matched]⟩
      | escaped escape =>
          refine ⟨.error (.escaped escape), bound, fun world => ?_⟩
          obtain ⟨last, matched⟩ := same world
          exact ⟨last, by simp only [runCase, matched]⟩

private theorem runCases_steady {suite : Suite σ} {cases : List Case} {state final : State σ}
    {verdicts : List Verdict} (ran : suite.runCases cases state = (.ok verdicts, final))
    (constant : ∀ name, suite.Calls cases state name → suite.registry.ConstantAt name)
    (world : σ) :
    ∃ last, suite.runCases cases ⟨state.bound, world⟩ = (.ok verdicts, ⟨final.bound, last⟩) := by
  -- The worlds of the two runs drift apart, but not what is bound, so the same names are called.
  induction cases generalizing state verdicts world with
  | nil =>
      cases ran
      exact ⟨world, rfl⟩
  | cons entry rest ih =>
      obtain ⟨verdict, between, others, rfl, first, further⟩ := runCases_cons_ok ran
      obtain ⟨outcome, bound, same⟩ := runCase_steady fun name called =>
        constant name ⟨[], entry, rest, [], state, rfl, rfl, called⟩
      obtain ⟨middle, here⟩ := same state.world
      cases first.symm.trans here
      obtain ⟨next, there⟩ := same world
      have later : ∀ name, suite.Calls rest ⟨bound, middle⟩ name →
          suite.registry.ConstantAt name := by
        rintro name ⟨before, inner, after, earlier, reached, rfl, front, called⟩
        exact constant name ⟨entry :: before, inner, after, verdict :: earlier, reached, rfl,
          runCases_cons first front, called⟩
      obtain ⟨last, done⟩ := ih further later next
      exact ⟨last, runCases_cons there done⟩

/-! ## Reports -/

end Suite

namespace Report

/-- The counts of a report agree with its verdicts. -/
structure Counted (report : Report) : Prop where
  total : report.total = report.verdicts.length
  passed : report.passed = report.verdicts.countP Verdict.passed
  failed : report.failed = report.verdicts.countP (!·.passed)

private theorem counted_empty : empty.Counted := ⟨rfl, rfl, rfl⟩

theorem Counted.add {report : Report} (counted : report.Counted) (verdict : Verdict) :
    (report.add verdict).Counted := by
  obtain ⟨total, passed, failed⟩ := counted
  refine ⟨?_, ?_, ?_⟩
  · simp [Report.add, total]
  · cases fine : verdict.passed <;> simp [Report.add, fine, passed]
  · cases fine : verdict.passed <;> simp [Report.add, fine, failed]

private theorem Counted.addAll {report : Report} (counted : report.Counted)
    (verdicts : List Verdict) :
    (verdicts.foldl Report.add report).Counted := by
  induction verdicts generalizing report with
  | nil => exact counted
  | cons verdict rest ih => exact ih (counted.add verdict)

private theorem verdicts_addAll (report : Report) (verdicts : List Verdict) :
    (verdicts.foldl Report.add report).verdicts = report.verdicts ++ verdicts := by
  induction verdicts generalizing report with
  | nil => simp
  | cons verdict rest ih => simp [ih, Report.add]

theorem Counted.ext {left right : Report} (first : left.Counted) (second : right.Counted)
    (same : left.verdicts = right.verdicts) : left = right := by
  obtain ⟨total, passed, failed⟩ := first
  obtain ⟨otherTotal, otherPassed, otherFailed⟩ := second
  cases left
  cases right
  simp_all

end Report

namespace Suite

private theorem run_ok_iff {suite : Suite σ} {left final : State σ} {report : Report} :
    suite.run left = (.ok report, final) ↔
      report.Counted ∧
        suite.runCases suite.cases ⟨[], left.world⟩ = (.ok report.verdicts, final) := by
  rw [run]
  rcases suite.runCases suite.cases ⟨[], left.world⟩ with ⟨outcome, state⟩
  cases outcome with
  | error failure => simp [Except.map]
  | ok verdicts =>
      have counted := Report.counted_empty.addAll verdicts
      have listed : (verdicts.foldl Report.add .empty).verdicts = verdicts :=
        Report.verdicts_addAll _ verdicts
      constructor
      · intro ran
        cases ran
        exact ⟨counted, by rw [listed]⟩
      · rintro ⟨given, same⟩
        obtain ⟨rfl, rfl⟩ : verdicts = report.verdicts ∧ state = final := by simpa using same
        exact congrArg (fun whole => (Except.ok whole, state)) (counted.ext given listed)

private theorem run_again {suite : Suite σ} {left final : State σ} {report : Report}
    (ran : suite.run left = (.ok report, final))
    (constant : ∀ name, suite.Calls suite.cases ⟨[], left.world⟩ name →
      suite.registry.ConstantAt name)
    (later : State σ) : ∃ last, suite.run later = (.ok report, ⟨final.bound, last⟩) := by
  obtain ⟨counted, ran⟩ := run_ok_iff.mp ran
  obtain ⟨last, done⟩ := runCases_steady ran constant later.world
  exact ⟨last, run_ok_iff.mpr ⟨counted, done⟩⟩

private theorem registry_of_ofData {host : Host σ} {pool : Data.Pool} {data : Data}
    {entries : List (Data × Data)} {suite : Suite σ} (mapping : data.entries? pool = some entries)
    (built : ofData host none pool data = .ok suite) :
    registryOf host pool entries = .ok suite.registry := by
  rw [ofData, mapping] at built
  obtain ⟨config, _, built⟩ := ok_of_bind built
  obtain ⟨registry, made, built⟩ := ok_of_bind built
  obtain ⟨cases, _, built⟩ := ok_of_bind built
  cases built
  exact made

/-- A run of a suite that has a report, whatever variables were left from earlier runs: there is
one verdict for every case, in order, and the counts add up. Every case is carried out with the last
captures of the cases before it and with no other variables; a case that ends with an error binds
nothing, whether or not the error was expected. When the functions called by the templates are
constant, running again gives an equal report and equal variables; the functions of a suite with a
clock of its own are, but for the random identifier. -/
theorem run_report {suite : Suite σ} {left final : State σ} {report : Report}
    (ran : suite.run left = (.ok report, final)) :
    (report.verdicts.map Verdict.name = suite.cases.map Case.name ∧
      report.total = suite.cases.length ∧ report.total = report.passed + report.failed ∧
      report.passed = (report.verdicts.filter Verdict.passed).length) ∧
    (∀ before entry after, suite.cases = before ++ entry :: after →
      ∃ earlier verdict later state next, report.verdicts = earlier ++ verdict :: later ∧
        earlier.length = before.length ∧ later.length = after.length ∧
        suite.runCases before ⟨[], left.world⟩ = (.ok earlier, state) ∧
        (∀ name value, state.bound.get? name = some value ↔ LastCaptured earlier name value) ∧
        suite.Evaluates entry state verdict next ∧
        (verdict.result = none → next.bound = state.bound) ∧
        suite.runCases after next = (.ok later, final)) ∧
    (∀ name value, final.bound.get? name = some value ↔
      LastCaptured report.verdicts name value) ∧
    ((∀ name, suite.Calls suite.cases ⟨[], left.world⟩ name → suite.registry.ConstantAt name) →
      ∀ later, ∃ last, suite.run later = (.ok report, ⟨final.bound, last⟩)) ∧
    ∀ (host : Host σ) pool data entries instant zone, ofData host none pool data = .ok suite →
      data.entries? pool = some entries →
      clockOf pool (Data.lookupD entries (lit "clock")) = .ok (.fixed instant zone) →
      (∀ name, suite.Calls suite.cases ⟨[], left.world⟩ name → ¬ name.Alike (lit "GUID")) →
      ∀ later, ∃ last, suite.run later = (.ok report, ⟨final.bound, last⟩) := by
  obtain ⟨counted, cases⟩ := run_ok_iff.mp ran
  refine ⟨⟨runCases_names cases, counted.total.trans (length_of_runCases cases), ?_,
    counted.passed.trans List.countP_eq_length_filter⟩, ?_, bound_iff_lastCaptured cases,
    run_again ran, ?_⟩
  · have split := List.length_eq_countP_add_countP Verdict.passed (l := report.verdicts)
    rw [counted.total, counted.passed, counted.failed, split]
    simp
  · intro before entry after split
    rw [split] at cases
    obtain ⟨earlier, state, rest, whole, front, back⟩ := runCases_append_ok cases
    obtain ⟨verdict, next, later, rfl, here, further⟩ := runCases_cons_ok back
    have evaluated := evaluates_of_runCase here
    exact ⟨earlier, verdict, later, state, next, whole, length_of_runCases front,
      length_of_runCases further, front, bound_iff_lastCaptured front, evaluated,
      evaluated.bound_eq, further⟩
  · intro host pool data entries instant zone built mapping fixed noIdentifier
    have constant := registryOf_constantBut fixed (registry_of_ofData mapping built)
    refine run_again ran fun name called => ?_
    have unlike := noIdentifier name called
    obtain ⟨_, _, _, _, _, _, _, _, _, listed⟩ := called
    exact constant.constantAt (by decide) (Template.isName_of_mem_calls listed) unlike

/-- A capture, an expected error and the use of what was captured, on a runner where the name is
still bound from before; the world counts the calls. -/
theorem run_report_three_cases :
    let suite : Suite Nat :=
      ⟨#[], ⟨.last, false⟩, ⟨[⟨lit "F", fun calls => (.text [], calls + 1)⟩]⟩,
        [⟨lit "create", lit "[\"[[A]]\",\"\x7b\x7bf()\x7d\x7d\"]", lit "[true,\"\"]", .exact,
            true, [], .null⟩,
          ⟨lit "broken", lit "[", lit "0", .exact, true, [], .text (lit "ParseError")⟩,
          ⟨lit "fetch", lit "\x7b\x7bA\x7d\x7d", lit "true", .exact, true, [], .null⟩]⟩
    let left : State Nat := ⟨[(lit "A", .null), (lit "B", .null)], 4⟩
    let bound : Bindings Json := [(lit "A", .boolean true)]
    ∃ report, suite.run left = (.ok report, ⟨bound, 5⟩) ∧
      report.total = 3 ∧ report.passed = 3 ∧
      LastCaptured report.verdicts (lit "A") (.boolean true) ∧
      ∀ later, ∃ last, suite.run later = (.ok report, ⟨bound, last⟩) := by
  intro suite left bound
  let report : Report :=
    ⟨3, 3, 0, [⟨lit "create", true, some ⟨.exact, [], bound⟩, none, []⟩,
      ⟨lit "broken", true, none,
        some (lit "ParseError: Invalid expected JSON: Expecting value (line 1, column 2)"), []⟩,
      ⟨lit "fetch", true, some ⟨.exact, [], []⟩, none, []⟩]⟩
  have ran : suite.run left = (.ok report, ⟨bound, 5⟩) := by cbv
  have constant : ∀ name, suite.registry.ConstantAt name := by
    intro name action found
    obtain ⟨entry, first, rfl⟩ := Option.map_eq_some_iff.mp found
    cases List.mem_singleton.mp (List.mem_of_find?_eq_some first)
    exact ⟨.text [], fun calls => rfl⟩
  obtain ⟨⟨_, total, _, _⟩, _, captured, again, _⟩ := run_report ran
  exact ⟨report, ran, total, rfl, (captured _ _).mp rfl, again fun name _ => constant name⟩

end Suite

end JsonTemplate
