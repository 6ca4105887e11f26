import JsonTemplate.Proofs.Suite.Run

set_option autoImplicit false

/-!
# Independent cases

A case looks at the variables only where its texts spell them. Two cases of which neither captures
what the other spells give the same in either order when the functions are constant.
-/

namespace JsonTemplate

variable {σ : Type}

def Case.Reads (entry : Case) (name : Text) : Prop :=
  Variables.Mentions entry.expected name ∨ Variables.Mentions entry.actual name

namespace Bindings

variable {α : Type}

private theorem Distinct.get?_setAll {added : Bindings α} (distinct : Distinct added)
    (bindings : Bindings α) (name : Text) :
    (setAll bindings added).get? name = (added.get? name).or (bindings.get? name) :=
  distinct.lookup_setAll bindings name

private theorem get?_eq_none_iff {bindings : Bindings α} {name : Text} :
    bindings.get? name = none ↔ name ∉ bindings.map Prod.fst :=
  lookup_eq_none_iff_not_mem

end Bindings

namespace Suite

def Captures (suite : Suite σ) (entry : Case) (state : State σ) (name : Text) : Prop :=
  ∃ result world, Match.run suite.registry suite.config entry.mode
      (.text (Variables.substitute state.bound entry.expected))
      (.text (Variables.substitute state.bound entry.actual)) state.world = (.ok result, world) ∧
    name ∈ result.captures.map Prod.fst

/-- What a case gives and captures in every state that agrees with this one on what it spells. -/
structure Settled (suite : Suite σ) (entry : Case) (state : State σ)
    (outcome : Except Failure Verdict) (captures : Bindings Json) : Prop where
  distinct : Bindings.Distinct captures
  runs : ∀ other : State σ,
    (∀ name, entry.Reads name → other.bound.get? name = state.bound.get? name) →
    ∃ last, suite.runCase entry other = (outcome, ⟨other.bound.setAll captures, last⟩)
  captured : ∀ other : State σ,
    (∀ name, entry.Reads name → other.bound.get? name = state.bound.get? name) →
    ∀ name, suite.Captures entry other name ↔ name ∈ captures.map Prod.fst

private theorem exists_settled {suite : Suite σ} (constant : ∀ name, suite.registry.ConstantAt name)
    (entry : Case) (state : State σ) :
    ∃ outcome captures, suite.Settled entry state outcome captures := by
  obtain ⟨matched, steady⟩ := @Match.run_steady σ suite.registry suite.config
    (.text (Variables.substitute state.bound entry.expected)) (fun name _ => constant name)
    entry.mode (.text (Variables.substitute state.bound entry.actual))
  have texts : ∀ other : State σ,
      (∀ name, entry.Reads name → other.bound.get? name = state.bound.get? name) →
      Variables.substitute other.bound entry.expected =
          Variables.substitute state.bound entry.expected ∧
        Variables.substitute other.bound entry.actual =
          Variables.substitute state.bound entry.actual :=
    fun other same =>
      ⟨Variables.substitute_congr fun name mentions => same name (.inl mentions),
        Variables.substitute_congr fun name mentions => same name (.inr mentions)⟩
  cases matched with
  | ok result =>
      obtain ⟨_, here⟩ := steady state.world
      refine ⟨Verdict.ofResult suite.pool entry result, result.captures,
        (Match.run_captures here).1, ?_, ?_⟩
      · intro other same
        obtain ⟨last, ran⟩ := steady other.world
        exact ⟨last, by simp [runCase, texts other same, ran]⟩
      · intro other same name
        obtain ⟨last, ran⟩ := steady other.world
        simp [Captures, texts other same, ran]
  | error failure =>
      have aborted : ∀ other : State σ, (∀ name, entry.Reads name →
          other.bound.get? name = state.bound.get? name) →
          ∀ name, suite.Captures entry other name ↔ name ∈ ([] : Bindings Json).map Prod.fst := by
        intro other same name
        obtain ⟨last, ran⟩ := steady other.world
        simp [Captures, texts other same, ran]
      cases failure with
      | reported error =>
          refine ⟨.ok (.ofError entry error), [], List.nodup_nil, fun other same => ?_, aborted⟩
          obtain ⟨last, ran⟩ := steady other.world
          exact ⟨last, by simp [runCase, texts other same, ran, Bindings.setAll]⟩
      | escaped escape =>
          refine ⟨.error (.escaped escape), [], List.nodup_nil, fun other same => ?_, aborted⟩
          obtain ⟨last, ran⟩ := steady other.world
          exact ⟨last, by simp [runCase, texts other same, ran, Bindings.setAll]⟩

/-- Names that are bound to captures do not matter to a case that does not spell them. -/
theorem get?_setAll_of_apart {entry : Case} {captures : Bindings Json}
    (distinct : Bindings.Distinct captures)
    (apart : ∀ name ∈ captures.map Prod.fst, ¬ entry.Reads name) (bound : Bindings Json) :
    ∀ name, entry.Reads name → (bound.setAll captures).get? name = bound.get? name := by
  intro name reads
  have absent : captures.get? name = none :=
    Bindings.get?_eq_none_iff.mpr fun member => apart name member reads
  simp [distinct.get?_setAll, absent]

/-- A case looks at the variables only at the names that its texts spell: states that agree there
give it the same outcome and the same captures. So two cases of which neither captures a name that
the other spells give the same outcomes in either order, and if they capture no name in common, the
same variables are bound in the end. The functions have to be constant, but their failures count as
much as their texts. -/
theorem runCase_independent {suite : Suite σ} (constant : ∀ name, suite.registry.ConstantAt name)
    {state : State σ} {first second : Case}
    (firstApart : ∀ name, suite.Captures first state name → ¬ second.Reads name)
    (secondApart : ∀ name, suite.Captures second state name → ¬ first.Reads name) :
    (∀ entry (left right : State σ),
      (∀ name, entry.Reads name → left.bound.get? name = right.bound.get? name) →
      (suite.runCase entry left).1 = (suite.runCase entry right).1 ∧
        ∀ name, suite.Captures entry left name ↔ suite.Captures entry right name) ∧
    ∃ firstOutcome secondOutcome afterFirst afterSecond last other,
      suite.runCase first state = (firstOutcome, afterFirst) ∧
      suite.runCase second afterFirst = (secondOutcome, last) ∧
      suite.runCase second state = (secondOutcome, afterSecond) ∧
      suite.runCase first afterSecond = (firstOutcome, other) ∧
      (∀ firstVerdict secondVerdict, firstOutcome = .ok firstVerdict →
        secondOutcome = .ok secondVerdict →
        suite.runCases [first, second] state = (.ok [firstVerdict, secondVerdict], last) ∧
        suite.runCases [second, first] state = (.ok [secondVerdict, firstVerdict], other)) ∧
      ((∀ name, suite.Captures first state name → ¬ suite.Captures second state name) →
        ∀ name, last.bound.get? name = other.bound.get? name) := by
  constructor
  · intro entry left right same
    obtain ⟨outcome, captures, settled⟩ := exists_settled constant entry right
    obtain ⟨_, leftRan⟩ := settled.runs left same
    obtain ⟨_, rightRan⟩ := settled.runs right fun _ _ => rfl
    refine ⟨by rw [leftRan, rightRan], fun name => ?_⟩
    rw [settled.captured left same, settled.captured right fun _ _ => rfl]
  obtain ⟨firstOutcome, firstCaptures, firstSettled⟩ := exists_settled constant first state
  obtain ⟨secondOutcome, secondCaptures, secondSettled⟩ := exists_settled constant second state
  have firstNames := firstSettled.captured state fun _ _ => rfl
  have secondNames := secondSettled.captured state fun _ _ => rfl
  have firstUnread := get?_setAll_of_apart firstSettled.distinct
    (fun name member => firstApart name ((firstNames name).mpr member)) state.bound
  have secondUnread := get?_setAll_of_apart secondSettled.distinct
    (fun name member => secondApart name ((secondNames name).mpr member)) state.bound
  obtain ⟨firstWorld, firstRan⟩ := firstSettled.runs state fun _ _ => rfl
  obtain ⟨lastWorld, secondAfter⟩ :=
    secondSettled.runs ⟨state.bound.setAll firstCaptures, firstWorld⟩ firstUnread
  obtain ⟨secondWorld, secondRan⟩ := secondSettled.runs state fun _ _ => rfl
  obtain ⟨otherWorld, firstAfter⟩ :=
    firstSettled.runs ⟨state.bound.setAll secondCaptures, secondWorld⟩ secondUnread
  refine ⟨_, _, _, _, _, _, firstRan, secondAfter, secondRan, firstAfter, ?_, ?_⟩
  · rintro firstVerdict secondVerdict rfl rfl
    exact ⟨runCases_cons firstRan (runCases_cons secondAfter rfl),
      runCases_cons secondRan (runCases_cons firstAfter rfl)⟩
  · intro apart name
    simp only [firstSettled.distinct.get?_setAll, secondSettled.distinct.get?_setAll]
    by_cases member : name ∈ firstCaptures.map Prod.fst
    · have absent : secondCaptures.get? name = none :=
        Bindings.get?_eq_none_iff.mpr fun other =>
          apart name ((firstNames name).mpr member) ((secondNames name).mpr other)
      simp [absent]
    · have absent : firstCaptures.get? name = none := Bindings.get?_eq_none_iff.mpr member
      simp [absent]

/-- One case puts in what it finds bound, the other calls a function; each captures. -/
theorem runCase_independent_captures :
    let suite : Suite Nat := ⟨#[], .default,
      ⟨[⟨lit "F", fun count => (.text (lit "y"), count + 1)⟩]⟩, []⟩
    let first : Case := ⟨lit "first", lit "[\"[[N]]\"]", lit "[\"\x7b\x7bM\x7d\x7d\"]",
      .exact, true, [], .null⟩
    let second : Case := ⟨lit "second", lit "[\"\x7b\x7bF()\x7d\x7d\", \"[[P]]\"]",
      lit "[\"y\", null]", .exact, true, [], .null⟩
    let state : State Nat := ⟨[(lit "M", .string (lit "x"))], 0⟩
    (suite.Captures first state (lit "N") ∧ suite.Captures second state (lit "P")) ∧
      ∃ firstOutcome secondOutcome afterFirst afterSecond last other,
        suite.runCase first state = (firstOutcome, afterFirst) ∧
        suite.runCase second afterFirst = (secondOutcome, last) ∧
        suite.runCase second state = (secondOutcome, afterSecond) ∧
        suite.runCase first afterSecond = (firstOutcome, other) ∧
        ∀ name, last.bound.get? name = other.bound.get? name := by
  intro suite first second state
  have constant : ∀ name, suite.registry.ConstantAt name := by
    intro name action found
    obtain ⟨entry, listed, rfl⟩ := Option.map_eq_some_iff.mp found
    cases List.mem_singleton.mp (List.mem_of_find?_eq_some listed)
    exact ⟨.text (lit "y"), fun _ => rfl⟩
  have firstRan : Match.run suite.registry suite.config first.mode
      (.text (Variables.substitute state.bound first.expected))
      (.text (Variables.substitute state.bound first.actual)) state.world =
      (.ok ⟨.exact, [], [(lit "N", .string (lit "x"))]⟩, 0) := by
    cbv
  have secondRan : Match.run suite.registry suite.config second.mode
      (.text (Variables.substitute state.bound second.expected))
      (.text (Variables.substitute state.bound second.actual)) state.world =
      (.ok ⟨.exact, [], [(lit "P", .null)]⟩, 1) := by
    cbv
  have firstNames : ∀ name, suite.Captures first state name ↔ name = lit "N" := by
    simp [Captures, firstRan]
  have secondNames : ∀ name, suite.Captures second state name ↔ name = lit "P" := by
    simp [Captures, secondRan]
  have firstApart : ∀ name, suite.Captures first state name → ¬ second.Reads name := by
    intro name captured
    rw [(firstNames name).mp captured, Case.Reads, Variables.Mentions, Variables.Mentions]
    decide
  have secondApart : ∀ name, suite.Captures second state name → ¬ first.Reads name := by
    intro name captured
    rw [(secondNames name).mp captured, Case.Reads, Variables.Mentions, Variables.Mentions]
    decide
  obtain ⟨_, _, _, _, _, _, _, firstDone, secondAfter, secondDone, firstAfter, _, same⟩ :=
    runCase_independent constant firstApart secondApart
  refine ⟨⟨(firstNames _).mpr rfl, (secondNames _).mpr rfl⟩, _, _, _, _, _, _, firstDone,
    secondAfter, secondDone, firstAfter, same fun name captured other => ?_⟩
  have both := ((firstNames name).mp captured).symm.trans ((secondNames name).mp other)
  exact absurd both (by decide)

end Suite

end JsonTemplate
