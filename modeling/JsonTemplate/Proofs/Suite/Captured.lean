import JsonTemplate.Proofs.Comparison.Captures
import JsonTemplate.Proofs.Json.RoundTrip
import JsonTemplate.Proofs.Match.Noninterference
import JsonTemplate.Proofs.Match.PlaceholderFree
import JsonTemplate.Proofs.Suite.Variables
import JsonTemplate.Suite.Run

set_option autoImplicit false

/-!
# Captured strings in later cases

What a case captures is bound until a later case captures the same name. A later template made of
the variable alone is the template that the captured text is: the text itself, unless it is a
placeholder.
-/

namespace JsonTemplate

open Placeholder (isName)
open Registry (Answers Refuses)

variable {σ : Type}

namespace Match

/-- What a match captures goes by names that are different from each other. -/
theorem run_captures {registry : Registry σ} {config : MatchConfig} {mode : Mode}
    {expected actual : Document} {world later : σ} {result : MatchResult}
    (ran : run registry config mode expected actual world = (.ok result, later)) :
    Bindings.Distinct result.captures ∧
      ∀ name ∈ result.captures.map Prod.fst, isName name = true := by
  obtain ⟨wanted, found, assign, _, _, _, _, rfl⟩ := run_ok_answers ran
  rw [compareTrees, Comparison.compare_empty]
  refine ⟨Comparison.distinct_captureAll _ _, fun name member => ?_⟩
  rw [Comparison.map_fst_captureAll, List.mem_eraseDups] at member
  obtain ⟨⟨_, value⟩, captured, rfl⟩ := List.mem_map.mp member
  obtain ⟨place, facing⟩ := Comparison.mem_captures_iff.mp captured
  obtain ⟨text, _, same⟩ := (Template.capture_of_answer facing.leaf).of_map
  unfold Slot.ofText at same
  split at same
  · next scanned =>
      cases same
      exact (Placeholder.scan_eq_some_iff.mp scanned).1
  · cases same
  · cases same

def compareTexts (wanted found : Text) : MatchResult :=
  ⟨.exact, if wanted = found then [] else [⟨[], .value (.string wanted) (.string found)⟩], []⟩

private theorem compareTexts_success {wanted found : Text} :
    (compareTexts wanted found).success = true ↔ found = wanted := by
  rw [MatchResult.success, compareTexts]
  split
  · next same => simp [same]
  · next different => simp [Ne.symm different]

private theorem compareTrees_literal (config : MatchConfig) (wanted found : Text) :
    compareTrees config .exact (.string (.literal wanted)) (.string found) =
      compareTexts wanted found := by
  have leaf : Comparison.findings .exact [] (.string (.literal wanted)) (.string found) =
      if wanted = found then []
      else [.difference ⟨[], .value (.string wanted) (.string found)⟩] := by
    rw [Comparison.findings, Comparison.leafFindings]
    · rfl
    all_goals simp
  rw [compareTrees, Comparison.compare_empty, leaf, compareTexts]
  split <;> rfl

private theorem compareTrees_capture (config : MatchConfig) (name : Text) (found : Json) :
    compareTrees config .exact (.string (.capture name)) found =
      ⟨.exact, [], [(name, found)]⟩ := by
  rw [compareTrees, Comparison.compare_empty, Comparison.findings]
  cases config with
  | mk policy quoteBare => cases policy <;> rfl

theorem resolve_call (registry : Registry σ) (name : Text) (world : σ) :
    Template.resolve registry (.string (.call name)) world =
      ((registry.execute name world).1.map fun value => .string (.literal value),
        ⟨(registry.execute name world).2, 1⟩) := by
  cases ran : registry.execute name world with
  | mk outcome last =>
      have called : Resolve.call registry name ⟨world, 0⟩ =
          (outcome.map Slot.literal, ⟨last, 1⟩) := by
        simp only [Resolve.call, ran]
      rw [Template.resolve_eq registry .string, Resolve.template, Resolve.slot]
      cases outcome with
      | error error => exact Resolve.bind_error called
      | ok value => exact Resolve.bind_ok called

private theorem run_strings (registry : Registry σ) (config : MatchConfig) {expected actual : Text}
    {wanted found : Text} {left right : Option Text}
    (readExpected : Document.read left (.text expected) = .ok (.string wanted))
    (readActual : Document.read right (.text actual) = .ok (.string found)) (world : σ) :
    run registry config .exact (.text expected) (.text actual) world =
      match Placeholder.scan wanted with
      | none => (.ok (compareTexts wanted found), world)
      | some (.capture name) => (.ok ⟨.exact, [], [(name, .string found)]⟩, world)
      | some (.call name) =>
          match registry.execute name world with
          | (.error error, last) => (.error (.reported error), last)
          | (.ok value, last) => (.ok (compareTexts value found), last) := by
  obtain ⟨_, ran⟩ := run_of_read registry .exact world (read_prepare config readExpected _)
    (Document.read_source readActual)
  rw [ran, Template.ofJson, Tree.map, Slot.ofText]
  cases Placeholder.scan wanted with
  | none =>
      have resolved : Template.resolve registry (.string (.literal wanted)) world =
          (.ok (.string (.literal wanted)), ⟨world, 0⟩) :=
        Template.resolve_eq registry .string world
      simp only [resolved, compareTrees_literal]
  | some placeholder =>
      cases placeholder with
      | capture name =>
          have resolved : Template.resolve registry (.string (.capture name)) world =
              (.ok (.string (.capture name)), ⟨world, 0⟩) :=
            Template.resolve_eq registry .string world
          simp only [resolved, compareTrees_capture]
      | call name =>
          simp only [resolve_call]
          cases registry.execute name world with
          | mk outcome last =>
              cases outcome with
              | error error => rfl
              | ok value => simp only [Except.map, compareTrees_literal]

end Match

namespace Verdict

/-- The verdict on a completed match when nothing is expected but that it succeeds. -/
theorem ofResult_plain (pool : Data.Pool) {entry : Case} (wanted : entry.expectMatch = true)
    (noCaptures : entry.expectCaptures = []) (noError : entry.expectError = .null)
    (result : MatchResult) :
    ofResult pool entry result = .ok ⟨entry.name, result.success, some result, none,
      result.differences.map Difference.message⟩ := by
  have failures : matchFailures entry result = result.differences.map Difference.message := by
    rw [matchFailures, wanted]
    cases success : result.success with
    | false => rfl
    | true =>
        rw [MatchResult.success, List.isEmpty_iff] at success
        rw [success]
        rfl
  have errors : errorFailures pool entry = .ok [] := by
    rw [errorFailures, noError]
    rfl
  have passed : (result.differences.map Difference.message).isEmpty = result.success :=
    List.isEmpty_map
  rw [ofResult, errors, noCaptures, failures, ← passed]
  simp [bind, Except.bind, pure, Except.pure]

def bind (bound : Bindings Json) (verdict : Verdict) : Bindings Json :=
  match verdict.result with
  | some result => bound.setAll result.captures
  | none => bound

end Verdict

namespace Suite

def CapturesNamed (verdict : Verdict) : Prop :=
  ∀ result, verdict.result = some result → Bindings.Distinct result.captures ∧
    ∀ name ∈ result.captures.map Prod.fst, isName name = true

theorem ofResult_result {pool : Data.Pool} {entry : Case} {result : MatchResult} {verdict : Verdict}
    (done : Verdict.ofResult pool entry result = .ok verdict) : verdict.result = some result := by
  obtain ⟨errors, _, done⟩ := ok_of_bind done
  obtain ⟨captures, _, done⟩ := ok_of_bind done
  cases done
  rfl

/-- A case that has a verdict binds what its match captured, and nothing else. -/
theorem runCase_ok {suite : Suite σ} {entry : Case} {state next : State σ} {verdict : Verdict}
    (ran : suite.runCase entry state = (.ok verdict, next)) :
    next.bound = verdict.bind state.bound ∧ CapturesNamed verdict := by
  unfold runCase at ran
  dsimp only at ran
  split at ran
  · cases ran
    exact ⟨rfl, nofun⟩
  · cases ran
  · next result world matched =>
      obtain ⟨done, same⟩ := Prod.mk.inj ran
      have kept := ofResult_result done
      subst same
      refine ⟨by rw [Verdict.bind, kept], fun other again => ?_⟩
      rw [kept] at again
      cases again
      exact Match.run_captures matched

/-- The cases of a run bind the captures of their verdicts one after the other. -/
theorem runCases_ok {suite : Suite σ} {cases : List Case} {state final : State σ}
    {verdicts : List Verdict} (ran : suite.runCases cases state = (.ok verdicts, final)) :
    final.bound = verdicts.foldl (fun bound verdict => verdict.bind bound) state.bound ∧
      ∀ verdict ∈ verdicts, CapturesNamed verdict := by
  induction cases generalizing state verdicts with
  | nil =>
      cases ran
      exact ⟨rfl, nofun⟩
  | cons entry rest ih =>
      rw [runCases] at ran
      cases first : suite.runCase entry state with
      | mk outcome between =>
          rw [first] at ran
          cases outcome with
          | error failure => cases ran
          | ok verdict =>
              cases further : suite.runCases rest between with
              | mk outcome last =>
                  simp only [further] at ran
                  obtain ⟨done, rfl⟩ := Prod.mk.inj ran
                  obtain ⟨others, rfl, rfl⟩ := ok_of_map done
                  obtain ⟨bound, named⟩ := runCase_ok first
                  obtain ⟨later, each⟩ := ih further
                  refine ⟨?_, ?_⟩
                  · rw [later, bound, List.foldl_cons]
                  · exact List.forall_mem_cons.mpr ⟨named, each⟩

theorem bind_of_captured {verdict : Verdict} {result : MatchResult} {bound : Bindings Json}
    {name : Text} {value : Json} (named : CapturesNamed verdict)
    (completed : verdict.result = some result) (captured : result.captures.get? name = some value) :
    (verdict.bind bound).get? name = some value := by
  rw [Verdict.bind, completed, Bindings.get?, (named result completed).1.lookup_setAll]
  rw [Bindings.get?] at captured
  rw [captured, Option.some_or]

theorem bind_of_not_captured {verdict : Verdict} {bound : Bindings Json} {name : Text}
    (named : CapturesNamed verdict)
    (kept : ∀ result, verdict.result = some result → result.captures.get? name = none) :
    (verdict.bind bound).get? name = bound.get? name := by
  cases completed : verdict.result with
  | none => rw [Verdict.bind, completed]
  | some result =>
      have absent := kept result completed
      rw [Bindings.get?] at absent
      rw [Verdict.bind, completed, Bindings.get?, (named result completed).1.lookup_setAll, absent,
        Option.none_or]
      rfl

/-- A captured value is bound to its name until a later case captures that name. -/
theorem bound_of_captured {suite : Suite σ} {cases : List Case} {state final : State σ}
    {before after : List Verdict} {verdict : Verdict} {result : MatchResult} {name : Text}
    {value : Json} (ran : suite.runCases cases state = (.ok (before ++ verdict :: after), final))
    (completed : verdict.result = some result) (captured : result.captures.get? name = some value)
    (kept : ∀ later ∈ after, ∀ other, later.result = some other →
      other.captures.get? name = none) :
    final.bound.get? name = some value ∧ isName name = true := by
  obtain ⟨bound, named⟩ := runCases_ok ran
  have here : CapturesNamed verdict := named verdict (by simp)
  have listed := List.mem_map_of_mem (f := Prod.fst) (mem_of_lookup_eq_some captured)
  refine ⟨?_, (here result completed).2 name listed⟩
  rw [bound, List.foldl_append, List.foldl_cons]
  have start : (verdict.bind (before.foldl (fun bound verdict => verdict.bind bound)
      state.bound)).get? name = some value := bind_of_captured here completed captured
  have others : ∀ later ∈ after, CapturesNamed later :=
    fun later member => named later (by simp [member])
  clear bound named ran
  generalize verdict.bind _ = current at start
  induction after generalizing current with
  | nil => exact start
  | cons later rest ih =>
      rw [List.foldl_cons]
      refine ih (fun other member => kept other (List.mem_cons_of_mem later member))
        (fun other member => others other (List.mem_cons_of_mem later member)) _ ?_
      rw [bind_of_not_captured (others later List.mem_cons_self) (kept later List.mem_cons_self)]
      exact start

/-! ## A variable in quotes -/

def quotedVariable (label name actual : Text) : Case :=
  ⟨label, .scalar '"' :: (Variables.spelling name ++ [.scalar '"']), actual, .exact, true, [],
    .null⟩

private theorem substitute_quotedVariable {bound : Bindings Json} {name text : Text}
    (named : isName name = true) (found : bound.get? name = some (.string text)) :
    Variables.substitute bound (.scalar '"' :: (Variables.spelling name ++ [.scalar '"'])) =
      Json.quote text := by
  have value : Variables.inserting bound name = Json.escape text := by
    rw [Variables.inserting, found]
    rfl
  rw [Variables.substitute_eq_replace, Variables.replace_cons (by decide),
    Variables.replace_variable named, Variables.replace_cons (by decide), Variables.replace_nil,
    value]
  rfl

private theorem read_literal {literal text : Text} (spelled : Json.StringLiteral literal text)
    (source : Option Text) : Document.read source (.text literal) = .ok (.string text) :=
  ((Json.Scalar.string spelled).spells Json.deepest).whole.read source

/-- Whatever is expected of a match but that it succeeds is met. -/
def plainVerdict (label : Text) (result : MatchResult) : Verdict :=
  ⟨label, result.success, some result, none, result.differences.map Difference.message⟩

private theorem runCase_quotedVariable (suite : Suite σ) {state : State σ} (label : Text)
    {name text literal found : Text} (named : isName name = true)
    (bound : state.bound.get? name = some (.string text))
    (spelled : Json.StringLiteral literal found)
    (plain : ∀ other, ¬ Variables.Mentions literal other) :
    suite.runCase (quotedVariable label name literal) state =
      match Placeholder.scan text with
      | none => (.ok (plainVerdict label (Match.compareTexts text found)), state)
      | some (.capture other) =>
          (.ok (plainVerdict label ⟨.exact, [], [(other, .string found)]⟩),
            ⟨state.bound.set other (.string found), state.world⟩)
      | some (.call function) =>
          match suite.registry.execute function state.world with
          | (.error error, last) =>
              (.ok (.ofError (quotedVariable label name literal) error), ⟨state.bound, last⟩)
          | (.ok value, last) =>
              (.ok (plainVerdict label (Match.compareTexts value found)), ⟨state.bound, last⟩) := by
  have copied : Variables.substitute state.bound literal = literal := by
    rw [Variables.substitute_eq_replace]
    exact Variables.replace_eq_self fun other mentions => absurd mentions (plain other)
  have verdicts : ∀ result, Verdict.ofResult suite.pool (quotedVariable label name literal) result =
      .ok (plainVerdict label result) := fun result => Verdict.ofResult_plain _ rfl rfl rfl result
  have ran := Match.run_strings suite.registry suite.config
    (read_literal (Json.quote_literal text) none) (read_literal spelled none) state.world
  have inserted : Variables.substitute state.bound (quotedVariable label name literal).expected =
      Json.quote text := substitute_quotedVariable named bound
  have actual : (quotedVariable label name literal).actual = literal := rfl
  have mode : (quotedVariable label name literal).mode = .exact := rfl
  rw [runCase]
  simp only [inserted, actual, mode, copied, ran, verdicts]
  cases Placeholder.scan text with
  | none => rfl
  | some placeholder =>
      cases placeholder with
      | capture other => rfl
      | call function =>
          simp only
          cases suite.registry.execute function state.world with
          | mk outcome last => cases outcome <;> rfl

/-- A captured string that is no placeholder is compared literally by a later case made of its
variable in quotes: the case passes exactly if the document is that string, and nothing is called or
captured, whatever functions there are. A captured string that is a placeholder acts as one: a
capture takes any string, and a call is carried out. -/
theorem captured_string_in_later_case {suite : Suite σ} {earlier : List Case} {world : σ}
    {state : State σ} {before after : List Verdict} {verdict : Verdict} {result : MatchResult}
    (label : Text) {name text found literal : Text}
    (ran : suite.runCases earlier ⟨[], world⟩ = (.ok (before ++ verdict :: after), state))
    (completed : verdict.result = some result)
    (captured : result.captures.get? name = some (.string text))
    (kept : ∀ later ∈ after, ∀ other, later.result = some other → other.captures.get? name = none)
    (spelled : Json.StringLiteral literal found)
    (plain : ∀ other, ¬ Variables.Mentions literal other) :
    let later := quotedVariable label name literal
    let withFunctions := fun registry : Registry σ =>
      (⟨suite.pool, suite.config, registry, suite.cases⟩ : Suite σ)
    match Placeholder.scan text with
    | none => ∃ verdict,
        (∀ registry, (withFunctions registry).runCase later state = (.ok verdict, state)) ∧
        (verdict.passed = true ↔ found = text) ∧
        verdict.result.map MatchResult.captures = some []
    | some (.capture other) => ∃ verdict,
        (∀ registry, (withFunctions registry).runCase later state =
          (.ok verdict, ⟨state.bound.set other (.string found), state.world⟩)) ∧
        verdict.passed = true ∧
        verdict.result.map MatchResult.captures = some [(other, .string found)]
    | some (.call function) =>
        (∃ value last verdict, Answers suite.registry state.world [function] [value] last ∧
          suite.runCase later state = (.ok verdict, ⟨state.bound, last⟩) ∧
          (verdict.passed = true ↔ found = value) ∧
          verdict.result.map MatchResult.captures = some []) ∨
        ∃ error last verdict, Refuses suite.registry function state.world error last ∧
          suite.runCase later state = (.ok verdict, ⟨state.bound, last⟩) ∧
          verdict.passed = false ∧ verdict.result = none := by
  obtain ⟨bound, named⟩ := bound_of_captured ran completed captured kept
  intro later withFunctions
  have runs : ∀ suite : Suite σ, suite.runCase later state = _ := fun suite =>
    runCase_quotedVariable suite label named bound spelled plain
  cases scanned : Placeholder.scan text with
  | none =>
      simp only [scanned] at runs
      exact ⟨plainVerdict label (Match.compareTexts text found), fun registry => runs _,
        Match.compareTexts_success, rfl⟩
  | some placeholder =>
      cases placeholder with
      | capture other =>
          simp only [scanned] at runs
          exact ⟨_, fun registry => runs _, rfl, rfl⟩
      | call function =>
          simp only [scanned] at runs
          rcases suite.registry.execute_cases function state.world with
            ⟨value, last, answered, called⟩ | ⟨error, last, refused, called⟩
          · refine .inl ⟨value, last, plainVerdict label (Match.compareTexts value found), answered,
              ?_, Match.compareTexts_success, rfl⟩
            rw [runs, called]
          · refine .inr ⟨error, last, .ofError later error, refused, ?_, rfl, rfl⟩
            rw [runs, called]

def capturing (literal : Text) : Case :=
  ⟨lit "first", lit "\"[[NAME]]\"", literal, .exact, true, [], .null⟩

/-- The captured string begins like a placeholder, and is none. -/
theorem captured_string_in_later_case_open :
    let suite : Suite Unit := ⟨#[], .default, .empty, []⟩
    let later := quotedVariable (lit "later") (lit "NAME") (lit "\"[[X\"")
    ∃ captured verdict state, suite.runCases [capturing (lit "\"[[X\"")] ⟨[], ()⟩ =
        (.ok [captured], state) ∧
      captured.result.map MatchResult.captures = some [(lit "NAME", .string (lit "[[X"))] ∧
      suite.runCase later state = (.ok verdict, state) ∧ verdict.passed = true ∧
      verdict.result.map MatchResult.captures = some [] := by
  intro suite later
  let result : MatchResult := ⟨.exact, [], [(lit "NAME", .string (lit "[[X"))]⟩
  let captured : Verdict := ⟨lit "first", true, some result, none, []⟩
  let state : State Unit := ⟨[(lit "NAME", .string (lit "[[X"))], ()⟩
  have ran : suite.runCases [capturing (lit "\"[[X\"")] ⟨[], ()⟩ =
      (.ok ([] ++ captured :: []), state) := by
    cbv
  have bound : result.captures.get? (lit "NAME") = some (.string (lit "[[X")) := rfl
  have spelled : Json.StringLiteral (lit "\"[[X\"") (lit "[[X") := Json.quote_literal (lit "[[X")
  obtain ⟨verdict, runs, passes, nothing⟩ := captured_string_in_later_case (lit "later") ran rfl
    bound (List.forall_mem_nil _) spelled (Variables.not_mentions (by decide))
  exact ⟨captured, verdict, state, ran, rfl, runs .empty, passes.mpr rfl, nothing⟩

/-- The captured string is a capture itself, and takes another string. -/
theorem captured_capture_takes_other :
    let suite : Suite Unit := ⟨#[], .default, .empty, []⟩
    let later := quotedVariable (lit "later") (lit "NAME") (lit "\"other\"")
    ∃ captured verdict state last, suite.runCases [capturing (lit "\"[[X]]\"")] ⟨[], ()⟩ =
        (.ok [captured], state) ∧
      captured.result.map MatchResult.captures = some [(lit "NAME", .string (lit "[[X]]"))] ∧
      Json.StringLiteral (lit "\"other\"") (lit "other") ∧
      (∀ name, ¬ Variables.Mentions (lit "\"other\"") name) ∧
      suite.runCase later state = (.ok verdict, last) ∧
      ¬ (verdict.passed = true ↔ lit "other" = lit "[[X]]") ∧
      verdict.result.map MatchResult.captures ≠ some [] := by
  intro suite later
  let result : MatchResult := ⟨.exact, [], [(lit "NAME", .string (lit "[[X]]"))]⟩
  let other : MatchResult := ⟨.exact, [], [(lit "X", .string (lit "other"))]⟩
  have ran : suite.runCases [capturing (lit "\"[[X]]\"")] ⟨[], ()⟩ =
      (.ok [⟨lit "first", true, some result, none, []⟩],
        ⟨[(lit "NAME", .string (lit "[[X]]"))], ()⟩) := by
    cbv
  have further : suite.runCase later ⟨[(lit "NAME", .string (lit "[[X]]"))], ()⟩ =
      (.ok ⟨lit "later", true, some other, none, []⟩,
        ⟨[(lit "NAME", .string (lit "[[X]]")), (lit "X", .string (lit "other"))], ()⟩) := by
    cbv
  refine ⟨_, _, _, _, ran, rfl, Json.quote_literal (lit "other"),
    Variables.not_mentions (by decide), further, ?_,
    fun same => by cases same⟩
  intro passes
  exact absurd (passes.mp rfl) (by decide)

end Suite

end JsonTemplate
