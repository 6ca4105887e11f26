import JsonTemplate.Suite.Report

set_option autoImplicit false

/-!
# Suites and their runs

A suite is built from loose data in a fixed order, so that of two faults always the
same one is reported. Its cases run one after the other; what one captures, the later
ones can use.
-/

namespace JsonTemplate

/-- A suite ready to run, with the pool of what its cases expect. -/
structure Suite (σ : Type) where
  pool : Data.Pool
  config : MatchConfig
  registry : Registry σ
  cases : List Case

structure Suite.State (σ : Type) where
  bound : Bindings Json
  world : σ

namespace Suite

variable {σ : Type}

/-- The clock of a `clock` block; without one the system's time is used. -/
def clockOf (pool : Data.Pool) (block : Data) : Except Failure Clock :=
  match block with
  | .null => .ok .system
  | .timestamp wall offset => .ok (.ofWallTime wall offset .utc)
  | other => do
      let shown ← shownOf pool other
      (Clock.ofText shown .utc).mapError .reported

def constant (pool : Data.Pool) (value : Data) : Except Failure (Action σ) := do
  let text ← Case.inlineText pool value
  return fun world => (.text text, world)

def addConstants (pool : Data.Pool) (registry : Registry σ) :
    List (Data × Data) → Except Failure (Registry σ)
  | [] => .ok registry
  | (name, value) :: rest => do
      let name ← shownOf pool name
      let action ← constant pool value
      let registry ← (registry.register (.text name) (.action action)).mapError .reported
      addConstants pool registry rest

def registryOf (host : Host σ) (pool : Data.Pool) (entries : List (Data × Data)) :
    Except Failure (Registry σ) := do
  let clock ← clockOf pool (Data.lookupD entries (lit "clock"))
  let registry := Registry.builtins host clock
  let block := Data.lookupD entries (lit "functions")
  if !block.isTrue pool then return registry
  match block.entries? pool with
  | some functions => addConstants pool registry functions
  | none => .error (misshapen .functionsNotMapping)

def casesOf (pool : Data.Pool) (block : Data) : Except Failure (List Case) :=
  if !block.isTrue pool then .ok []
  else
    match block.items? pool with
    | none => .error (misshapen .casesNotList)
    | some items => items.zipIdx.mapM fun (item, index) => Case.ofData pool item index

/-- Build a suite. A registry that is given takes the place of the suite's own clock and
functions, which are then not looked at. -/
def ofData (host : Host σ) (given : Option (Registry σ)) (pool : Data.Pool) (data : Data) :
    Except Failure (Suite σ) :=
  match data.entries? pool with
  | some entries => do
      let config ← settingsOf pool (Data.lookupD entries (lit "config"))
      let registry ← match given with
        | some registry => .ok registry
        | none => registryOf host pool entries
      let cases ← casesOf pool (Data.lookupD entries (lit "cases"))
      return ⟨pool, config, registry, cases⟩
  | none => .error (.reported (.argument .suiteNotMapping))

def runCase (suite : Suite σ) (entry : Case) (state : State σ) :
    Except Failure Verdict × State σ :=
  let expected := Variables.substitute state.bound entry.expected
  let actual := Variables.substitute state.bound entry.actual
  match Match.run suite.registry suite.config entry.mode (.text expected) (.text actual)
      state.world with
  | (.error (.reported error), world) => (.ok (.ofError entry error), ⟨state.bound, world⟩)
  | (.error failure, world) => (.error failure, ⟨state.bound, world⟩)
  -- The captures become variables whether the case passes or not.
  | (.ok result, world) =>
      (Verdict.ofResult suite.pool entry result, ⟨state.bound.setAll result.captures, world⟩)

def runCases (suite : Suite σ) : List Case → State σ → Except Failure (List Verdict) × State σ
  | [], state => (.ok [], state)
  | entry :: rest, state =>
      match suite.runCase entry state with
      | (.error failure, state) => (.error failure, state)
      | (.ok verdict, state) =>
          let (verdicts, state) := runCases suite rest state
          (verdicts.map (verdict :: ·), state)

/-- Run all cases. Variables that are left over are dropped at the start, and every verdict is
added to the report. -/
def run (suite : Suite σ) (left : State σ) : Except Failure Report × State σ :=
  let (verdicts, state) := suite.runCases suite.cases { left with bound := [] }
  (verdicts.map (·.foldl Report.add .empty), state)

end Suite

end JsonTemplate
