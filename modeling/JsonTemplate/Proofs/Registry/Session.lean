import JsonTemplate.Proofs.Registry.Names
import JsonTemplate.Proofs.Suite.Captured

set_option autoImplicit false

/-!
# Sessions

A registry is used by registering functions, looking names up, calling functions, resolving
templates and matching documents, in any order. Only an accepted registration changes it, and what
is bound once stays bound.
-/

namespace JsonTemplate

open Placeholder (isName)

inductive Operation (σ : Type) where
  | register (name : Data) (candidate : Candidate σ)
  | lookup (name : Data)
  | execute (name : Data)
  | resolve (template : Template)
  | matching (config : MatchConfig) (mode : Mode) (expected actual : Document)

inductive Answer (σ : Type) where
  | registered (outcome : Except Error Unit)
  | found (action : Option (Action σ))
  | executed (outcome : Except Error Text)
  | resolved (outcome : Except Error Template)
  | matched (outcome : Except Failure MatchResult)

structure Session (σ : Type) where
  registry : Registry σ
  world : σ

variable {σ : Type}

namespace Operation

/-- An operation that binds an entry: a function is registered under a name that is not taken. -/
inductive Binds (registry : Registry σ) : Operation σ → Registry.Entry σ → Prop where
  | register {name : Text} {action : Action σ} : isName name = true →
      (∀ other ∈ registry.names, ¬ other.Alike name) →
      Binds registry (.register (.text name) (.action action)) ⟨name, action⟩

def registeredName : Operation σ × Answer σ → Option Text
  | (.register (.text name) _, .registered (.ok ())) => some name
  | _ => none

private theorem registeredName_eq_none {operation : Operation σ} {answer : Answer σ}
    (refused : answer ≠ .registered (.ok ())) : registeredName (operation, answer) = none := by
  unfold registeredName
  split
  · next same =>
      cases same
      exact absurd rfl refused
  · rfl

end Operation

namespace Session

open Operation (Binds registeredName registeredName_eq_none)

def step (session : Session σ) : Operation σ → Answer σ × Session σ
  | .register name candidate =>
      match session.registry.register name candidate with
      | .ok registry => (.registered (.ok ()), ⟨registry, session.world⟩)
      | .error error => (.registered (.error error), session)
  | .lookup name => (.found (session.registry.resolveAny name), session)
  | .execute name =>
      let (outcome, world) := session.registry.executeAny name session.world
      (.executed outcome, ⟨session.registry, world⟩)
  | .resolve template =>
      let (outcome, progress) := template.resolve session.registry session.world
      (.resolved outcome, ⟨session.registry, progress.world⟩)
  | .matching config mode expected actual =>
      let (outcome, world) := Match.run session.registry config mode expected actual session.world
      (.matched outcome, ⟨session.registry, world⟩)

def run (session : Session σ) : List (Operation σ) → List (Answer σ) × Session σ
  | [] => ([], session)
  | operation :: rest =>
      let (answer, between) := session.step operation
      let (answers, last) := between.run rest
      (answer :: answers, last)

def start (host : Host σ) (clock : Clock) (builtIn : Bool) (world : σ) : Session σ :=
  ⟨if builtIn then Registry.builtins host clock else Registry.empty, world⟩

/-- A registration that binds an entry appends it; any other operation leaves the registry alone
and gives something else. -/
theorem step_cases {session : Session σ} (wellNamed : session.registry.WellNamed)
    (operation : Operation σ) :
    (∃ entry, Binds session.registry operation entry ∧
      session.step operation =
        (.registered (.ok ()), ⟨⟨session.registry.entries ++ [entry]⟩, session.world⟩)) ∨
    (∀ entry, ¬ Binds session.registry operation entry) ∧
      (session.step operation).1 ≠ .registered (.ok ()) ∧
      (session.step operation).2.registry = session.registry := by
  cases operation with
  | register name candidate =>
      cases accepted : session.registry.register name candidate with
      | ok next =>
          obtain ⟨text, action, rfl, rfl, named, free, rfl⟩ :=
            Registry.register_eq_ok_iff.mp accepted
          refine .inl ⟨⟨text, action⟩, .register named ?_, by simp only [step, accepted]⟩
          exact (Registry.resolve_eq_none_iff wellNamed named).mp free
      | error error =>
          refine .inr ⟨?_, by simp [step, accepted], by simp only [step, accepted]⟩
          rintro entry ⟨named, unlike⟩
          have free := (Registry.resolve_eq_none_iff wellNamed named).mpr unlike
          rw [Registry.register_eq_ok_iff.mpr ⟨_, _, rfl, rfl, named, free, rfl⟩] at accepted
          cases accepted
  | lookup name => exact .inr ⟨nofun, nofun, rfl⟩
  | execute name => exact .inr ⟨nofun, nofun, rfl⟩
  | resolve template => exact .inr ⟨nofun, nofun, rfl⟩
  | matching config mode expected actual => exact .inr ⟨nofun, nofun, rfl⟩

theorem wellNamed_start (host : Host σ) (clock : Clock) (builtIn : Bool) (world : σ) :
    (start host clock builtIn world).registry.WellNamed := by
  cases builtIn with
  | true => exact Registry.wellNamed_builtins host clock
  | false => exact Registry.wellNamed_empty

/-- A run appends the entries of its accepted registrations, under the names as they are spelled. -/
theorem run_entries {session : Session σ} (wellNamed : session.registry.WellNamed)
    (operations : List (Operation σ)) :
    (session.run operations).2.registry.WellNamed ∧
      ∃ added, (session.run operations).2.registry.entries = session.registry.entries ++ added ∧
        added.map Registry.Entry.name =
          (operations.zip (session.run operations).1).filterMap registeredName := by
  -- Along the operations, from whatever registry the earlier ones have left.
  induction operations generalizing session with
  | nil => exact ⟨wellNamed, [], (List.append_nil _).symm, rfl⟩
  | cons operation rest ih =>
      rcases step_cases wellNamed operation with ⟨entry, binds, stepped⟩ | ⟨_, refused, same⟩
      · have later : (session.step operation).2.registry.WellNamed := by
          rw [stepped]
          cases binds with
          | register named unlike => exact wellNamed.append named unlike
        obtain ⟨last, added, entries, names⟩ := ih later
        refine ⟨last, entry :: added, ?_, ?_⟩
        · rw [run, entries, stepped, List.append_assoc, List.singleton_append]
        · have bound : registeredName (operation, (session.step operation).1) =
              some entry.name := by
            rw [stepped]
            cases binds with
            | register named unlike => rfl
          rw [run, List.zip_cons_cons, List.filterMap_cons_some bound, List.map_cons, names]
      · obtain ⟨last, added, entries, names⟩ := ih (same.symm ▸ wellNamed)
        refine ⟨last, added, ?_, ?_⟩
        · rw [run, entries, same]
        · rw [run, List.zip_cons_cons, List.filterMap_cons_none (registeredName_eq_none refused),
            names]

/-- A call placeholder in any letter case carries out the function of the name that is alike. -/
theorem resolve_respelled {registry : Registry σ} (wellNamed : registry.WellNamed)
    {entry : Registry.Entry σ} (entered : entry ∈ registry.entries) {respelled : Text}
    (alike : entry.name.Alike respelled) :
    Placeholder.scan (Placeholder.spelling (.call respelled)) = some (.call respelled) ∧
      registry.resolve respelled = some entry.action ∧
      ∀ world, (Template.ofJson (.string (Placeholder.spelling (.call respelled)))).resolve
          registry world =
        ((Registry.finish respelled (entry.action world).1).map
          fun value => .string (.literal value), ⟨(entry.action world).2, 1⟩) := by
  have named : isName respelled = true :=
    Placeholder.isName_of_asciiLower_eq alike (wellNamed.named _ (Registry.mem_names entered))
  have scanned : Placeholder.scan (Placeholder.spelling (.call respelled)) =
      some (.call respelled) := Placeholder.scan_eq_some_iff.mpr ⟨named, rfl⟩
  obtain ⟨before, after, split⟩ := List.append_of_mem entered
  have found := (Registry.resolve_split wellNamed named split alike).1
  refine ⟨scanned, found, fun world => ?_⟩
  rw [Template.ofJson, Tree.map, Slot.ofText, scanned]
  simp only [Match.resolve_call, Registry.execute, found]

/-- However a registry is used, its names are the built-in ones and then those of the accepted
registrations, as they were spelled and in order; they have the form of names and no two are alike.
Only a registration of a function under a name that is not taken changes it. A name is looked up
as the one name that is alike, whose function it keeps for good, and a call placeholder finds that
function in whatever letter case it is written. -/
theorem run_registry (host : Host σ) (clock : Clock) (builtIn : Bool) (world : σ)
    (operations : List (Operation σ)) :
    let answers := ((start host clock builtIn world).run operations).1
    let reached := ((start host clock builtIn world).run operations).2
    let registry := reached.registry
    (registry.names = (if builtIn then [lit "GUID", lit "NOW", lit "UTCNOW"] else []) ++
        (operations.zip answers).filterMap registeredName ∧
      (∀ name ∈ registry.names, isName name = true) ∧
      registry.names.Pairwise fun earlier later => ¬ earlier.Alike later) ∧
    (∀ operation,
      (∃ entry, Binds registry operation entry ∧
        reached.step operation =
          (.registered (.ok ()), ⟨⟨registry.entries ++ [entry]⟩, reached.world⟩)) ∨
      (∀ entry, ¬ Binds registry operation entry) ∧
        (reached.step operation).1 ≠ .registered (.ok ()) ∧
        (reached.step operation).2.registry = registry) ∧
    (∀ name, isName name = true →
      (registry.resolve name = none ∧ ∀ other ∈ registry.names, ¬ other.Alike name) ∨
      ∃ before entry after, registry.entries = before ++ entry :: after ∧
        registry.resolve name = some entry.action ∧ entry.name.Alike name ∧
        ∀ other ∈ before ++ after, ¬ other.name.Alike name) ∧
    (∀ name action later, registry.resolve name = some action →
      (reached.run later).2.registry.resolve name = some action) ∧
    ∀ entry ∈ registry.entries, ∀ respelled, entry.name.Alike respelled →
      Placeholder.scan (Placeholder.spelling (.call respelled)) = some (.call respelled) ∧
      registry.resolve respelled = some entry.action ∧
      ∀ present, (Template.ofJson (.string (Placeholder.spelling (.call respelled)))).resolve
          registry present =
        ((Registry.finish respelled (entry.action present).1).map
          fun value => .string (.literal value), ⟨(entry.action present).2, 1⟩) := by
  intro answers reached registry
  obtain ⟨wellNamed, added, entries, names⟩ :=
    run_entries (wellNamed_start host clock builtIn world) operations
  refine ⟨⟨?_, wellNamed.named, wellNamed.different⟩, step_cases wellNamed,
    fun name named => Registry.resolve_cases wellNamed named, fun name action later found => ?_,
    fun entry entered respelled alike => resolve_respelled wellNamed entered alike⟩
  · have first : (start host clock builtIn world).registry.names =
        if builtIn then [lit "GUID", lit "NOW", lit "UTCNOW"] else [] := by
      cases builtIn <;> rfl
    rw [Registry.names, entries, List.map_append, names, ← first]
    rfl
  · obtain ⟨_, others, longer, _⟩ := run_entries wellNamed later
    have kept := Registry.resolve_append found others
    rw [← longer] at kept
    exact kept

end Session

end JsonTemplate
