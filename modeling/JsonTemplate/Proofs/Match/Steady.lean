import JsonTemplate.Proofs.Match.Calls

set_option autoImplicit false

/-!
# Constant functions

A function is constant when it gives the same in every world, whatever it does to the world. A
match whose template calls constant functions only comes out the same in every world.
-/

namespace JsonTemplate

variable {σ : Type}

def Action.Constant (action : Action σ) : Prop :=
  ∃ outcome, ∀ world, (action world).1 = outcome

namespace Registry

def ConstantAt (registry : Registry σ) (name : Text) : Prop :=
  ∀ action, registry.resolve name = some action → Action.Constant action

private theorem execute_steady {registry : Registry σ} {name : Text}
    (constant : registry.ConstantAt name) :
    ∃ outcome, ∀ world, (registry.execute name world).1 = outcome := by
  cases found : registry.resolve name with
  | none =>
      refine ⟨.error (.functionNotFound (.text name)), fun world => ?_⟩
      simp only [execute, found]
  | some action =>
      obtain ⟨outcome, same⟩ := constant action found
      refine ⟨finish name outcome, fun world => ?_⟩
      simp only [execute, found, same]

end Registry

namespace Resolve

/-- A step that comes out the same from every state. -/
def Steady {α : Type} (step : Resolve σ α) : Prop :=
  ∃ outcome, ∀ progress, ∃ last, step progress = (outcome, last)

section Steps

variable {α β : Type} {registry : Registry σ}

private theorem steady_pure (value : α) : Steady (σ := σ) (pure value) :=
  ⟨.ok value, fun progress => ⟨progress, rfl⟩⟩

theorem Steady.bind {first : Resolve σ α} {next : α → Resolve σ β} (start : Steady first)
    (further : ∀ value, Steady (next value)) : Steady (first >>= next) := by
  obtain ⟨outcome, same⟩ := start
  cases outcome with
  | error error =>
      refine ⟨.error error, fun progress => ?_⟩
      obtain ⟨last, ran⟩ := same progress
      exact ⟨last, bind_error ran⟩
  | ok value =>
      obtain ⟨outcome, others⟩ := further value
      refine ⟨outcome, fun progress => ?_⟩
      obtain ⟨between, ran⟩ := same progress
      obtain ⟨last, done⟩ := others between
      exact ⟨last, (bind_ok ran).trans done⟩

private theorem steady_call {name : Text} (constant : registry.ConstantAt name) :
    Steady (call registry name) := by
  obtain ⟨outcome, same⟩ := Registry.execute_steady constant
  refine ⟨outcome.map Slot.literal, fun progress => ?_⟩
  refine ⟨⟨(registry.execute name progress.world).2, progress.reached + 1⟩, ?_⟩
  rw [← same progress.world]
  rfl

private theorem steady_items {items : List Template}
    (each : ∀ item ∈ items, Steady (template registry item)) :
    Steady (templateItems registry items) := by
  induction items with
  | nil => exact steady_pure []
  | cons item rest ih =>
      obtain ⟨first, others⟩ := List.forall_mem_cons.mp each
      rw [templateItems]
      exact first.bind fun value => (ih others).bind fun values => steady_pure (value :: values)

private theorem steady_members {members : List (Text × Template)}
    (each : ∀ member ∈ members, Steady (template registry member.2)) :
    Steady (templateMembers registry members) := by
  induction members with
  | nil => exact steady_pure []
  | cons member rest ih =>
      obtain ⟨key, value⟩ := member
      obtain ⟨first, others⟩ := List.forall_mem_cons.mp each
      rw [templateMembers]
      exact first.bind fun value => (ih others).bind fun values =>
        steady_pure ((key, value) :: values)

private theorem steady_template {source : Template}
    (constant : ∀ name ∈ source.calls, registry.ConstantAt name) :
    Steady (template registry source) := by
  -- A function may leave another world to the calls behind it; they come out the same in any.
  induction source using Tree.inductionOn with
  | string leaf =>
      rw [template]
      cases leaf with
      | call name =>
          exact (steady_call (constant name List.mem_cons_self)).bind fun slot => steady_pure _
      | _ => exact (steady_pure _).bind fun slot => steady_pure _
  | array items ih =>
      rw [Template.calls_array] at constant
      rw [template]
      refine (steady_items fun item member => ih item member fun name called => ?_).bind
        fun values => steady_pure _
      exact constant name (List.mem_flatMap.mpr ⟨item, member, called⟩)
  | object members ih =>
      rw [Template.calls_object] at constant
      rw [template]
      refine (steady_members fun member listed => ih member.1 member.2 listed
        fun name called => ?_).bind fun values => steady_pure _
      exact constant name (List.mem_flatMap.mpr ⟨member, listed, called⟩)
  | _ => exact steady_pure _

end Steps

end Resolve

namespace Match

/-- The names that the template of a match calls, if it can be read. -/
def Calls (config : MatchConfig) (expected : Document) (name : Text) : Prop :=
  ∃ wanted, (prepare config expected).read (some (lit "expected")) = .ok wanted ∧
    name ∈ (Template.ofJson wanted).calls

theorem run_steady {registry : Registry σ} {config : MatchConfig} {expected : Document}
    (constant : ∀ name, Calls config expected name → registry.ConstantAt name) (mode : Mode)
    (actual : Document) :
    ∃ outcome, ∀ world, ∃ last,
      run registry config mode expected actual world = (outcome, last) := by
  cases readExpected : (prepare config expected).read (some (lit "expected")) with
  | error failure =>
      exact ⟨.error failure, fun world =>
        ⟨world, run_of_unread_template registry mode actual world readExpected⟩⟩
  | ok wanted =>
      cases readActual : actual.read (some (lit "actual")) with
      | error failure =>
          exact ⟨.error failure, fun world =>
            ⟨world, run_of_unread_document registry mode world readExpected readActual⟩⟩
      | ok found =>
          have calls : ∀ name ∈ (Template.ofJson wanted).calls, registry.ConstantAt name :=
            fun name called => constant name ⟨wanted, readExpected, called⟩
          obtain ⟨outcome, same⟩ := Resolve.steady_template calls
          refine ⟨match outcome with
            | .error error => .error (.reported error)
            | .ok resolved => .ok (compareTrees config mode resolved found), fun world => ?_⟩
          obtain ⟨last, resolved⟩ := same ⟨world, 0⟩
          obtain ⟨distinct, ran⟩ := run_of_read registry mode world readExpected readActual
          have whole : (Template.ofJson wanted).resolve registry world = (outcome, last) :=
            (Template.resolve_eq registry distinct world).trans resolved
          refine ⟨last.world, ?_⟩
          rw [ran, whole]
          cases outcome <;> rfl

end Match

end JsonTemplate
