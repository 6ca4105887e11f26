import JsonTemplate.Proofs.Answers
import JsonTemplate.Proofs.Resolution.Stack

set_option autoImplicit false

/-!
# Calls are carried out in document order

A resolution calls the functions of a template one after the other, each once, and stops behind the
first that gives no text. What each function does to the world is seen by the calls after it.
-/

namespace JsonTemplate

variable {σ : Type}

namespace Registry

/-- Calls of functions one after the other, each of which gives a text. -/
inductive Answers (registry : Registry σ) : σ → List Text → List Text → σ → Prop where
  | none {world : σ} : Answers registry world [] [] world
  | call {world between last : σ} {name value : Text} {names values : List Text}
      {action : Action σ} :
      registry.resolve name = some action → action world = (.text value, between) →
      Answers registry between names values last →
      Answers registry world (name :: names) (value :: values) last

/-- A call that gives no text: nothing is bound to the name, or the function fails, or it gives
something else. -/
inductive Refuses (registry : Registry σ) (name : Text) (world : σ) : Error → σ → Prop where
  | unknown : registry.resolve name = none →
      Refuses registry name world (.functionNotFound (.text name)) world
  | failed {action : Action σ} {reason : Text} {last : σ} :
      registry.resolve name = some action → action world = (.failure reason, last) →
      Refuses registry name world (.functionFailed name reason) last
  | other {action : Action σ} {typeName : Text} {last : σ} :
      registry.resolve name = some action → action world = (.other typeName, last) →
      Refuses registry name world
        (.functionFailed name (lit "returned " ++ typeName ++ lit ", expected str")) last

theorem Answers.append {registry : Registry σ} {world between last : σ}
    {first second values results : List Text} (before : Answers registry world first values between)
    (after : Answers registry between second results last) :
    Answers registry world (first ++ second) (values ++ results) last := by
  induction before with
  | none => exact after
  | call bound answered _ ih => exact .call bound answered (ih after)

/-- A call gives a text or is refused. -/
theorem execute_cases (registry : Registry σ) (name : Text) (world : σ) :
    (∃ value last, Answers registry world [name] [value] last ∧
      registry.execute name world = (.ok value, last)) ∨
    ∃ error last, Refuses registry name world error last ∧
      registry.execute name world = (.error error, last) := by
  cases bound : registry.resolve name with
  | none => exact .inr ⟨_, _, .unknown bound, by simp only [execute, bound]⟩
  | some action =>
      rcases answered : action world with ⟨outcome, last⟩
      have ran : registry.execute name world = (finish name outcome, last) := by
        simp only [execute, bound, answered]
      cases outcome with
      | text value => exact .inl ⟨value, last, .call bound answered .none, ran⟩
      | other typeName => exact .inr ⟨_, last, .other bound answered, ran⟩
      | failure reason => exact .inr ⟨_, last, .failed bound answered, ran⟩

end Registry

namespace Resolve

open Registry (Answers Refuses)

/-- A step that calls functions by these names in this order. When all of them give texts, `good`
holds of the texts and the result; behind the first that does not, nothing is called. -/
def Performs {α : Type} (registry : Registry σ) (names : List Text)
    (good : List Text → α → Prop) (step : Resolve σ α) : Prop :=
  ∀ progress,
    (∃ values result last, Answers registry progress.world names values last ∧
      good values result ∧ step progress = (.ok result, ⟨last, progress.reached + names.length⟩)) ∨
    ∃ before name after values between error last, names = before ++ name :: after ∧
      Answers registry progress.world before values between ∧
      Refuses registry name between error last ∧
      step progress = (.error error, ⟨last, progress.reached + before.length + 1⟩)

section Steps

variable {α β : Type} {registry : Registry σ}

private theorem performs_pure {good : List Text → α → Prop} {value : α} (fine : good [] value) :
    Performs registry [] good (pure value) := by
  intro progress
  exact .inl ⟨[], value, progress.world, .none, fine, rfl⟩

private theorem performs_call (registry : Registry σ) (name : Text) :
    Performs registry [name] (fun values slot => ∃ value, values = [value] ∧ slot = .literal value)
      (call registry name) := by
  intro progress
  rcases registry.execute_cases name progress.world with
    ⟨value, last, answered, ran⟩ | ⟨error, last, refused, ran⟩
  · refine .inl ⟨[value], .literal value, last, answered, ⟨value, rfl, rfl⟩, ?_⟩
    simp only [call, ran]
    rfl
  · refine .inr ⟨[], name, [], [], progress.world, error, last, rfl, .none, refused, ?_⟩
    simp only [call, ran]
    rfl

theorem bind_ok {first : Resolve σ α} {next : α → Resolve σ β} {before after : Progress σ}
    {value : α} (ran : first before = (.ok value, after)) :
    (first >>= next) before = next value after := by
  change (match first before with
    | (outcome, between) => ExceptT.bindCont next outcome between) = _
  rw [ran]
  rfl

theorem bind_error {first : Resolve σ α} {next : α → Resolve σ β} {before after : Progress σ}
    {error : Error} (ran : first before = (.error error, after)) :
    (first >>= next) before = (.error error, after) := by
  change (match first before with
    | (outcome, between) => ExceptT.bindCont next outcome between) = _
  rw [ran]
  rfl

theorem Performs.bind {names others : List Text} {good : List Text → α → Prop}
    {fine : List Text → β → Prop} {first : Resolve σ α} {next : α → Resolve σ β}
    (start : Performs registry names good first)
    (further : ∀ values value, good values value →
      Performs registry others (fun later => fine (values ++ later)) (next value)) :
    Performs registry (names ++ others) fine (first >>= next) := by
  intro progress
  rcases start progress with ⟨values, value, between, answered, holds, ran⟩ |
      ⟨before, name, after, values, between, error, last, split, answered, refused, ran⟩
  · rw [bind_ok ran]
    rcases further values value holds ⟨between, progress.reached + names.length⟩ with
      ⟨later, result, last, others, holds, done⟩ |
        ⟨before, name, after, later, middle, error, last, split, others, refused, done⟩
    · refine .inl ⟨values ++ later, result, last, answered.append others, holds, ?_⟩
      rw [done, List.length_append, Nat.add_assoc]
    · refine .inr ⟨names ++ before, name, after, values ++ later, middle, error, last, ?_,
        answered.append others, refused, ?_⟩
      · rw [split, List.append_assoc]
      · rw [done, List.length_append, Nat.add_assoc progress.reached]
  · refine .inr ⟨before, name, after ++ others, values, between, error, last, ?_, answered,
      refused, bind_error ran⟩
    rw [split, List.append_assoc, List.cons_append]

/-- A step whose result is wrapped up. -/
theorem Performs.map {names : List Text} {good : List Text → α → Prop}
    {fine : List Text → β → Prop} {first : Resolve σ α} {wrap : α → β}
    (start : Performs registry names good first)
    (implied : ∀ values value, good values value → fine values (wrap value)) :
    Performs registry names fine (first >>= fun value => pure (wrap value)) := by
  have both : Performs registry (names ++ []) fine (first >>= fun value => pure (wrap value)) := by
    refine start.bind fun values value holds => performs_pure ?_
    rw [List.append_nil]
    exact implied values value holds
  rwa [List.append_nil] at both

def fromFirst (first : Path → Text) (others : Nat → Path → Text) : Nat → Path → Text
  | 0 => first
  | position + 1 => others position

def belowItems (assign : Nat → Path → Text) : Path → Text
  | .index (.ofNat position) :: place => assign position place
  | _ => []

def belowMembers (assign : Text → Path → Text) : Path → Text
  | .key name :: place => assign name place
  | _ => []

/-- The result of resolving a template: its calls are answered by the texts that they gave. -/
def AnsweredBy (source : Template) (values : List Text) (result : Template) : Prop :=
  ∃ assign, result = source.answer assign ∧ values = source.answers assign

private theorem performs_leaf (registry : Registry σ) (leaf : Slot) :
    Performs registry (Template.calls (.string leaf)) (AnsweredBy (.string leaf))
      (template registry (.string leaf)) := by
  rw [template]
  cases leaf with
  | call name =>
      refine (performs_call registry name).map ?_
      rintro _ _ ⟨value, one, literal⟩
      exact ⟨fun _ => value, by rw [literal]; rfl, one⟩
  | _ => exact (performs_pure ⟨fun _ => [], rfl, rfl⟩)

private theorem performs_items {items : List Template}
    (each : ∀ item ∈ items, Performs registry item.calls (AnsweredBy item)
      (template registry item)) :
    Performs registry (items.flatMap Template.calls) (fun values results =>
      ∃ assign : Nat → Path → Text,
        results = (items.mapIdx fun position item => item.answer (assign position)) ∧
        values = (items.mapIdx fun position item => item.answers (assign position)).flatten)
      (templateItems registry items) := by
  induction items with
  | nil => exact performs_pure ⟨fun _ _ => [], rfl, rfl⟩
  | cons item rest ih =>
      have others := ih fun other member => each other (List.mem_cons_of_mem item member)
      rw [templateItems, List.flatMap_cons]
      refine (each item List.mem_cons_self).bind ?_
      rintro values first ⟨here, answered, given⟩
      refine others.map ?_
      rintro later results ⟨assign, answers, giving⟩
      refine ⟨fromFirst here assign, ?_, ?_⟩
      · rw [List.mapIdx_cons, answered, answers]
        rfl
      · rw [List.mapIdx_cons, List.flatten_cons, given, giving]
        rfl

private theorem performs_members {members : List (Text × Template)}
    (keys : Bindings.Distinct members)
    (each : ∀ member ∈ members, Performs registry member.2.calls (AnsweredBy member.2)
      (template registry member.2)) :
    Performs registry (members.flatMap fun member => member.2.calls) (fun values results =>
      ∃ assign : Text → Path → Text,
        results = (members.map fun member => (member.1, member.2.answer (assign member.1))) ∧
        values = members.flatMap fun member => member.2.answers (assign member.1))
      (templateMembers registry members) := by
  induction members with
  | nil => exact performs_pure ⟨fun _ _ => [], rfl, rfl⟩
  | cons member rest ih =>
      obtain ⟨key, value⟩ := member
      obtain ⟨fresh, keys⟩ := List.nodup_cons.mp keys
      have others := ih keys fun other member => each other (List.mem_cons_of_mem _ member)
      rw [templateMembers, List.flatMap_cons]
      refine (each (key, value) List.mem_cons_self).bind ?_
      rintro values first ⟨here, answered, given⟩
      refine others.map ?_
      rintro later results ⟨assign, answers, giving⟩
      -- The keys that follow are other keys, so their texts are not touched.
      let chosen : Text → Path → Text := fun name => if name = key then here else assign name
      have chosenHere : chosen key = here := if_pos rfl
      have chosenThere : ∀ other ∈ rest, chosen other.1 = assign other.1 := by
        intro other member
        have listed : other.1 ∈ rest.map Prod.fst := List.mem_map_of_mem member
        refine if_neg fun same => fresh ?_
        rwa [same] at listed
      refine ⟨chosen, ?_, ?_⟩
      · rw [List.map_cons, chosenHere, answered, answers]
        congr 1
        exact List.map_congr_left fun other member => by rw [chosenThere other member]
      · rw [List.flatMap_cons, chosenHere, given, giving]
        congr 1
        exact List.flatMap_congr fun other member => by rw [chosenThere other member]

/-- Resolving a template carries out its calls in document order, and answers each with the text
that it gave. -/
theorem performs_template (registry : Registry σ) {source : Template}
    (distinct : source.DistinctKeys) :
    Performs registry source.calls (AnsweredBy source) (template registry source) := by
  induction source using Tree.inductionOn with
  | string leaf => exact performs_leaf registry leaf
  | array items ih =>
      have each := Tree.distinctKeys_array.mp distinct
      have items := performs_items fun item member => ih item member (each item member)
      rw [template, Template.calls_array]
      refine items.map ?_
      rintro values results ⟨assign, answered, given⟩
      refine ⟨belowItems assign, ?_, ?_⟩
      · rw [Template.answer_array, answered]
        rfl
      · rw [Template.answers_array, given]
        rfl
  | object members ih =>
      obtain ⟨keys, each⟩ := Tree.distinctKeys_object.mp distinct
      have members := performs_members keys fun member included =>
        ih member.1 member.2 included (each member included)
      rw [template, Template.calls_object]
      refine members.map ?_
      rintro values results ⟨assign, answered, given⟩
      refine ⟨belowMembers assign, ?_, ?_⟩
      · rw [Template.answer_object, answered]
        rfl
      · rw [Template.answers_object, given]
        rfl
  | _ => exact performs_pure ⟨fun _ => [], rfl, rfl⟩

end Steps

end Resolve

open Registry (Answers Refuses)

/-- Either all calls of a template give texts, which take the places of the calls, or the
resolution stops behind the first that is refused. -/
theorem Template.resolve_cases (registry : Registry σ) {template : Template}
    (distinct : template.DistinctKeys) (world : σ) :
    (∃ assign last, Answers registry world template.calls (template.answers assign) last ∧
      template.resolve registry world =
        (.ok (template.answer assign), ⟨last, template.calls.length⟩)) ∨
    ∃ before name after values between error last, template.calls = before ++ name :: after ∧
      Answers registry world before values between ∧ Refuses registry name between error last ∧
      template.resolve registry world = (.error error, ⟨last, before.length + 1⟩) := by
  rw [Template.resolve_eq registry distinct]
  rcases Resolve.performs_template registry distinct ⟨world, 0⟩ with
    ⟨values, result, last, answered, ⟨assign, same, given⟩, ran⟩ |
      ⟨before, name, after, values, between, error, last, split, answered, refused, ran⟩
  · subst same given
    exact .inl ⟨assign, last, answered, by rw [← Nat.zero_add template.calls.length]; exact ran⟩
  · refine .inr ⟨before, name, after, values, between, error, last, split, answered, refused, ?_⟩
    rw [← Nat.zero_add before.length]
    exact ran

end JsonTemplate
