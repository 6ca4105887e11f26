import JsonTemplate.Proofs.Resolution.Stack
import JsonTemplate.Proofs.Tree

set_option autoImplicit false

/-!
# Templates without calls

Resolving a template in which no leaf is a call gives the template back. It looks
nothing up in the registry and leaves the world alone.
-/

namespace JsonTemplate

variable {σ : Type}

def Template.NoCalls (template : Template) : Prop :=
  ∀ name, ¬ template.Leaf (.call name)

namespace Resolve

private theorem slot_pure (registry : Registry σ) {leaf : Slot}
    (plain : ∀ name, leaf ≠ .call name) :
    slot registry leaf = pure leaf := by
  cases leaf with
  | call name => exact absurd rfl (plain name)
  | _ => rfl

private theorem templateItems_pure (registry : Registry σ) {items : List Template}
    (each : ∀ item ∈ items, template registry item = pure item) :
    templateItems registry items = pure items := by
  induction items with
  | nil => rfl
  | cons item rest ih =>
      rw [templateItems, each item List.mem_cons_self, pure_bind,
        ih fun other member => each other (List.mem_cons_of_mem item member), pure_bind]

private theorem templateMembers_pure (registry : Registry σ) {members : List (Text × Template)}
    (each : ∀ key value, (key, value) ∈ members → template registry value = pure value) :
    templateMembers registry members = pure members := by
  induction members with
  | nil => rfl
  | cons member rest ih =>
      obtain ⟨key, value⟩ := member
      rw [templateMembers, each key value List.mem_cons_self, pure_bind,
        ih fun key other member => each key other (List.mem_cons_of_mem _ member), pure_bind]

private theorem template_pure (registry : Registry σ) {resolved : Template}
    (plain : resolved.NoCalls) :
    template registry resolved = pure resolved := by
  induction resolved using Tree.inductionOn with
  | string leaf =>
      rw [template, slot_pure registry, pure_bind]
      rintro name rfl
      exact plain name .string
  | array items ih =>
      rw [template, templateItems_pure registry, pure_bind]
      exact fun item member => ih item member fun name found => plain name (.item member found)
  | object members ih =>
      rw [template, templateMembers_pure registry, pure_bind]
      exact fun key value member =>
        ih key value member fun name found => plain name (.member member found)
  | _ => rw [template]

end Resolve

theorem Template.resolve_of_noCalls (registry : Registry σ) {template : Template}
    (distinct : template.DistinctKeys) (plain : template.NoCalls) (world : σ) :
    template.resolve registry world = (.ok template, ⟨world, 0⟩) := by
  rw [Template.resolve_eq registry distinct, Resolve.template_pure registry plain]
  rfl

end JsonTemplate
