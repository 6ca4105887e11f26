import JsonTemplate.Proofs.Match.Steady
import JsonTemplate.Proofs.Registry.Names
import JsonTemplate.Suite.Run

set_option autoImplicit false

/-!
# Constant functions of a suite

The functions that a suite brings along are constant, and so are the built-in ones on a fixed clock
but for the random identifier.
-/

namespace JsonTemplate

open Placeholder (isName)

variable {σ : Type}

namespace Template

/-- What the template of a document calls has the form of a name. -/
theorem isName_of_mem_calls {document : Json} {name : Text}
    (called : name ∈ (ofJson document).calls) : isName name = true := by
  induction document using Tree.inductionOn with
  | string text =>
      rw [ofJson, Tree.map, Slot.ofText] at called
      split at called
      · cases called
      · next scanned =>
          cases List.mem_singleton.mp called
          exact (Placeholder.scan_eq_some_iff.mp scanned).1
      · cases called
  | array items ih =>
      rw [ofJson, Tree.map_array, calls_array, List.flatMap_map] at called
      obtain ⟨item, member, inside⟩ := List.mem_flatMap.mp called
      exact ih item member inside
  | object members ih =>
      rw [ofJson, Tree.map_object, calls_object, List.flatMap_map] at called
      obtain ⟨member, listed, inside⟩ := List.mem_flatMap.mp called
      exact ih member.1 member.2 listed inside
  | _ => cases called

end Template

namespace Registry

def ConstantBut (registry : Registry σ) (exception : Text) : Prop :=
  ∀ entry ∈ registry.entries, entry.name = exception ∨ Action.Constant entry.action

theorem ConstantBut.constantAt {registry : Registry σ} {exception name : Text}
    (constant : registry.ConstantBut exception) (exceptionNamed : isName exception = true)
    (named : isName name = true) (unlike : ¬ name.Alike exception) :
    registry.ConstantAt name := by
  intro action found
  obtain ⟨entry, first, rfl⟩ := Option.map_eq_some_iff.mp found
  rcases constant entry (List.mem_of_find?_eq_some first) with same | steady
  · have capitals : entry.name.capitals = name.capitals := by
      simpa using List.find?_some first
    rw [same, capitals_eq_iff_alike exceptionNamed named] at capitals
    exact absurd capitals.symm unlike
  · exact steady

private theorem builtins_constantBut (host : Host σ) (instant : Moment) (zone : Offset) :
    (builtins host (.fixed instant zone)).ConstantBut (lit "GUID") := by
  intro entry member
  rcases List.mem_cons.mp member with rfl | member
  · exact .inl rfl
  · rcases List.mem_cons.mp member with rfl | member
    · exact .inr ⟨_, fun world => rfl⟩
    · cases List.mem_singleton.mp member
      exact .inr ⟨_, fun world => rfl⟩

end Registry

namespace Suite

private theorem addConstants_constantBut {pool : Data.Pool} {registry built : Registry σ}
    {exception : Text} {functions : List (Data × Data)} (constant : registry.ConstantBut exception)
    (made : addConstants pool registry functions = .ok built) : built.ConstantBut exception := by
  induction functions generalizing registry with
  | nil =>
      cases made
      exact constant
  | cons function rest ih =>
      obtain ⟨name, _, made⟩ := ok_of_bind made
      obtain ⟨action, given, made⟩ := ok_of_bind made
      obtain ⟨next, registered, made⟩ := ok_of_bind made
      refine ih (fun entry member => ?_) made
      obtain ⟨_, _, _, offered, _, _, rfl⟩ :=
        Registry.register_eq_ok_iff.mp (ok_of_mapError registered)
      rcases List.mem_append.mp member with old | new
      · exact constant entry old
      · cases offered
        cases List.mem_singleton.mp new
        obtain ⟨text, _, same⟩ := ok_of_bind given
        cases same
        exact .inr ⟨.text text, fun world => rfl⟩

/-- On a fixed clock, all functions of a suite's own registry but the random identifier are
constant. -/
theorem registryOf_constantBut {host : Host σ} {pool : Data.Pool} {entries : List (Data × Data)}
    {registry : Registry σ} {instant : Moment} {zone : Offset}
    (fixed : clockOf pool (Data.lookupD entries (lit "clock")) = .ok (.fixed instant zone))
    (made : registryOf host pool entries = .ok registry) : registry.ConstantBut (lit "GUID") := by
  obtain ⟨clock, same, made⟩ := ok_of_bind made
  cases fixed.symm.trans same
  have builtins := Registry.builtins_constantBut host instant zone
  dsimp only at made
  split at made
  · cases made
    exact builtins
  · split at made
    · exact addConstants_constantBut builtins made
    · cases made

end Suite

end JsonTemplate
