import JsonTemplate.Proofs.Placeholder.Name
import JsonTemplate.Proofs.Text.Capitals
import JsonTemplate.Registry

set_option autoImplicit false

/-!
# The names of a registry

A registry binds names that differ in more than the case of their letters, so every name has at
most one function. A registration is accepted exactly for a name that is not taken.
-/

namespace JsonTemplate

open Placeholder (isName)

variable {σ : Type}

/-- Two texts that differ at most in the case of ASCII letters. -/
def Text.Alike (left right : Text) : Prop :=
  left.asciiLower = right.asciiLower

namespace Registry

/-- Names have the form of placeholder names, and no two of them are alike. -/
structure WellNamed (registry : Registry σ) : Prop where
  named : ∀ name ∈ registry.names, isName name = true
  different : registry.names.Pairwise fun earlier later => ¬ earlier.Alike later

theorem mem_names {registry : Registry σ} {entry : Entry σ} (member : entry ∈ registry.entries) :
    entry.name ∈ registry.names :=
  List.mem_map_of_mem member

theorem capitals_eq_iff_alike {left right : Text} (leftNamed : isName left = true)
    (rightNamed : isName right = true) : left.capitals = right.capitals ↔ left.Alike right :=
  Text.capitals_eq_iff (Placeholder.isName_iff.mp leftNamed).2
    (Placeholder.isName_iff.mp rightNamed).2

theorem resolve_eq_none_iff {registry : Registry σ} {name : Text} (wellNamed : registry.WellNamed)
    (named : isName name = true) :
    registry.resolve name = none ↔ ∀ other ∈ registry.names, ¬ other.Alike name := by
  rw [resolve, Option.map_eq_none_iff, List.find?_eq_none]
  constructor
  · intro missing other member alike
    obtain ⟨entry, entered, rfl⟩ := List.mem_map.mp member
    refine missing entry entered (decide_eq_true ?_)
    exact (capitals_eq_iff_alike (wellNamed.named _ member) named).mpr alike
  · intro unlike entry entered same
    have alike := (capitals_eq_iff_alike (wellNamed.named _ (mem_names entered)) named).mp
      (of_decide_eq_true same)
    exact unlike entry.name (mem_names entered) alike

/-- The function of a name belongs to the one entry that is named alike. -/
theorem resolve_split {registry : Registry σ} {name : Text} (wellNamed : registry.WellNamed)
    (named : isName name = true) {before after : List (Entry σ)} {entry : Entry σ}
    (split : registry.entries = before ++ entry :: after) (alike : entry.name.Alike name) :
    registry.resolve name = some entry.action ∧
      ∀ other ∈ before ++ after, ¬ other.name.Alike name := by
  have different := wellNamed.different
  rw [names, split, List.map_append, List.map_cons, List.pairwise_append,
    List.pairwise_cons] at different
  obtain ⟨_, ⟨entryAfter, _⟩, beforeOthers⟩ := different
  have beforeUnlike : ∀ other ∈ before, ¬ other.name.Alike name := fun other member same =>
    beforeOthers _ (List.mem_map_of_mem member) _ List.mem_cons_self (same.trans alike.symm)
  have afterUnlike : ∀ other ∈ after, ¬ other.name.Alike name := fun other member same =>
    entryAfter _ (List.mem_map_of_mem member) (alike.trans same.symm)
  refine ⟨?_, fun other member => ?_⟩
  · have entered : entry ∈ registry.entries := split ▸ List.mem_append_cons_self
    have same := (capitals_eq_iff_alike (wellNamed.named _ (mem_names entered)) named).mpr alike
    have missed : before.find? (fun other => other.name.capitals = name.capitals) = none := by
      rw [List.find?_eq_none]
      intro other member equal
      have otherEntered : other ∈ registry.entries := split ▸ List.mem_append_left _ member
      exact beforeUnlike other member ((capitals_eq_iff_alike
        (wellNamed.named _ (mem_names otherEntered)) named).mp (of_decide_eq_true equal))
    have hit : (entry :: after).find? (fun other => other.name.capitals = name.capitals) =
        some entry := List.find?_cons_of_pos (decide_eq_true same)
    rw [resolve, split, List.find?_append, missed, Option.none_or, hit, Option.map_some]
  · rcases List.mem_append.mp member with early | late
    · exact beforeUnlike other early
    · exact afterUnlike other late

/-- What a lookup of a name finds: the function of the one entry that is named alike, or nothing
when there is none. -/
theorem resolve_cases {registry : Registry σ} {name : Text} (wellNamed : registry.WellNamed)
    (named : isName name = true) :
    (registry.resolve name = none ∧ ∀ other ∈ registry.names, ¬ other.Alike name) ∨
      ∃ before entry after, registry.entries = before ++ entry :: after ∧
        registry.resolve name = some entry.action ∧ entry.name.Alike name ∧
        ∀ other ∈ before ++ after, ¬ other.name.Alike name := by
  by_cases bound : ∃ entry ∈ registry.entries, entry.name.Alike name
  · obtain ⟨entry, entered, alike⟩ := bound
    obtain ⟨before, after, split⟩ := List.append_of_mem entered
    obtain ⟨found, unlike⟩ := resolve_split wellNamed named split alike
    exact .inr ⟨before, entry, after, split, found, alike, unlike⟩
  · have unlike : ∀ other ∈ registry.names, ¬ other.Alike name := by
      intro other member alike
      obtain ⟨entry, entered, rfl⟩ := List.mem_map.mp member
      exact bound ⟨entry, entered, alike⟩
    exact .inl ⟨(resolve_eq_none_iff wellNamed named).mpr unlike, unlike⟩

/-- A function stays bound when others are registered behind it. -/
theorem resolve_append {registry : Registry σ} {name : Text} {action : Action σ}
    (found : registry.resolve name = some action) (added : List (Entry σ)) :
    resolve ⟨registry.entries ++ added⟩ name = some action := by
  obtain ⟨entry, first, same⟩ := Option.map_eq_some_iff.mp found
  rw [resolve, List.find?_append, first, Option.some_or, Option.map_some, same]

/-! ## Registration -/

/-- A registration that is accepted binds a function to a name that is not taken. -/
theorem register_eq_ok_iff {registry next : Registry σ} {name : Data} {candidate : Candidate σ} :
    registry.register name candidate = .ok next ↔
      ∃ text action, name = .text text ∧ candidate = .action action ∧ isName text = true ∧
        registry.resolve text = none ∧ next = ⟨registry.entries ++ [⟨text, action⟩]⟩ := by
  constructor
  · intro accepted
    unfold register at accepted
    split at accepted
    · next text =>
        split at accepted
        · cases accepted
        · split at accepted
          · cases accepted
          · next named =>
              split at accepted
              · cases accepted
              · cases accepted
              · next action =>
                  split at accepted
                  · cases accepted
                  · next free =>
                      refine ⟨text, action, rfl, rfl, by simpa using named, ?_, ?_⟩
                      · exact Option.not_isSome_iff_eq_none.mp free
                      · exact (Except.ok.inj accepted).symm
    · cases accepted
  · rintro ⟨text, action, rfl, rfl, named, free, rfl⟩
    simp [register, Placeholder.isBlank_of_isName named, named, free]

theorem wellNamed_empty : (empty : Registry σ).WellNamed :=
  ⟨nofun, .nil⟩

theorem WellNamed.append {registry : Registry σ} (wellNamed : registry.WellNamed) {name : Text}
    {action : Action σ} (named : isName name = true)
    (unlike : ∀ other ∈ registry.names, ¬ other.Alike name) :
    WellNamed ⟨registry.entries ++ [⟨name, action⟩]⟩ where
  named other member := by
    rw [names, List.map_append, List.mem_append] at member
    rcases member with old | new
    · exact wellNamed.named other old
    · cases List.mem_singleton.mp new
      exact named
  different := by
    rw [names, List.map_append, List.pairwise_append]
    refine ⟨wellNamed.different, List.pairwise_singleton _ _, fun other member last added => ?_⟩
    cases List.mem_singleton.mp added
    exact unlike other member

theorem WellNamed.register {registry next : Registry σ} (wellNamed : registry.WellNamed)
    {name : Data} {candidate : Candidate σ}
    (accepted : registry.register name candidate = .ok next) : next.WellNamed := by
  obtain ⟨text, action, rfl, rfl, named, free, rfl⟩ := register_eq_ok_iff.mp accepted
  exact wellNamed.append named ((resolve_eq_none_iff wellNamed named).mp free)

/-- The built-in functions are those that registering them one after the other gives. -/
theorem builtins_registered (host : Host σ) (clock : Clock) :
    (do
      let registry ← empty.register (.text (lit "GUID")) (.action (guidAction host))
      let registry ← registry.register (.text (lit "NOW")) (.action (nowAction host clock))
      registry.register (.text (lit "UTCNOW")) (.action (utcNowAction host clock))) =
      .ok (builtins host clock) := by
  cbv

theorem wellNamed_builtins (host : Host σ) (clock : Clock) : (builtins host clock).WellNamed := by
  obtain ⟨first, firstAccepted, others⟩ := ok_of_bind (builtins_registered host clock)
  obtain ⟨second, secondAccepted, lastAccepted⟩ := ok_of_bind others
  exact ((wellNamed_empty.register firstAccepted).register secondAccepted).register lastAccepted

end Registry

end JsonTemplate
