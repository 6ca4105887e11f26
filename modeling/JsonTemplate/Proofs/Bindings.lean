import JsonTemplate.Bindings

set_option autoImplicit false

/-!
# Looking up and binding names

Binding keeps names different from each other. When they are, looking a name up is
membership, and a list is the bindings of its own entries.
-/

namespace JsonTemplate

variable {α : Type}

theorem lookup_eq_none_iff_not_mem {entries : List (Text × α)} {key : Text} :
    entries.lookup key = none ↔ key ∉ entries.map Prod.fst := by
  rw [List.lookup_eq_none_iff]
  constructor
  · intro different member
    obtain ⟨entry, included, same⟩ := List.mem_map.mp member
    simpa [same] using different entry included
  · intro absent entry included
    have distinct : key ≠ entry.1 := by
      intro same
      exact absent (List.mem_map.mpr ⟨entry, included, same.symm⟩)
    simpa using distinct

theorem exists_lookup_of_mem {entries : List (Text × α)} {key : Text}
    (member : key ∈ entries.map Prod.fst) : ∃ value, entries.lookup key = some value := by
  cases found : entries.lookup key with
  | none => exact absurd member (lookup_eq_none_iff_not_mem.mp found)
  | some value => exact ⟨value, rfl⟩

theorem lookup_cons_eq (other : Text) (value : α) (entries : List (Text × α)) (key : Text) :
    ((other, value) :: entries).lookup key =
      if key = other then some value else entries.lookup key := by
  rw [List.lookup_cons]
  by_cases same : key = other
  · simp [same]
  · have apart : (key == other) = false := by simpa using same
    rw [apart, if_neg same]

theorem lookup_append_cons (before after : List (Text × α)) (key : Text) (value : α)
    (other : Text) :
    (before ++ (key, value) :: after).lookup other =
      (before.lookup other).or (if other = key then some value else after.lookup other) := by
  rw [List.lookup_append, lookup_cons_eq]

theorem map_fst_map {β : Type} (entries : List (Text × α)) (change : Text × α → β) :
    (entries.map fun entry => (entry.1, change entry)).map Prod.fst = entries.map Prod.fst := by
  rw [List.map_map]
  rfl

theorem mem_of_lookup_eq_some {entries : List (Text × α)} {key : Text} {value : α}
    (found : entries.lookup key = some value) : (key, value) ∈ entries := by
  obtain ⟨before, after, split, _⟩ := List.lookup_eq_some_iff.mp found
  rw [split]
  simp

/-- Where keys are the same in order, a key is found at one position. -/
theorem lookup_position {before after : List (Text × α)}
    (keys : before.map Prod.fst = after.map Prod.fst) {key : Text} {first second : α}
    (left : before.lookup key = some first) (right : after.lookup key = some second) :
    ∃ position : Nat, before[position]? = some (key, first) ∧
      after[position]? = some (key, second) := by
  induction before generalizing after with
  | nil => cases left
  | cons member rest ih =>
      cases after with
      | nil => cases keys
      | cons other others =>
          obtain ⟨name, value⟩ := member
          obtain ⟨otherName, otherValue⟩ := other
          obtain ⟨same, later⟩ := List.cons.inj keys
          change name = otherName at same
          subst same
          by_cases here : key = name
          · subst here
            rw [List.lookup_cons_self] at left right
            cases left
            cases right
            exact ⟨0, rfl, rfl⟩
          · have apart : (key == name) = false := by simpa using here
            simp only [List.lookup_cons, apart] at left right
            obtain ⟨position, leftAt, rightAt⟩ := ih later left right
            exact ⟨position + 1, leftAt, rightAt⟩

namespace Bindings

def Distinct (bindings : Bindings α) : Prop :=
  (bindings.map Prod.fst).Nodup

theorem Distinct.lookup_iff {bindings : Bindings α} (distinct : Distinct bindings) {key : Text}
    {value : α} : bindings.lookup key = some value ↔ (key, value) ∈ bindings := by
  refine ⟨mem_of_lookup_eq_some, fun member => ?_⟩
  obtain ⟨before, after, split⟩ := List.append_of_mem member
  refine List.lookup_eq_some_iff.mpr ⟨before, after, split, fun entry inBefore => ?_⟩
  rw [split, Distinct, List.map_append, List.map_cons] at distinct
  have apart := (List.nodup_append.mp distinct).2.2 entry.1
    (List.mem_map_of_mem inBefore) key List.mem_cons_self
  simpa using apart.symm

private theorem mem_set {bindings : Bindings α} {name : Text} {value : α} {entry : Text × α}
    (member : entry ∈ set name value bindings) : entry = (name, value) ∨ entry ∈ bindings := by
  induction bindings with
  | nil => exact .inl (List.mem_singleton.mp member)
  | cons first rest ih =>
      obtain ⟨other, old⟩ := first
      rw [set] at member
      split at member
      · next same =>
          subst same
          exact (List.mem_cons.mp member).imp_right (List.mem_cons_of_mem _)
      · rcases List.mem_cons.mp member with rfl | later
        · exact .inr List.mem_cons_self
        · exact (ih later).imp_right (List.mem_cons_of_mem _)

theorem set_of_fresh {bindings : Bindings α} {name : Text} (fresh : name ∉ bindings.map Prod.fst)
    (value : α) : set name value bindings = bindings ++ [(name, value)] := by
  induction bindings with
  | nil => rfl
  | cons first rest ih =>
      obtain ⟨other, old⟩ := first
      have different : other ≠ name := fun same => fresh (same ▸ List.mem_cons_self)
      rw [set, if_neg different, ih fun later => fresh (List.mem_cons_of_mem _ later),
        List.cons_append]

theorem lookup_set (bindings : Bindings α) (name : Text) (value : α) (other : Text) :
    (set name value bindings).lookup other =
      if other = name then some value else bindings.lookup other := by
  induction bindings with
  | nil => rw [set, lookup_cons_eq]
  | cons first rest ih =>
      obtain ⟨key, old⟩ := first
      rw [set]
      by_cases bound : key = name
      · subst bound
        rw [if_pos rfl, lookup_cons_eq, lookup_cons_eq]
        by_cases same : other = key <;> simp [same]
      · rw [if_neg bound, lookup_cons_eq, lookup_cons_eq, ih]
        by_cases here : other = key
        · subst here
          simp [bound]
        · simp [here]

/-- Names without repetition, when one more name comes. -/
theorem eraseDups_concat (names : List Text) (name : Text) :
    (names ++ [name]).eraseDups =
      if name ∈ names.eraseDups then names.eraseDups else names.eraseDups ++ [name] := by
  rw [List.eraseDups_append]
  by_cases before : name ∈ names
  · rw [if_pos (List.mem_eraseDups.mpr before)]
    simp [List.removeAll, before]
  · rw [if_neg fun member => before (List.mem_eraseDups.mp member)]
    simp [List.removeAll, before, List.eraseDups_cons]

theorem map_fst_set (bindings : Bindings α) (name : Text) (value : α) :
    (set name value bindings).map Prod.fst =
      if name ∈ bindings.map Prod.fst then bindings.map Prod.fst
      else bindings.map Prod.fst ++ [name] := by
  induction bindings with
  | nil => rfl
  | cons first rest ih =>
      obtain ⟨key, old⟩ := first
      rw [set]
      by_cases bound : key = name
      · simp [bound]
      · have different : name ≠ key := Ne.symm bound
        rw [if_neg bound, List.map_cons, ih]
        by_cases later : name ∈ rest.map Prod.fst
        · simp [later]
        · simp [later, different]

theorem Distinct.set {bindings : Bindings α} (distinct : Distinct bindings) (name : Text)
    (value : α) : Distinct (set name value bindings) := by
  induction bindings with
  | nil => exact List.nodup_cons.mpr ⟨List.not_mem_nil, List.nodup_nil⟩
  | cons first rest ih =>
      obtain ⟨other, old⟩ := first
      obtain ⟨absent, others⟩ := List.nodup_cons.mp distinct
      rw [Bindings.set]
      split
      · exact distinct
      · next different =>
          refine List.nodup_cons.mpr ⟨fun member => ?_, ih others⟩
          obtain ⟨entry, included, same⟩ := List.mem_map.mp member
          rcases mem_set included with rfl | before
          · exact different same.symm
          · exact absent (List.mem_map.mpr ⟨entry, before, same⟩)

theorem distinct_ofList (entries : List (Text × α)) : Distinct (ofList entries) := by
  have all : ∀ bound : Bindings α, Distinct bound → Distinct (setAll bound entries) := by
    induction entries with
    | nil => exact fun bound distinct => distinct
    | cons first rest ih => exact fun bound distinct => ih _ (distinct.set first.1 first.2)
  exact all [] List.nodup_nil

theorem mem_ofList {entries : List (Text × α)} {entry : Text × α}
    (member : entry ∈ ofList entries) : entry ∈ entries := by
  have all : ∀ bound : Bindings α, entry ∈ setAll bound entries →
      entry ∈ bound ∨ entry ∈ entries := by
    clear member
    induction entries with
    | nil => exact fun bound member => .inl member
    | cons first rest ih =>
        intro bound member
        rcases ih _ member with before | later
        · rcases mem_set before with rfl | old
          · exact .inr List.mem_cons_self
          · exact .inl old
        · exact .inr (List.mem_cons_of_mem _ later)
  exact (all [] member).resolve_left List.not_mem_nil

theorem Distinct.ofList_eq {entries : List (Text × α)} (distinct : Distinct entries) :
    ofList entries = entries := by
  have all : ∀ bound : Bindings α, Distinct (bound ++ entries) →
      setAll bound entries = bound ++ entries := by
    clear distinct
    induction entries with
    | nil => exact fun bound _ => (List.append_nil bound).symm
    | cons first rest ih =>
        obtain ⟨name, value⟩ := first
        intro bound distinct
        have fresh : name ∉ bound.map Prod.fst := by
          intro member
          rw [Distinct, List.map_append] at distinct
          exact (List.nodup_append.mp distinct).2.2 name member name List.mem_cons_self rfl
        rw [List.append_cons] at distinct ⊢
        rw [← ih _ distinct, ← set_of_fresh fresh]
        rfl
  exact all [] distinct

/-- Of the names that are bound anew the last value counts. -/
theorem lookup_setAll (bindings : Bindings α) (added : List (Text × α)) (name : Text) :
    (setAll bindings added).lookup name =
      (added.reverse.lookup name).or (bindings.lookup name) := by
  induction added generalizing bindings with
  | nil => rfl
  | cons first rest ih =>
      obtain ⟨other, value⟩ := first
      have step : setAll bindings ((other, value) :: rest) =
          setAll (set other value bindings) rest := rfl
      rw [step, ih, lookup_set, List.reverse_cons, List.lookup_append, lookup_cons_eq,
        Option.or_assoc]
      congr 1
      split <;> rfl

theorem Distinct.lookup_setAll {added : List (Text × α)} (distinct : Distinct added)
    (bindings : Bindings α) (name : Text) :
    (setAll bindings added).lookup name = (added.lookup name).or (bindings.lookup name) := by
  have turned : Distinct added.reverse := by
    rw [Distinct, List.map_reverse]
    exact List.pairwise_reverse.mpr (List.Pairwise.imp Ne.symm distinct)
  have same : added.reverse.lookup name = added.lookup name := by
    apply Option.ext
    intro value
    rw [turned.lookup_iff, distinct.lookup_iff, List.mem_reverse]
  rw [Bindings.lookup_setAll, same]

private theorem set_map {β : Type} (change : α → β) (name : Text) (value : α)
    (bindings : Bindings α) :
    set name (change value) (bindings.map fun entry => (entry.1, change entry.2)) =
      (set name value bindings).map fun entry => (entry.1, change entry.2) := by
  induction bindings with
  | nil => rfl
  | cons first rest ih =>
      rw [List.map_cons, set, set]
      split
      · rfl
      · rw [ih, List.map_cons]

/-- Which place and which value count does not depend on what is made of the values. -/
theorem ofList_map {β : Type} (change : α → β) (entries : List (Text × α)) :
    ofList (entries.map fun entry => (entry.1, change entry.2)) =
      (ofList entries).map fun entry => (entry.1, change entry.2) := by
  have all : ∀ bound : Bindings α,
      setAll (bound.map fun entry => (entry.1, change entry.2))
        (entries.map fun entry => (entry.1, change entry.2)) =
        (setAll bound entries).map fun entry => (entry.1, change entry.2) := by
    induction entries with
    | nil => exact fun _ => rfl
    | cons first rest ih =>
        intro bound
        have later := ih (set first.1 first.2 bound)
        rw [← set_map] at later
        exact later
  exact all []

end Bindings

end JsonTemplate
