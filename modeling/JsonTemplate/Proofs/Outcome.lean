import Mathlib.Data.List.Forall2

set_option autoImplicit false

/-!
# Steps that may fail
-/

namespace JsonTemplate

variable {ε δ α β : Type}

theorem ok_of_bind {first : Except ε α} {next : α → Except ε β} {result : β}
    (accepted : first >>= next = .ok result) :
    ∃ value, first = .ok value ∧ next value = .ok result := by
  cases first with
  | error stop => cases accepted
  | ok value => exact ⟨value, rfl, accepted⟩

theorem ok_of_map {outcome : Except ε α} {change : α → β} {result : β}
    (accepted : outcome.map change = .ok result) :
    ∃ value, outcome = .ok value ∧ change value = result := by
  cases outcome with
  | error stop => cases accepted
  | ok value => exact ⟨value, rfl, Except.ok.inj accepted⟩

theorem ok_of_mapError {outcome : Except ε α} {change : ε → δ} {result : α}
    (accepted : outcome.mapError change = .ok result) : outcome = .ok result := by
  cases outcome with
  | error stop => cases accepted
  | ok value => exact congrArg Except.ok (Except.ok.inj accepted)

theorem error_of_bind {first : Except ε α} {next : α → Except ε β} {stop : ε}
    (failed : first >>= next = .error stop) :
    first = .error stop ∨ ∃ value, first = .ok value ∧ next value = .error stop := by
  cases first with
  | error other =>
      cases failed
      exact .inl rfl
  | ok value => exact .inr ⟨value, rfl, failed⟩

theorem error_of_map {outcome : Except ε α} {change : α → β} {stop : ε}
    (failed : outcome.map change = .error stop) : outcome = .error stop := by
  cases outcome with
  | error other =>
      cases failed
      rfl
  | ok value => cases failed

theorem error_of_mapError {outcome : Except ε α} {change : ε → δ} {stop : δ}
    (failed : outcome.mapError change = .error stop) :
    ∃ cause, outcome = .error cause ∧ change cause = stop := by
  cases outcome with
  | error cause => exact ⟨cause, rfl, Except.error.inj failed⟩
  | ok value => cases failed

theorem related_of_some {related : α → β → Prop} {left : Option α} {right : Option β}
    (same : Option.Rel related left right) {item : β} (found : right = some item) :
    ∃ source, left = some source ∧ related source item := by
  subst found
  cases same with
  | some here => exact ⟨_, rfl, here⟩

theorem eq_none_iff_of_related {related : α → β → Prop} {left : Option α} {right : Option β}
    (same : Option.Rel related left right) : left = none ↔ right = none := by
  cases same <;> simp

theorem exists_of_mem_right {related : α → β → Prop} {left : List α} {right : List β}
    (each : List.Forall₂ related left right) :
    ∀ second ∈ right, ∃ first ∈ left, related first second := by
  induction each with
  | nil => nofun
  | @cons first second _ _ here _ ih =>
      refine List.forall_mem_cons.mpr ⟨⟨first, List.mem_cons_self, here⟩, fun other member => ?_⟩
      obtain ⟨partner, included, same⟩ := ih other member
      exact ⟨partner, List.mem_cons_of_mem first included, same⟩

theorem exists_of_mem_left {related : α → β → Prop} {left : List α} {right : List β}
    (each : List.Forall₂ related left right) :
    ∀ first ∈ left, ∃ second ∈ right, related first second :=
  exists_of_mem_right each.flip

theorem forall₂_imp_of_mem {related other : α → β → Prop} {left : List α} {right : List β}
    (each : List.Forall₂ related left right)
    (imp : ∀ first ∈ left, ∀ second, related first second → other first second) :
    List.Forall₂ other left right := by
  induction each with
  | nil => exact .nil
  | cons here _ ih =>
      obtain ⟨first, others⟩ := List.forall_mem_cons.mp imp
      exact .cons (first _ here) (ih others)

theorem forall₂_of_mapM {step : α → Except ε β} {items : List α} {results : List β}
    (accepted : items.mapM step = .ok results) :
    List.Forall₂ (fun item result => step item = .ok result) items results := by
  induction items generalizing results with
  | nil =>
      cases accepted
      exact .nil
  | cons item items ih =>
      rw [List.mapM_cons] at accepted
      obtain ⟨result, first, accepted⟩ := ok_of_bind accepted
      obtain ⟨others, further, accepted⟩ := ok_of_bind accepted
      cases accepted
      exact .cons first (ih further)

theorem mapM_total {step : α → Except ε β} {items : List α}
    (each : ∀ item ∈ items, ∃ result, step item = .ok result) :
    ∃ results, items.mapM step = .ok results := by
  induction items with
  | nil => exact ⟨[], rfl⟩
  | cons item items ih =>
      obtain ⟨result, first⟩ := each item (by simp)
      obtain ⟨results, others⟩ := ih fun other member => each other (by simp [member])
      exact ⟨result :: results, by simp [List.mapM_cons, first, others, bind, Except.bind]; rfl⟩

theorem ok_of_mapM {step : α → Except ε β} {items : List α} {results : List β}
    (accepted : items.mapM step = .ok results) :
    ∀ item ∈ items, ∃ result, step item = .ok result := by
  have each := forall₂_of_mapM accepted
  clear accepted
  induction each with
  | nil => nofun
  | @cons item result _ _ first _ ih => exact List.forall_mem_cons.mpr ⟨⟨result, first⟩, ih⟩

theorem some_of_mapM {step : α → Option β} {items : List α} {results : List β}
    (found : items.mapM step = some results) :
    ∀ item ∈ items, ∃ result, step item = some result := by
  induction items generalizing results with
  | nil => nofun
  | cons item items ih =>
      simp only [List.mapM_cons, Option.bind_eq_bind, Option.bind_eq_some_iff] at found
      obtain ⟨result, first, others, further, _⟩ := found
      exact List.forall_mem_cons.mpr ⟨⟨result, first⟩, ih further⟩

theorem mapM_imp {step other : α → Option β} {items : List α} {results : List β}
    (each : ∀ item result, step item = some result → other item = some result)
    (found : items.mapM step = some results) : items.mapM other = some results := by
  induction items generalizing results with
  | nil => exact found
  | cons item items ih =>
      simp only [List.mapM_cons, Option.bind_eq_bind, Option.bind_eq_some_iff] at found ⊢
      obtain ⟨result, first, others, further, same⟩ := found
      exact ⟨result, each item result first, others, ih further, same⟩

theorem mapM_of_forall₂ {related : β → α → Prop} {step : α → Option β} {items : List α}
    {results : List β} (each : List.Forall₂ related results items)
    (found : ∀ result ∈ results, ∀ item, related result item → step item = some result) :
    items.mapM step = some results := by
  induction each with
  | nil => rfl
  | cons here _ ih =>
      obtain ⟨first, others⟩ := List.forall_mem_cons.mp found
      rw [List.mapM_cons, first _ here, ih others]
      rfl

theorem bind_eq_ok_iff {first : Except ε α} {next : α → Except ε β} {result : β} :
    first >>= next = .ok result ↔ ∃ value, first = .ok value ∧ next value = .ok result := by
  refine ⟨ok_of_bind, ?_⟩
  rintro ⟨value, rfl, accepted⟩
  exact accepted

/-! ## The cause of a failure -/

theorem bind_eq_error_iff {first : Except ε α} {next : α → Except ε β} {cause : ε} :
    first >>= next = .error cause ↔
      first = .error cause ∨ ∃ value, first = .ok value ∧ next value = .error cause := by
  refine ⟨error_of_bind, ?_⟩
  rintro (rfl | ⟨value, rfl, failed⟩)
  · rfl
  · exact failed

theorem error_at {first : Except ε α} {next : α → Except ε β} {cause : ε}
    (failed : first = .error cause) : first >>= next = .error cause :=
  bind_eq_error_iff.mpr (.inl failed)

theorem error_after {first : Except ε α} {next : α → Except ε β} {value : α} {cause : ε}
    (done : first = .ok value) (failed : next value = .error cause) :
    first >>= next = .error cause :=
  bind_eq_error_iff.mpr (.inr ⟨value, done, failed⟩)

/-- The first step that fails is the one that counts; those behind it are not looked at. -/
theorem mapM_eq_error_iff {fault : δ → ε → Prop} {step : α → Except ε β} {sources : List δ}
    {items : List α}
    (each : List.Forall₂ (fun source item => ∀ cause, step item = .error cause ↔ fault source cause)
      sources items) {cause : ε} :
    items.mapM step = .error cause ↔ ∃ before source after, sources = before ++ source :: after ∧
      (∀ earlier ∈ before, ∀ other, ¬ fault earlier other) ∧ fault source cause := by
  induction each with
  | nil =>
      refine ⟨nofun, ?_⟩
      rintro ⟨before, source, after, split, _⟩
      cases before <;> cases split
  | @cons first item rest items here _ ih =>
      rw [List.mapM_cons, bind_eq_error_iff]
      constructor
      · rintro (failed | ⟨result, done, failed⟩)
        · exact ⟨[], first, rest, rfl, nofun, (here cause).mp failed⟩
        · obtain further | ⟨_, _, impossible⟩ := bind_eq_error_iff.mp failed
          · obtain ⟨before, source, after, rfl, none, stopped⟩ := ih.mp further
            have fine : ∀ other, ¬ fault first other := fun other failed => by
              cases done.symm.trans ((here other).mpr failed)
            exact ⟨first :: before, source, after, rfl, List.forall_mem_cons.mpr ⟨fine, none⟩,
              stopped⟩
          · cases impossible
      · rintro ⟨before, source, after, split, none, stopped⟩
        cases before with
        | nil =>
            cases split
            exact .inl ((here cause).mpr stopped)
        | cons earlier before =>
            cases split
            obtain ⟨fine, none⟩ := List.forall_mem_cons.mp none
            cases done : step item with
            | error other => exact absurd ((here other).mp done) (fine other)
            | ok result =>
                refine .inr ⟨result, rfl, ?_⟩
                rw [ih.mpr ⟨before, source, after, rfl, none, stopped⟩]
                rfl

/-- A step is done exactly under a condition, and otherwise has always the same cause to fail. -/
inductive Decided (condition : Prop) (cause : ε) : Except ε α → Prop where
  | done {result : α} : condition → Decided condition cause (.ok result)
  | failed : ¬ condition → Decided condition cause (.error cause)

namespace Decided

variable {condition other : Prop} {cause : ε}

theorem ok_iff {outcome : Except ε α} (decided : Decided condition cause outcome) :
    (∃ result, outcome = .ok result) ↔ condition := by
  cases decided with
  | done met => exact iff_of_true ⟨_, rfl⟩ met
  | failed unmet => exact iff_of_false nofun unmet

theorem error_iff {outcome : Except ε α} (decided : Decided condition cause outcome) {found : ε} :
    outcome = .error found ↔ ¬ condition ∧ found = cause := by
  cases decided with
  | done met => exact iff_of_false nofun fun both => both.1 met
  | failed unmet => simp [unmet, eq_comm]

theorem congr {outcome : Except ε α} (decided : Decided condition cause outcome)
    (same : condition ↔ other) : Decided other cause outcome :=
  (propext same) ▸ decided

theorem mapError {outcome : Except ε α} (decided : Decided condition cause outcome)
    (change : ε → δ) : Decided condition (change cause) (outcome.mapError change) := by
  cases decided with
  | done met => exact .done met
  | failed unmet => exact .failed unmet

theorem bind {first : Except ε α} {next : α → Except ε β} (decided : Decided condition cause first)
    (further : ∀ value, Decided other cause (next value)) :
    Decided (condition ∧ other) cause (first >>= next) := by
  cases decided with
  | @done value met => exact (further value).congr (by simp [met])
  | failed unmet => exact .failed fun both => unmet both.1

theorem total {first : Except ε α} {next : α → Except ε β} (decided : Decided condition cause first)
    (further : ∀ value, ∃ result, next value = .ok result) :
    Decided condition cause (first >>= next) := by
  cases decided with
  | @done value met =>
      obtain ⟨result, same⟩ := further value
      change Decided condition cause (next value)
      exact same ▸ .done met
  | failed unmet => exact .failed unmet

theorem mapM {related : δ → Prop} {step : α → Except ε β} {sources : List δ} {items : List α}
    (each : List.Forall₂ (fun source item => Decided (related source) cause (step item))
      sources items) :
    Decided (∀ source ∈ sources, related source) cause (items.mapM step) := by
  induction each with
  | nil => exact .done nofun
  | cons here _ ih =>
      rw [List.mapM_cons]
      have whole := here.bind fun result => ih.total fun results =>
        ⟨result :: results, rfl⟩
      exact whole.congr List.forall_mem_cons.symm

end Decided

end JsonTemplate
