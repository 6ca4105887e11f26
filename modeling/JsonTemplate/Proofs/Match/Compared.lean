import JsonTemplate.Match
import JsonTemplate.Proofs.Json.Readable
import JsonTemplate.Proofs.Outcome
import JsonTemplate.Proofs.Resolution

set_option autoImplicit false

/-!
# What a match compares

No object of a document that is read has a key twice, and resolving the calls of a template keeps
its keys. So a match that gives a result has compared two trees with distinct keys, and no call was
left in the first.
-/

namespace JsonTemplate

namespace Resolve

variable {σ : Type} {α β : Type}

theorem ok_of_bind {first : Resolve σ α} {next : α → Resolve σ β} {before after : Progress σ}
    {result : β} (done : (first >>= next) before = (.ok result, after)) :
    ∃ value between, first before = (.ok value, between) ∧
      next value between = (.ok result, after) := by
  change (match first before with
    | (outcome, between) => ExceptT.bindCont next outcome between) = _ at done
  cases ran : first before with
  | mk outcome between =>
      rw [ran] at done
      cases outcome with
      | error stop => cases done
      | ok value => exact ⟨value, between, rfl, done⟩

private theorem ok_of_pure {value result : α} {before after : Progress σ}
    (done : (pure value : Resolve σ α) before = (.ok result, after)) : value = result := by
  cases done
  rfl

private theorem slot_ok {registry : Registry σ} {leaf resolved : Slot} {before after : Progress σ}
    (done : slot registry leaf before = (.ok resolved, after)) : ∀ name, resolved ≠ .call name := by
  cases leaf with
  | call name =>
      obtain ⟨text, _, rfl⟩ := ok_of_map (congrArg Prod.fst done)
      exact fun _ => nofun
  | _ =>
      cases done
      exact fun _ => nofun

/-- Every item of a resolved array was resolved from an item. -/
theorem templateItems_ok {registry : Registry σ} {items results : List Template}
    {before after : Progress σ}
    (done : templateItems registry items before = (.ok results, after)) :
    ∀ result ∈ results, ∃ item ∈ items, ∃ start stop,
      template registry item start = (.ok result, stop) := by
  induction items generalizing results before after with
  | nil =>
      cases ok_of_pure done
      simp
  | cons item rest ih =>
      obtain ⟨first, middle, one, done⟩ := ok_of_bind done
      obtain ⟨others, late, several, done⟩ := ok_of_bind done
      cases ok_of_pure done
      intro result member
      rcases List.mem_cons.mp member with rfl | later
      · exact ⟨item, List.mem_cons_self, before, middle, one⟩
      · obtain ⟨source, included, ran⟩ := ih several result later
        exact ⟨source, List.mem_cons_of_mem item included, ran⟩

/-- Every member of a resolved object was resolved from a member with its key. -/
theorem templateMembers_ok {registry : Registry σ} {members results : List (Text × Template)}
    {before after : Progress σ}
    (done : templateMembers registry members before = (.ok results, after)) :
    results.map Prod.fst = members.map Prod.fst ∧ ∀ result ∈ results, ∃ member ∈ members,
      ∃ start stop, template registry member.2 start = (.ok result.2, stop) := by
  induction members generalizing results before after with
  | nil =>
      cases ok_of_pure done
      simp
  | cons member rest ih =>
      obtain ⟨first, middle, one, done⟩ := ok_of_bind done
      obtain ⟨others, late, several, done⟩ := ok_of_bind done
      cases ok_of_pure done
      obtain ⟨keys, each⟩ := ih several
      refine ⟨by rw [List.map_cons, List.map_cons, keys], fun result included => ?_⟩
      rcases List.mem_cons.mp included with rfl | later
      · exact ⟨member, List.mem_cons_self, before, middle, one⟩
      · obtain ⟨source, inside, ran⟩ := each result later
        exact ⟨source, List.mem_cons_of_mem member inside, ran⟩

private theorem template_ok {registry : Registry σ} {source resolved : Template}
    {before after : Progress σ} (done : template registry source before = (.ok resolved, after))
    (distinct : source.DistinctKeys) : resolved.DistinctKeys ∧ resolved.NoCalls := by
  induction source using Tree.inductionOn generalizing resolved before after with
  | string leaf =>
      obtain ⟨kept, middle, one, done⟩ := ok_of_bind done
      cases ok_of_pure done
      refine ⟨.string, fun name found => ?_⟩
      cases found
      exact slot_ok one name rfl
  | array items ih =>
      obtain ⟨results, middle, several, done⟩ := ok_of_bind done
      cases ok_of_pure done
      have each := Tree.distinctKeys_array.mp distinct
      have good : ∀ result ∈ results, Tree.DistinctKeys result ∧ Template.NoCalls result := by
        intro result member
        obtain ⟨item, included, _, _, ran⟩ := templateItems_ok several result member
        exact ih item included ran (each item included)
      refine ⟨.array fun result member => (good result member).1, fun name found => ?_⟩
      cases found with
      | item member inside => exact (good _ member).2 name inside
  | object members ih =>
      obtain ⟨results, middle, several, done⟩ := ok_of_bind done
      cases ok_of_pure done
      obtain ⟨keys, origin⟩ := templateMembers_ok several
      obtain ⟨names, each⟩ := Tree.distinctKeys_object.mp distinct
      have good : ∀ result ∈ results,
          Tree.DistinctKeys result.2 ∧ Template.NoCalls result.2 := by
        intro result member
        obtain ⟨source, included, _, _, ran⟩ := origin result member
        exact ih source.1 source.2 included ran (each source included)
      refine ⟨Tree.distinctKeys_object.mpr ⟨?_, fun result member => (good result member).1⟩, ?_⟩
      · rw [Bindings.Distinct, keys]
        exact names
      · intro name found
        cases found with
        | member member inside => exact (good _ member).2 name inside
  | _ =>
      cases ok_of_pure done
      refine ⟨by simp, fun name found => ?_⟩
      cases found

end Resolve

/-- A resolved template has the keys of the template, and nothing in it is left to call. -/
theorem Template.resolve_ok {σ : Type} {registry : Registry σ} {template resolved : Template}
    {world : σ} {last : Progress σ} (distinct : template.DistinctKeys)
    (done : template.resolve registry world = (.ok resolved, last)) :
    resolved.DistinctKeys ∧ resolved.NoCalls := by
  rw [Template.resolve_eq registry distinct] at done
  exact Resolve.template_ok done distinct

namespace Match

variable {σ : Type}

theorem readBoth_distinctKeys {config : MatchConfig} {expected actual : Document}
    {template : Template} {document : Json}
    (accepted : readBoth config expected actual = .ok (template, document)) :
    template.DistinctKeys ∧ document.DistinctKeys := by
  obtain ⟨wanted, readExpected, accepted⟩ := JsonTemplate.ok_of_bind accepted
  obtain ⟨found, readActual, accepted⟩ := JsonTemplate.ok_of_bind accepted
  cases accepted
  obtain ⟨_, expectedText⟩ := Document.read_text readExpected
  obtain ⟨_, actualText⟩ := Document.read_text readActual
  exact ⟨(Json.readText_readable expectedText).distinctKeys.map Slot.ofText,
    (Json.readText_readable actualText).distinctKeys⟩

/-- A match that gives a result has compared two trees with distinct keys, without calls. -/
theorem run_compares {registry : Registry σ} {config : MatchConfig} {mode : Mode}
    {expected actual : Document} {world later : σ} {result : MatchResult}
    (ran : run registry config mode expected actual world = (.ok result, later)) :
    ∃ (template : Template) (document : Json), template.DistinctKeys ∧ document.DistinctKeys ∧
      template.NoCalls ∧ result = compareTrees config mode template document := by
  unfold run at ran
  cases accepted : readBoth config expected actual with
  | error failure =>
      rw [accepted] at ran
      cases ran
  | ok trees =>
      obtain ⟨template, document⟩ := trees
      rw [accepted] at ran
      obtain ⟨templateKeys, documentKeys⟩ := readBoth_distinctKeys accepted
      cases resolved : template.resolve registry world with
      | mk outcome progress =>
          simp only [resolved] at ran
          cases outcome with
          | error error => cases ran
          | ok final =>
              cases ran
              obtain ⟨finalKeys, noCalls⟩ := Template.resolve_ok templateKeys resolved
              exact ⟨final, document, finalKeys, documentKeys, noCalls, rfl⟩

end Match

end JsonTemplate
