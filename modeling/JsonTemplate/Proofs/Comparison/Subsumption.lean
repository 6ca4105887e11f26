import JsonTemplate.Proofs.Match.PlaceholderFree
import Mathlib

set_option autoImplicit false

/-!
# Subset mode as an order

Among documents without placeholders, passing a subset comparison is reflexive and transitive,
and two documents that pass for each other are equal by value. Members that are added to a
document that passes take nothing away from it.
-/

namespace JsonTemplate

/-! ## Added members -/

/-- Members are added to objects anywhere inside a document, each under a key that is new there. -/
inductive MembersAdded : Json → Json → Prop where
  | none {document : Json} : MembersAdded document document
  | further {first second third : Json} :
      MembersAdded first second → MembersAdded second third → MembersAdded first third
  | member {before after : List (Text × Json)} {key : Text} {value : Json} :
      key ∉ (before ++ after).map Prod.fst →
      MembersAdded (.object (before ++ after)) (.object (before ++ (key, value) :: after))
  | insideMember {before after : List (Text × Json)} {key : Text} {value grown : Json} :
      MembersAdded value grown →
      MembersAdded (.object (before ++ (key, value) :: after))
        (.object (before ++ (key, grown) :: after))
  | insideItem {before after : List Json} {item grown : Json} :
      MembersAdded item grown →
      MembersAdded (.array (before ++ item :: after)) (.array (before ++ grown :: after))

/-- Where one value of a list is replaced, looking a key up gives what it gave before, or the new
value for the old one. -/
theorem lookup_replaced {α : Type} {before after : List (Text × α)} {key other : Text}
    {replaced found : α} (value : α)
    (located : (before ++ (key, replaced) :: after).lookup other = some found) :
    (before ++ (key, value) :: after).lookup other = some found ∨
      found = replaced ∧ (before ++ (key, value) :: after).lookup other = some value := by
  rw [lookup_append_cons] at located
  simp only [lookup_append_cons]
  cases early : before.lookup other with
  | some first =>
      rw [early] at located
      exact .inl located
  | none =>
      rw [early] at located
      by_cases same : other = key
      · rw [if_pos same] at located ⊢
        exact .inr ⟨(Option.some.inj located).symm, rfl⟩
      · rw [if_neg same] at located ⊢
        exact .inl located

private theorem getElem?_replaced {α : Type} {before after : List α} {replaced found : α}
    {position : Nat} (value : α) (located : (before ++ replaced :: after)[position]? = some found) :
    (before ++ value :: after)[position]? = some found ∨
      found = replaced ∧ (before ++ value :: after)[position]? = some value := by
  have here : ∀ entry, (before ++ entry :: after)[before.length]? = some entry := by simp
  rcases Nat.lt_trichotomy position before.length with early | rfl | late
  · rw [List.getElem?_append_left early] at located ⊢
    exact .inl located
  · rw [here replaced] at located
    exact .inr ⟨(Option.some.inj located).symm, here value⟩
  · have behind : position - before.length ≠ 0 := Nat.sub_ne_zero_of_lt late
    rw [List.getElem?_append_right late.le] at located ⊢
    rw [List.getElem?_cons, if_neg behind] at located ⊢
    exact .inl located

namespace Comparison

private theorem Accepts.membersAdded {expected : Template} {first second : Json}
    (added : MembersAdded first second) (accepted : Accepts .subset expected first) :
    Accepts .subset expected second := by
  induction added generalizing expected with
  | none => exact accepted
  | further _ _ firstIH secondIH => exact secondIH (firstIH accepted)
  | @member before after key value fresh =>
      cases accepted with
      | capture => exact .capture
      | scalar _ same => cases same
      | object present _ each =>
          apply Accepts.object
          · intro name wanted
            have there := present name wanted
            simp only [List.map_append, List.map_cons, List.mem_append, List.mem_cons] at there ⊢
            exact there.imp_right .inr
          · nofun
          · intro name wanted found included located
            have other : name ≠ key := by
              intro same
              exact fresh (same ▸ present name (List.mem_map_of_mem included))
            rw [lookup_append_cons, if_neg other, ← List.lookup_append] at located
            exact each name wanted found included located
  | @insideMember before after key value grown _ ih =>
      cases accepted with
      | capture => exact .capture
      | scalar _ same => cases same
      | object present _ each =>
          apply Accepts.object
          · simpa using present
          · nofun
          · intro name wanted found included located
            rcases lookup_replaced value located with before | ⟨rfl, before⟩
            · exact each name wanted found included before
            · exact ih (each name wanted value included before)
  | @insideItem before after item grown _ ih =>
      cases accepted with
      | capture => exact .capture
      | scalar _ same => cases same
      | array aligned each =>
          apply Accepts.array
          · simpa using aligned
          · intro position wanted found wantedAt foundAt
            rcases getElem?_replaced item foundAt with before | ⟨rfl, before⟩
            · exact each position wanted found wantedAt before
            · exact ih (each position wanted item wantedAt before)

/-! ## Passing as an order -/

theorem SameScalar.trans {expected : Template} {middle actual : Json}
    (first : SameScalar expected middle) (second : SameScalar (Template.literal middle) actual) :
    SameScalar expected actual := by
  cases first with
  | null => cases second; exact .null
  | boolean => cases second; exact .boolean
  | number equal => cases second with | number further => exact .number (equal.trans further)
  | string => cases second; exact .string

/-- The induction is on how the template meets the document in the middle, which says at every
node what the template of that document asks for. -/
theorem Accepts.trans {mode : Mode} {expected : Template} {middle actual : Json}
    (first : Accepts mode expected middle)
    (second : Accepts mode (Template.literal middle) actual) : Accepts mode expected actual := by
  induction first generalizing actual with
  | capture => exact .capture
  | @scalar expected middle plain same =>
      have scalar : (Template.literal middle).kind.IsScalar := by
        cases same <;> exact ⟨nofun, nofun⟩
      exact .scalar plain (same.trans (second.sameScalar (literal_not_capture middle) scalar))
  | @array expected items aligned _ ih =>
      obtain ⟨others, rfl, further, inside⟩ := accepts_literal_array_iff.mp second
      refine .array (aligned.trans further) fun position wanted found wantedAt foundAt => ?_
      obtain ⟨item, middleAt⟩ := exists_getElem?_of_aligned aligned wantedAt
      exact ih position wanted item wantedAt middleAt (inside position item found middleAt foundAt)
  | @object expected members present expectedOnly _ ih =>
      obtain ⟨others, rfl, further, membersOnly, inside⟩ := accepts_literal_object_iff.mp second
      apply Accepts.object
      · intro key wanted
        exact further key (present key wanted)
      · intro exactly key found
        exact expectedOnly exactly key (membersOnly exactly key found)
      · intro key wanted found included located
        have there := present key (List.mem_map_of_mem included)
        obtain ⟨value, middleAt⟩ := exists_lookup_of_mem there
        exact ih key wanted value included middleAt
          (inside key value found (mem_of_lookup_eq_some middleAt) located)

/-- Documents that accept each other are equal by value: neither has a key that the other
lacks. -/
theorem sameValue_of_mutual {mode : Mode} {first second : Json}
    (there : Accepts mode (Template.literal first) second)
    (back : Accepts mode (Template.literal second) first) : SameValue first second := by
  induction first using Tree.inductionOn generalizing second with
  | array items ih =>
      obtain ⟨others, rfl, aligned, each⟩ := accepts_literal_array_iff.mp there
      obtain ⟨_, same, _, converse⟩ := accepts_literal_array_iff.mp back
      cases same
      refine .array aligned fun position wanted found wantedAt foundAt => ?_
      exact ih wanted (List.mem_of_getElem? wantedAt) (each position wanted found wantedAt foundAt)
        (converse position found wanted foundAt wantedAt)
  | object members ih =>
      obtain ⟨others, rfl, present, _, each⟩ := accepts_literal_object_iff.mp there
      obtain ⟨_, same, returned, _, converse⟩ := accepts_literal_object_iff.mp back
      cases same
      refine .object (fun key => ⟨present key, returned key⟩) ?_
      intro key wanted found wantedAt foundAt
      have included := mem_of_lookup_eq_some wantedAt
      have other := mem_of_lookup_eq_some foundAt
      exact ih key wanted included (each key wanted found included foundAt)
        (converse key found wanted other wantedAt)
  | _ => exact (there.sameScalar (literal_not_capture _) ⟨nofun, nofun⟩).sameValue

/-- A fresh comparison of a document with the template that another one spells succeeds. -/
def Passes (mode : Mode) (policy : CapturePolicy) (wanted found : Json) : Prop :=
  (compare mode policy .empty [] (Template.ofJson wanted) found).1 = true

private theorem passes_iff {mode : Mode} {policy : CapturePolicy} {wanted found : Json}
    (free : PlaceholderFree wanted) :
    Passes mode policy wanted found ↔ Accepts mode (Template.literal wanted) found := by
  rw [Passes, Template.ofJson_eq_literal free, compare_iff_accepts]

/-- Passing a subset comparison is a preorder on documents without placeholders, and a document
that passes still does with members added at any depth. Documents that pass for each other are
equal by value, and pass the exact comparison both ways. -/
theorem subset_preorder (policy : CapturePolicy) {first second : Json}
    (firstKeys : first.DistinctKeys) (secondKeys : second.DistinctKeys)
    (firstFree : PlaceholderFree first) (secondFree : PlaceholderFree second) :
    Passes .subset policy first first ∧
    (∀ third, Passes .subset policy first second → Passes .subset policy second third →
      Passes .subset policy first third) ∧
    (∀ third, Passes .subset policy first second → MembersAdded second third →
      Passes .subset policy first third) ∧
    (Passes .subset policy first second → Passes .subset policy second first →
      Passes .exact policy first second ∧ Passes .exact policy second first ∧
        SameValue first second) := by
  simp only [passes_iff firstFree, passes_iff secondFree]
  refine ⟨?_, ?_, ?_, ?_⟩
  · exact accepts_of_sameValue .subset firstKeys (.refl first)
  · intro third accepted further
    exact accepted.trans further
  · intro third accepted added
    exact accepted.membersAdded added
  · intro there back
    have same := sameValue_of_mutual there back
    exact ⟨accepts_of_sameValue .exact firstKeys same,
      accepts_of_sameValue .exact secondKeys same.symm, same⟩

/-- A number written in two ways, and members added around an array and inside its item. -/
theorem subset_preorder_added :
    let first : Json := .object
      [(lit "items", .array [.object [(lit "id", .number (.decimal ⟨false, 10, -1⟩))]])]
    let second : Json := .object [(lit "items", .array
      [.object [(lit "id", .number (.integer 1)), (lit "tag", .string (lit "[x]"))]])]
    let grown : Json := .object [(lit "extra", .null), (lit "items", .array
      [.object [(lit "id", .number (.integer 1)), (lit "note", .null),
        (lit "tag", .string (lit "[x]"))]])]
    first.DistinctKeys ∧ second.DistinctKeys ∧ PlaceholderFree first ∧ PlaceholderFree second ∧
      Passes .subset .last first second ∧ ¬ Passes .subset .last second first ∧
      MembersAdded second grown ∧ Passes .subset .last first grown := by
  intro first second grown
  have firstKeys : first.DistinctKeys := by simp [first, Bindings.Distinct]
  have secondKeys : second.DistinctKeys := by simp [second, Bindings.Distinct, lit]
  have firstFree : PlaceholderFree first := placeholderFree_of_scan (by decide)
  have secondFree : PlaceholderFree second := placeholderFree_of_scan (by decide)
  have passes : Passes .subset .last first second := by
    rw [Passes, compare_empty]
    cbv
  have fails : ¬ Passes .subset .last second first := by
    rw [Passes, compare_empty]
    cbv
    exact Bool.false_ne_true
  have added : MembersAdded second grown := by
    apply MembersAdded.further
    · apply @MembersAdded.insideMember [] []
      apply @MembersAdded.insideItem [] []
      exact @MembersAdded.member [_] [_] (lit "note") .null (by decide)
    · exact @MembersAdded.member [] [_] (lit "extra") .null (by decide)
  obtain ⟨_, _, stays, _⟩ := subset_preorder .last firstKeys secondKeys firstFree secondFree
  exact ⟨firstKeys, secondKeys, firstFree, secondFree, passes, fails, added,
    stays grown passes added⟩

end Comparison

end JsonTemplate
