import JsonTemplate.Proofs.Answers
import JsonTemplate.Proofs.Comparison.Facing
import JsonTemplate.Proofs.Comparison.Worklist
import Mathlib.Data.List.Basic

set_option autoImplicit false

/-!
# Comparing a template whose calls were answered

The texts that answer calls decide about value mismatches at the places of the calls, and about
nothing else that a comparison finds.
-/

namespace JsonTemplate

/-- A finding without the values that differ: a capture, or the place and the word of a difference.
Value mismatches at hidden places are not seen. -/
def Finding.outline? (hidden : Path → Bool) : Finding → Option (Text × Json ⊕ Path × Text)
  | .capture name value => some (.inl (name, value))
  | .difference found =>
      if found.mismatch.word = lit "VALUE_MISMATCH" ∧ hidden found.path then none
      else some (.inr (found.path, found.mismatch.word))

namespace Comparison

/-! ## What is found apart from the answers -/

section Outline

variable {mode : Mode} {hidden : Path → Bool}

private theorem outline_other {difference : Difference}
    (other : difference.mismatch.word ≠ lit "VALUE_MISMATCH") :
    Finding.outline? hidden (.difference difference) =
      some (.inr (difference.path, difference.mismatch.word)) :=
  if_neg fun both => other both.1

private theorem outline_kind (path : Path) (expected actual : Json) :
    Finding.outline? hidden (.difference ⟨path, .kind expected actual⟩) =
      some (.inr (path, lit "TYPE_MISMATCH")) := by
  apply outline_other
  simp only [Mismatch.word]
  decide

private theorem outline_missing (path : Path) (expected : Json) :
    Finding.outline? hidden (.difference ⟨path, .missing expected⟩) =
      some (.inr (path, lit "MISSING_PROPERTY")) := by
  apply outline_other
  simp only [Mismatch.word]
  decide

private theorem outline_value {path : Path} (here : hidden path = true) (expected actual : Json) :
    Finding.outline? hidden (.difference ⟨path, .value expected actual⟩) = none :=
  if_pos ⟨rfl, here⟩

/-- The calls of a template found at `path` are at hidden places. -/
def Covers (hidden : Path → Bool) (path : Path) (template : Template) : Prop :=
  ∀ leaf ∈ template.callLeaves, hidden (path ++ leaf.1) = true

/-- Whatever answers the calls of a template, what is found apart from value mismatches at hidden
places is what is found when every call stands for its own text. -/
def OutlineKept (mode : Mode) (hidden : Path → Bool) (template : Template) : Prop :=
  ∀ (path : Path) (assign : Path → Text) (actual : Json), Covers hidden path template →
    (findings mode path (template.answer assign) actual).filterMap (Finding.outline? hidden) =
      (findings mode path template actual).filterMap (Finding.outline? hidden)

private theorem covers_item {path : Path} {items : List Template}
    (covers : Covers hidden path (.array items))
    {position : Nat} {item : Template} (located : items[position]? = some item) :
    Covers hidden (path ++ [.index position]) item := by
  intro leaf listed
  rw [List.append_assoc]
  apply covers (.index position :: leaf.1, leaf.2)
  rw [Template.callLeaves_array, List.mem_flatMap]
  exact ⟨(item, position), List.mk_mem_zipIdx_iff_getElem?.mpr located,
    List.mem_map_of_mem listed⟩

private theorem covers_member {path : Path} {members : List (Text × Template)}
    (covers : Covers hidden path (.object members)) {member : Text × Template}
    (included : member ∈ members) : Covers hidden (path ++ [.key member.1]) member.2 := by
  intro leaf listed
  rw [List.append_assoc]
  apply covers (.key member.1 :: leaf.1, leaf.2)
  rw [Template.callLeaves_object, List.mem_flatMap]
  exact ⟨member, included, List.mem_map_of_mem listed⟩

private theorem outline_call (name : Text) : OutlineKept mode hidden (.string (.call name)) := by
  intro path assign actual covers
  have here : hidden path = true := by
    have covered := covers ([], name) List.mem_cons_self
    rwa [List.append_nil] at covered
  have answered : Template.answer assign (.string (.call name)) = .string (.literal (assign [])) :=
    rfl
  rw [answered]
  cases actual with
  | string text =>
      have unseen : ∀ slot : Slot, (differs path (.value (.string slot.text)
          (.string text))).filterMap (Finding.outline? hidden) = [] := by
        intro slot
        simp [differs, outline_value here]
      simp only [findings, leafFindings]
      split <;> split <;> simp [unseen]
  | _ => simp [findings, leafFindings, differs, outline_kind]

private theorem outline_items {items : List Template}
    (each : ∀ item ∈ items, OutlineKept mode hidden item) (path : Path) (position : Nat)
    (assign : Nat → Path → Text) (others : List Json)
    (covers : ∀ (offset : Nat) item, items[offset]? = some item →
      Covers hidden (path ++ [.index (position + offset : Nat)]) item) :
    (itemFindings mode path position (items.mapIdx fun offset item => item.answer (assign offset))
      others).filterMap (Finding.outline? hidden) =
      (itemFindings mode path position items others).filterMap (Finding.outline? hidden) := by
  induction items generalizing position assign others with
  | nil => rfl
  | cons item rest ih =>
      cases others with
      | nil => simp [itemFindings]
      | cons found others =>
          have first := each item List.mem_cons_self (path ++ [.index position]) (assign 0) found
            (covers 0 item rfl)
          have later := ih (fun other member => each other (List.mem_cons_of_mem item member))
            (position + 1) (fun offset => assign (offset + 1)) others fun offset other located => by
              rw [Nat.add_right_comm]
              exact covers (offset + 1) other located
          simp only [List.mapIdx_cons, itemFindings, List.filterMap_append, first, later]

private theorem outline_members {members : List (Text × Template)}
    (each : ∀ member ∈ members, OutlineKept mode hidden member.2) (path : Path)
    (assign : Text → Path → Text) (actual : List (Text × Json))
    (covers : ∀ member ∈ members, Covers hidden (path ++ [.key member.1]) member.2) :
    (memberFindings mode path actual (members.map fun member =>
      (member.1, member.2.answer (assign member.1)))).filterMap (Finding.outline? hidden) =
      (memberFindings mode path actual members).filterMap (Finding.outline? hidden) := by
  induction members with
  | nil => rfl
  | cons member rest ih =>
      obtain ⟨key, wanted⟩ := member
      have later := ih (fun other member => each other (List.mem_cons_of_mem _ member))
        fun other member => covers other (List.mem_cons_of_mem _ member)
      simp only [List.map_cons, memberFindings, List.filterMap_append, later]
      congr 1
      cases actual.lookup key with
      | none => simp [differs, outline_missing]
      | some found =>
          exact each (key, wanted) List.mem_cons_self _ (assign key) found
            (covers (key, wanted) List.mem_cons_self)

theorem outline_answer (mode : Mode) (hidden : Path → Bool) (template : Template) :
    OutlineKept mode hidden template := by
  induction template using Tree.inductionOn with
  | string slot =>
      cases slot with
      | call name => exact outline_call name
      | _ => exact fun _ _ _ _ => rfl
  | array items ih =>
      intro path assign actual covers
      rw [Template.answer_array]
      cases actual with
      | array others =>
          rw [findings, findings, List.length_mapIdx]
          split
          · refine outline_items ih path 0 _ others fun offset item located => ?_
            rw [Nat.zero_add]
            exact covers_item covers located
          · rfl
      | _ => simp [findings, leafFindings, differs, outline_kind]
  | object members ih =>
      intro path assign actual covers
      rw [Template.answer_object]
      cases actual with
      | object others =>
          have extra : unexpectedFindings mode path (members.map fun member => (member.1,
              Template.answer (fun place => assign (.key member.1 :: place)) member.2)) others =
              unexpectedFindings mode path members others := by
            rw [unexpectedFindings_eq, unexpectedFindings_eq, map_fst_map]
          rw [findings, findings, List.filterMap_append, List.filterMap_append, extra]
          congr 1
          exact outline_members (fun member included => ih member.1 member.2 included) path
            (fun key place => assign (.key key :: place)) others fun member included =>
              covers_member covers included
      | _ => simp [findings, leafFindings, differs, outline_kind]
  | _ => exact fun _ _ _ _ => rfl

/-! ## Captures and differences of an outline -/

theorem capturesOf_outline (hidden : Path → Bool) (found : List Finding) :
    capturesOf found = (found.filterMap (Finding.outline? hidden)).filterMap Sum.getLeft? := by
  rw [capturesOf, List.filterMap_filterMap]
  congr 1
  funext finding
  cases finding with
  | capture => rfl
  | difference difference =>
      simp only [Finding.captured?, Finding.outline?]
      split <;> rfl

def differenceOutline (hidden : Path → Bool) (differences : List Difference) : List (Path × Text) :=
  (differences.filter fun difference =>
    ¬ (difference.mismatch.word = lit "VALUE_MISMATCH" ∧ hidden difference.path)).map
    fun difference => (difference.path, difference.mismatch.word)

theorem differenceOutline_eq (hidden : Path → Bool) (found : List Finding) :
    differenceOutline hidden (differencesOf found) =
      (found.filterMap (Finding.outline? hidden)).filterMap Sum.getRight? := by
  rw [differenceOutline, differencesOf, List.filter_filterMap, List.map_filterMap,
    List.filterMap_filterMap]
  congr 1
  funext finding
  cases finding with
  | capture => rfl
  | difference difference =>
      simp only [Finding.difference?, Finding.outline?, Option.filter_some, decide_eq_true_eq]
      split <;> simp_all

end Outline

/-! ## Value mismatches at calls -/

theorem Facing.answer {expected left : Template} {actual right : Json} {place : Path}
    (facing : Facing expected actual place left right) (assign : Path → Text) :
    Facing (expected.answer assign) actual place
      (left.answer fun below => assign (place ++ below)) right := by
  induction facing generalizing assign with
  | here => exact .here
  | member included located _ ih =>
      rw [Template.answer_object]
      exact .member (List.mem_map_of_mem included) located
        (ih fun below => assign (.key _ :: below))
  | @item expected actual position wanted left found right place aligned wantedAt foundAt _ ih =>
      rw [Template.answer_array]
      refine .item ?_ ?_ foundAt (ih fun below => assign (.index position :: below))
      · rw [List.length_mapIdx, aligned]
      · rw [List.getElem?_mapIdx, wantedAt]
        rfl

/-- Two nodes report a value mismatch by themselves when they are scalars of one kind that are not
the same, and report it where they stand. -/
theorem Own.of_value {mode : Mode} {left : Template} {right : Json} {difference : Difference}
    (owned : Own mode left right (.difference difference))
    (value : difference.mismatch.word = lit "VALUE_MISMATCH") :
    difference.path = [] ∧ ¬ SameScalar left right := by
  cases owned with
  | value _ _ _ unequal => exact ⟨rfl, unequal⟩
  | _ => exact absurd value (by simp only [Mismatch.word]; decide)

/-- Where a call faces a string, a value mismatch says that the string is not the answer. -/
theorem value_mismatch_iff {mode : Mode} {template : Template} {actual : Json} {place : Path}
    {name text : Text} {assign : Path → Text} (distinct : (template.answer assign).DistinctKeys)
    (facing : Facing template actual place (.string (.call name)) (.string text)) :
    (∃ difference ∈ differencesOf (findings mode [] (template.answer assign) actual),
      difference.path = place ∧ difference.mismatch.word = lit "VALUE_MISMATCH") ↔
      text ≠ assign place := by
  have answered : Facing (template.answer assign) actual place
      (.string (.literal (assign (place ++ [])))) (.string text) := facing.answer assign
  rw [List.append_nil] at answered
  constructor
  · intro ⟨difference, member, here, value⟩ same
    obtain ⟨above, left, right, own, other, owned, rfl⟩ := mem_differences_iff.mp member
    obtain ⟨root, unequal⟩ := owned.of_value value
    have there : above = place := by simpa [root] using here
    subst there
    have leftSame := (other.expected_at distinct).symm.trans (answered.expected_at distinct)
    have rightSame := other.actual_at.symm.trans answered.actual_at
    cases leftSame
    cases rightSame
    exact unequal (same ▸ .string)
  · intro unequal
    have plain : ¬ Template.IsCapture (.string (.literal (assign place))) := by
      intro ⟨other, same⟩
      cases same
    have different : ¬ SameScalar (.string (.literal (assign place))) (.string text) := by
      intro same
      cases same
      exact unequal rfl
    have owned : Own mode (.string (.literal (assign place))) (.string text) _ :=
      .value plain rfl ⟨nofun, nofun⟩ different
    let difference : Difference := ⟨place, .value (.string (assign place)) (.string text)⟩
    refine ⟨difference, mem_differences_iff.mpr ?_, rfl, rfl⟩
    refine ⟨place, _, _, _, answered, owned, ?_⟩
    simp only [List.append_nil]
    rfl

end Comparison

end JsonTemplate
