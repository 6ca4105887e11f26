import JsonTemplate.Proofs.Place
import JsonTemplate.Resolution

set_option autoImplicit false

/-!
# Resolving from a stack

What is resolved from a stack is what a recursion over the template resolves: the entry in front is
copied as a whole, with all calls in it, before the entries behind it have their turn.
-/

namespace JsonTemplate

namespace Copy

variable {α : Type}

private theorem modify_slot (change : α → α) (done others : List α) (hole : α) :
    (done ++ hole :: others).modify done.length change = done ++ change hole :: others := by
  induction done with
  | nil => rfl
  | cons first done ih => simp [ih]

private theorem findIdx_modify {change : α → α} {wanted : α → Bool}
    (kept : ∀ entry, wanted (change entry) = wanted entry) (entries : List α) (position : Nat) :
    (entries.modify position change).findIdx wanted = entries.findIdx wanted := by
  induction entries generalizing position with
  | nil => cases position <;> rfl
  | cons first rest ih =>
      cases position with
      | zero => simp [List.findIdx_cons, kept]
      | succ position => simp [List.findIdx_cons, ih]

private theorem findIdx_slot {done others : List (Text × Copy)} {key : Text}
    (fresh : key ∉ done.map Prod.fst) (hole : Copy) :
    (done ++ (key, hole) :: others).findIdx (fun slot => slot.1 = key) = done.length := by
  induction done with
  | nil => simp [List.findIdx_cons]
  | cons first done ih =>
      obtain ⟨other, later⟩ := not_or.mp (mt List.mem_cons.mpr fresh)
      simp [List.findIdx_cons, Ne.symm other, ih later]

private theorem modifySlot_modifySlot (first second : Copy → Copy) (whole : Copy) (step : Segment) :
    (whole.modifySlot first step).modifySlot second step =
      whole.modifySlot (fun held => second (first held)) step := by
  cases whole with
  | leaf => rfl
  | array slots =>
      obtain ⟨slots⟩ := slots
      cases step with
      | key => rfl
      | index position =>
          cases position with
          | ofNat position =>
              simp only [modifySlot, List.modify_toArray, List.modify_modify_eq]
              rfl
          | negSucc => rfl
  | object slots =>
      obtain ⟨slots⟩ := slots
      cases step with
      | key name =>
          -- The keys of the slots stay, so the second change meets the slot of the first one.
          have same := @findIdx_modify _ (fun slot : Text × Copy => (slot.1, first slot.2))
            (fun slot => slot.1 = name) (fun _ => rfl) slots
          simp only [modifySlot, List.modify_toArray, List.findIdx_toArray, same,
            List.modify_modify_eq]
          rfl
      | index => rfl

/-- What is put below a copy that was put in a place goes into that copy. -/
theorem put_append (whole first second : Copy) (place rest : Path) :
    (whole.put place first).put (place ++ rest) second =
      whole.put place (first.put rest second) := by
  induction place generalizing whole with
  | nil => rfl
  | cons step place ih => simp only [List.cons_append, put, modifySlot_modifySlot, ih]

private theorem put_item (done others : List Copy) (hole new : Copy) :
    (Copy.array (done ++ hole :: others).toArray).put [.index done.length] new =
      .array (done ++ new :: others).toArray := by
  simp only [put, modifySlot, List.modify_toArray, modify_slot]

private theorem put_member {done others : List (Text × Copy)} {key : Text}
    (fresh : key ∉ done.map Prod.fst) (hole new : Copy) :
    (Copy.object (done ++ (key, hole) :: others).toArray).put [.key key] new =
      .object (done ++ (key, new) :: others).toArray := by
  simp only [put, modifySlot, List.modify_toArray, List.findIdx_toArray, findIdx_slot fresh,
    modify_slot]

mutual

def ofTemplate : Template → Copy
  | .array items => .array (ofItems items).toArray
  | .object members => .object (ofMembers members).toArray
  | other => .leaf other

def ofItems : List Template → List Copy
  | [] => []
  | item :: rest => ofTemplate item :: ofItems rest

def ofMembers : List (Text × Template) → List (Text × Copy)
  | [] => []
  | (key, value) :: rest => (key, ofTemplate value) :: ofMembers rest

end

private theorem template_ofTemplate (node : Template) : (ofTemplate node).template = node := by
  induction node using Tree.inductionOn with
  | array items ih =>
      have each : templateItems (ofItems items) = items := by
        induction items with
        | nil => rfl
        | cons item rest again =>
            rw [ofItems, templateItems, ih item List.mem_cons_self,
              again fun other member => ih other (List.mem_cons_of_mem item member)]
      exact congrArg Tree.array each
  | object members ih =>
      have each : templateMembers (ofMembers members) = members := by
        induction members with
        | nil => rfl
        | cons member rest again =>
            obtain ⟨key, value⟩ := member
            rw [ofMembers, templateMembers, ih key value List.mem_cons_self,
              again fun name other member => ih name other (List.mem_cons_of_mem _ member)]
      exact congrArg Tree.object each
  | _ => rfl

end Copy

namespace Resolve

variable {σ : Type}

mutual

def template (registry : Registry σ) : Template → Resolve σ Template
  | .string leaf => do
      let leaf ← slot registry leaf
      return .string leaf
  | .array items => do
      let items ← templateItems registry items
      return .array items
  | .object members => do
      let members ← templateMembers registry members
      return .object members
  | .null => return .null
  | .boolean value => return .boolean value
  | .number value => return .number value

def templateItems (registry : Registry σ) : List Template → Resolve σ (List Template)
  | [] => return []
  | item :: rest => do
      let first ← template registry item
      let others ← templateItems registry rest
      return first :: others

def templateMembers (registry : Registry σ) :
    List (Text × Template) → Resolve σ (List (Text × Template))
  | [] => return []
  | (key, value) :: rest => do
      let value ← template registry value
      let others ← templateMembers registry rest
      return (key, value) :: others

end

/-- The entry in front of the stack is copied as a whole before those behind it. -/
def CopiedFirst (registry : Registry σ) (node : Template) : Prop :=
  ∀ (root : Copy) (target : Path) (slot : Segment) (rest : List Entry),
    fill registry root (⟨node, target, slot⟩ :: rest) =
      template registry node >>= fun new =>
        fill registry (root.put (target ++ [slot]) (.ofTemplate new)) rest

variable {registry : Registry σ}

private theorem fill_cons (root : Copy) (entry : Entry) (rest : List Entry) :
    fill registry root (entry :: rest) =
      copy registry entry.node >>= fun new =>
        fill registry (root.put entry.place new) (inner entry.place entry.node ++ rest) := by
  rw [fill]
  simp only [pushAll_reverse]

/-- The items in front of the stack go to the slots behind those that are filled. -/
theorem fill_items {items : List Template} (each : ∀ item ∈ items, CopiedFirst registry item)
    (root : Copy) (place : Path) (done : List Copy) (rest : List Entry) :
    fill registry
        (root.put place (.array (done ++ List.replicate items.length (Copy.leaf .null)).toArray))
        (itemEntries place done.length items ++ rest) =
      templateItems registry items >>= fun results =>
        fill registry (root.put place (.array (done ++ Copy.ofItems results).toArray)) rest := by
  induction items generalizing done with
  | nil => simp [itemEntries, templateItems, Copy.ofItems]
  | cons item items ih =>
      have first := each item List.mem_cons_self
      have others := ih fun other member => each other (List.mem_cons_of_mem item member)
      simp only [itemEntries, List.cons_append, first _ place, templateItems, bind_assoc,
        pure_bind, List.length_cons, List.replicate_succ, Copy.put_append, Copy.put_item]
      congr 1
      funext new
      have filled := others (done ++ [.ofTemplate new])
      simpa [Copy.ofItems] using filled

/-- The values of members in front of the stack go to the slots behind those that are filled. -/
theorem fill_members {members : List (Text × Template)}
    (each : ∀ member ∈ members, CopiedFirst registry member.2) (root : Copy) (place : Path)
    (done : List (Text × Copy)) (rest : List Entry)
    (distinct : (done.map Prod.fst ++ members.map Prod.fst).Nodup) :
    fill registry
        (root.put place
          (.object (done ++ members.map fun member => (member.1, Copy.leaf .null)).toArray))
        (memberEntries place members ++ rest) =
      templateMembers registry members >>= fun results =>
        fill registry (root.put place (.object (done ++ Copy.ofMembers results).toArray)) rest := by
  induction members generalizing done with
  | nil => simp [memberEntries, templateMembers, Copy.ofMembers]
  | cons member members ih =>
      obtain ⟨key, value⟩ := member
      have first := each (key, value) List.mem_cons_self
      have others := ih fun other member => each other (List.mem_cons_of_mem _ member)
      have fresh : key ∉ done.map Prod.fst := fun member =>
        (List.nodup_append.mp distinct).2.2 key member key List.mem_cons_self rfl
      simp only [memberEntries, List.map_cons, List.cons_append, first _ place, templateMembers,
        bind_assoc, pure_bind, Copy.put_append, Copy.put_member fresh]
      congr 1
      funext new
      have filled := others (done ++ [(key, .ofTemplate new)]) (by simpa using distinct)
      simpa [memberEntries, Copy.ofMembers] using filled

private theorem copiedFirst {node : Template} (distinct : node.DistinctKeys) :
    CopiedFirst registry node := by
  induction node using Tree.inductionOn with
  | array items ih =>
      intro root target slot rest
      have keys := Tree.distinctKeys_array.mp distinct
      have filled := fill_items (fun item member => ih item member (keys item member)) root (target ++ [slot]) [] rest
      simpa [fill_cons, copy, inner, Entry.place, template, Copy.ofTemplate] using filled
  | object members ih =>
      intro root target slot rest
      obtain ⟨keys, inside⟩ := Tree.distinctKeys_object.mp distinct
      have each := fun member included => ih member.1 member.2 included (inside member included)
      have filled := fill_members each root (target ++ [slot]) [] rest keys
      simpa [fill_cons, copy, inner, Entry.place, template, Copy.ofTemplate] using filled
  | _ => simp [CopiedFirst, fill_cons, copy, inner, Entry.place, template, Copy.ofTemplate]

end Resolve

/-- Resolving from a stack is resolving by recursion. -/
theorem Template.resolve_eq {σ : Type} (registry : Registry σ) {template : Template}
    (distinct : template.DistinctKeys) (world : σ) :
    template.resolve registry world = (Resolve.template registry template).run.run ⟨world, 0⟩ := by
  have copied : Resolve.CopiedFirst registry template := Resolve.copiedFirst distinct
  have whole : ∀ new : Template, Resolve.rootItem
      ((Copy.array #[.leaf .null]).put [.index 0] (.ofTemplate new)).template = new :=
    Copy.template_ofTemplate
  rw [Template.resolve, copied (.array #[.leaf .null]) [] (.index 0) []]
  simp [Resolve.fill, whole]

end JsonTemplate
