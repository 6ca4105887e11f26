import JsonTemplate.Comparison

set_option autoImplicit false

/-!
# Comparing with a worklist

The comparison as it is carried out: a list of places still to compare, the next one
in front. A document of any depth is compared without a stack of calls.
-/

namespace JsonTemplate.Comparison

/-- A place still to compare, or a property that one side lacks. -/
inductive Task where
  | pair (path : Path) (expected : Template) (actual : Json)
  | missing (path : Path) (expected : Template)
  | unexpected (path : Path) (actual : Json)

namespace Task

def weight : Task → Nat
  | .pair _ expected _ => expected.size
  | .missing _ expected => expected.size
  | .unexpected _ _ => 0

def ofMember (path : Path) (actual : List (Text × Json)) (key : Text) (expected : Template) :
    Task :=
  match actual.lookup key with
  | none => .missing (path ++ [.key key]) expected
  | some found => .pair (path ++ [.key key]) expected found

def ofItems (path : Path) : Nat → List Template → List Json → List Task
  | position, expected :: others, actual :: rest =>
      .pair (path ++ [.index position]) expected actual :: ofItems path (position + 1) others rest
  | _, _, _ => []

/-- The tasks for the members of two objects: the expected ones in the template's
order, then in exact mode those that the template does not have. -/
def ofMembers (mode : Mode) (path : Path) (expected : List (Text × Template))
    (actual : List (Text × Json)) : List Task :=
  (expected.map fun (key, template) => ofMember path actual key template) ++
    match mode with
    | .subset => []
    | .exact =>
        (unexpectedMembers expected actual).map fun (key, value) =>
          .unexpected (path ++ [.key key]) value

/-- Carry out one task: what it reports itself, and the tasks it leaves. -/
def step (mode : Mode) : Task → List Finding × List Task
  | .missing path expected => (differs path (.missing expected.toJson), [])
  | .unexpected path actual => (differs path (.unexpected actual), [])
  | .pair path expected actual =>
      match expected, actual with
      | .string (.capture name), actual => ([.capture name actual], [])
      | .array expected, .array actual =>
          if expected.length = actual.length then ([], ofItems path 0 expected actual)
          else (differs path (.length expected.length actual.length), [])
      | .object expected, .object actual => ([], ofMembers mode path expected actual)
      | expected, actual => (leafFindings path expected actual, [])

def totalWeight : List Task → Nat
  | [] => 0
  | task :: rest => task.weight + totalWeight rest

private theorem totalWeight_append (left right : List Task) :
    totalWeight (left ++ right) = totalWeight left + totalWeight right := by
  induction left with
  | nil => simp [totalWeight]
  | cons task rest ih => simp [totalWeight, ih, Nat.add_assoc]

private theorem totalWeight_ofItems_le (path : Path) (position : Nat) (expected : List Template)
    (actual : List Json) :
    totalWeight (ofItems path position expected actual) ≤ Tree.sizeItems expected := by
  induction expected generalizing position actual with
  | nil => simp [ofItems, totalWeight]
  | cons template others ih =>
      cases actual with
      | nil => simp [ofItems, totalWeight]
      | cons value rest =>
          have tail := ih (position + 1) rest
          simp only [totalWeight, ofItems, weight, Tree.sizeItems]
          omega

private theorem weight_ofMember (path : Path) (actual : List (Text × Json)) (key : Text)
    (expected : Template) : (ofMember path actual key expected).weight = expected.size := by
  unfold ofMember
  split <;> rfl

private theorem totalWeight_ofMembers (mode : Mode) (path : Path)
    (expected : List (Text × Template))
    (actual : List (Text × Json)) :
    totalWeight (ofMembers mode path expected actual) = Tree.sizeMembers expected := by
  have wanted : ∀ members : List (Text × Template),
      totalWeight (members.map fun (key, template) => ofMember path actual key template) =
        Tree.sizeMembers members := by
    intro members
    induction members with
    | nil => rfl
    | cons member rest ih =>
        obtain ⟨key, template⟩ := member
        simp only [List.map_cons, totalWeight, weight_ofMember, Tree.sizeMembers, ih]
  have others : ∀ members : List (Text × Json),
      totalWeight (members.map fun (key, value) =>
        Task.unexpected (path ++ [.key key]) value) = 0 := by
    intro members
    induction members with
    | nil => rfl
    | cons member rest ih =>
        obtain ⟨key, value⟩ := member
        simpa [totalWeight, weight] using ih
  unfold ofMembers
  rw [totalWeight_append, wanted]
  cases mode with
  | subset => simp [totalWeight]
  | exact => simp [others]

/-- The tasks that a task leaves have less of the template to look at, or there are
none. -/
theorem step_decreases (mode : Mode) (task : Task) :
    totalWeight (task.step mode).2 < task.weight ∨ (task.step mode).2 = [] := by
  cases task with
  | missing path expected => exact .inr rfl
  | unexpected path actual => exact .inr rfl
  | pair path expected actual =>
      simp only [step]
      split
      · exact .inr rfl
      · split
        · refine .inl ?_
          have bound := totalWeight_ofItems_le path 0
          simp only [weight, Tree.size]
          exact Nat.lt_succ_of_le (bound _ _)
        · exact .inr rfl
      · refine .inl ?_
        simp only [weight, Tree.size, totalWeight_ofMembers]
        exact Nat.lt_succ_self _
      · exact .inr rfl

end Task

def run (mode : Mode) (policy : CapturePolicy) (comparison : Comparison) :
    List Task → Comparison
  | [] => comparison
  | task :: rest =>
      run mode policy (comparison.recordAll policy (task.step mode).1)
        ((task.step mode).2 ++ rest)
termination_by tasks => (Task.totalWeight tasks, tasks.length)
decreasing_by
  rw [Task.totalWeight_append]
  have whole : Task.totalWeight (task :: rest) = task.weight + Task.totalWeight rest := rfl
  rcases Task.step_decreases mode task with less | none
  · exact Prod.Lex.left _ _ (by omega)
  · rw [none]
    rcases Nat.eq_zero_or_pos task.weight with zero | positive
    · have same :
          Task.totalWeight [] + Task.totalWeight rest = Task.totalWeight (task :: rest) := by
        rw [whole, zero]; rfl
      rw [same]
      exact Prod.Lex.right _ (by simp)
    · exact Prod.Lex.left _ _ (by rw [whole]; show 0 + _ < _; omega)

/-- Compare a document with a template at a place, adding to what was reported before.
The truth value tells that this comparison found no difference. -/
def compare (mode : Mode) (policy : CapturePolicy) (comparison : Comparison) (path : Path)
    (expected : Template) (actual : Json) : Bool × Comparison :=
  let after := run mode policy comparison [.pair path expected actual]
  (after.differences.length == comparison.differences.length, after)

end JsonTemplate.Comparison
