import JsonTemplate.Comparison.Worklist
import JsonTemplate.Proofs.Comparison.Reports

set_option autoImplicit false

/-!
# The worklist carries out the recursion

The findings that a list of tasks still holds are those of its tasks one after the
other. A step reports some of them itself and leaves tasks that hold the others, so a
run records them all, in order.
-/

namespace JsonTemplate

def Finding.difference? : Finding → Option Difference
  | .difference found => some found
  | .capture _ _ => none

def Finding.captured? : Finding → Option (Text × Json)
  | .difference _ => none
  | .capture name value => some (name, value)

namespace Comparison

def differencesOf (found : List Finding) : List Difference :=
  found.filterMap Finding.difference?

def capturesOf (found : List Finding) : List (Text × Json) :=
  found.filterMap Finding.captured?

@[simp] theorem differencesOf_difference (difference : Difference) (rest : List Finding) :
    differencesOf (.difference difference :: rest) = difference :: differencesOf rest := rfl

@[simp] theorem differencesOf_capture (name : Text) (value : Json) (rest : List Finding) :
    differencesOf (.capture name value :: rest) = differencesOf rest := rfl

@[simp] theorem capturesOf_difference (difference : Difference) (rest : List Finding) :
    capturesOf (.difference difference :: rest) = capturesOf rest := rfl

@[simp] theorem capturesOf_capture (name : Text) (value : Json) (rest : List Finding) :
    capturesOf (.capture name value :: rest) = (name, value) :: capturesOf rest := rfl

theorem differencesOf_append (left right : List Finding) :
    differencesOf (left ++ right) = differencesOf left ++ differencesOf right :=
  List.filterMap_append

theorem capturesOf_append (left right : List Finding) :
    capturesOf (left ++ right) = capturesOf left ++ capturesOf right :=
  List.filterMap_append

theorem differencesOf_flatMap {α : Type} (items : List α) (found : α → List Finding) :
    differencesOf (items.flatMap found) = items.flatMap fun item => differencesOf (found item) :=
  List.filterMap_flatMap

theorem capturesOf_flatMap {α : Type} (items : List α) (found : α → List Finding) :
    capturesOf (items.flatMap found) = items.flatMap fun item => capturesOf (found item) :=
  List.filterMap_flatMap

theorem differencesOf_map {α : Type} (items : List α) (difference : α → Difference) :
    differencesOf (items.map fun item => .difference (difference item)) = items.map difference := by
  rw [differencesOf, List.filterMap_map]
  exact congrFun List.filterMap_eq_map items

theorem mem_differencesOf {found : List Finding} {difference : Difference} :
    difference ∈ differencesOf found ↔ .difference difference ∈ found := by
  rw [differencesOf, List.mem_filterMap]
  constructor
  · rintro ⟨finding, member, same⟩
    cases finding with
    | difference => exact Option.some.inj same ▸ member
    | capture => cases same
  · exact fun member => ⟨_, member, rfl⟩

theorem mem_capturesOf {found : List Finding} {name : Text} {value : Json} :
    (name, value) ∈ capturesOf found ↔ .capture name value ∈ found := by
  rw [capturesOf, List.mem_filterMap]
  constructor
  · rintro ⟨finding, member, same⟩
    cases finding with
    | difference => cases same
    | capture =>
        cases same
        exact member
  · exact fun member => ⟨_, member, rfl⟩

def captureAll (policy : CapturePolicy) (captures : Bindings Json)
    (added : List (Text × Json)) : Bindings Json :=
  added.foldl (fun bound (name, value) => capture policy name value bound) captures

/-- Differences and captures do not meddle with each other. -/
theorem recordAll_eq (policy : CapturePolicy) (comparison : Comparison) (found : List Finding) :
    comparison.recordAll policy found =
      ⟨comparison.differences ++ differencesOf found,
        captureAll policy comparison.captures (capturesOf found)⟩ := by
  induction found generalizing comparison with
  | nil => simp [recordAll, differencesOf, capturesOf, captureAll]
  | cons first rest ih =>
      have step : comparison.recordAll policy (first :: rest) =
          (comparison.record policy first).recordAll policy rest := rfl
      rw [step, ih]
      cases first with
      | difference found => simp [record]
      | capture name value => simp [record, captureAll]

private theorem recordAll_append (policy : CapturePolicy) (comparison : Comparison)
    (left right : List Finding) :
    comparison.recordAll policy (left ++ right) =
      (comparison.recordAll policy left).recordAll policy right :=
  List.foldl_append

namespace Task

/-- What a task still has to report, itself and by the tasks that come of it. -/
def findings (mode : Mode) : Task → List Finding
  | .pair path expected actual => Comparison.findings mode path expected actual
  | .missing path expected => differs path (.missing expected.toJson)
  | .unexpected path actual => differs path (.unexpected actual)

private theorem findings_ofItems (mode : Mode) (path : Path) (position : Nat)
    (expected : List Template)
    (actual : List Json) :
    (ofItems path position expected actual).flatMap (findings mode) =
      itemFindings mode path position expected actual := by
  induction expected generalizing position actual with
  | nil => simp [ofItems, itemFindings]
  | cons template others ih =>
      cases actual with
      | nil => simp [ofItems, itemFindings]
      | cons value rest =>
          rw [ofItems, List.flatMap_cons, ih, itemFindings]
          rfl

private theorem findings_ofMembers (mode : Mode) (path : Path) (expected : List (Text × Template))
    (actual : List (Text × Json)) :
    (ofMembers mode path expected actual).flatMap (findings mode) =
      memberFindings mode path actual expected ++ unexpectedFindings mode path expected actual := by
  have wanted : ∀ members : List (Text × Template),
      (members.map fun member => ofMember path actual member.1 member.2).flatMap
        (findings mode) = memberFindings mode path actual members := by
    intro members
    induction members with
    | nil => rfl
    | cons member rest ih =>
        obtain ⟨key, template⟩ := member
        rw [List.map_cons, List.flatMap_cons, ih, memberFindings]
        congr 1
        change findings mode (ofMember path actual key template) = _
        unfold ofMember
        cases actual.lookup key <;> rfl
  unfold ofMembers
  rw [List.flatMap_append]
  refine congrArg₂ (· ++ ·) (wanted expected) ?_
  cases mode with
  | subset => rfl
  | exact =>
      rw [unexpectedFindings, List.flatMap_map, List.map_eq_flatMap]
      rfl

/-- A step reports some of a task's findings and leaves tasks that hold the others. -/
theorem findings_step (mode : Mode) (task : Task) :
    task.findings mode = (task.step mode).1 ++ (task.step mode).2.flatMap (findings mode) := by
  cases task with
  | missing path expected => simp [findings, step]
  | unexpected path actual => simp [findings, step]
  | pair path expected actual =>
      simp only [findings, step]
      rw [Comparison.findings.eq_def]
      split
      · rfl
      · next expected actual =>
          by_cases aligned : expected.length = actual.length
          · simp only [aligned, ↓reduceIte, List.nil_append, findings_ofItems]
          · simp [aligned]
      · simp only [List.nil_append, findings_ofMembers]
      · simp

end Task

/-- A run records what its tasks hold, in the order of the tasks. -/
theorem run_eq_recordAll (mode : Mode) (policy : CapturePolicy) (comparison : Comparison)
    (tasks : List Task) :
    run mode policy comparison tasks =
      comparison.recordAll policy (tasks.flatMap (Task.findings mode)) := by
  induction comparison, tasks using run.induct mode policy with
  | case1 comparison => rw [run]; rfl
  | case2 comparison task rest ih =>
      rw [run, ih, ← recordAll_append, List.flatMap_append, List.flatMap_cons,
        Task.findings_step mode task, List.append_assoc]

theorem compare_eq (mode : Mode) (policy : CapturePolicy) (before : Comparison) (path : Path)
    (expected : Template) (actual : Json) :
    compare mode policy before path expected actual =
      ((differencesOf (findings mode path expected actual)).isEmpty,
        ⟨before.differences ++ differencesOf (findings mode path expected actual),
          captureAll policy before.captures (capturesOf (findings mode path expected actual))⟩) := by
  have after : run mode policy before [.pair path expected actual] =
      ⟨before.differences ++ differencesOf (findings mode path expected actual),
        captureAll policy before.captures
          (capturesOf (findings mode path expected actual))⟩ := by
    rw [run_eq_recordAll, recordAll_eq]
    simp [Task.findings]
  simp only [compare, after, List.length_append, Prod.mk.injEq, and_true]
  rw [Bool.eq_iff_iff]
  simp

/-- A fresh comparison from the root. -/
theorem compare_empty (mode : Mode) (policy : CapturePolicy) (expected : Template) (actual : Json) :
    compare mode policy .empty [] expected actual =
      ((differencesOf (findings mode [] expected actual)).isEmpty,
        ⟨differencesOf (findings mode [] expected actual),
          captureAll policy [] (capturesOf (findings mode [] expected actual))⟩) := by
  rw [compare_eq]
  rfl

/-- A pair of values has exactly one report by the rules, and comparing them adds the
differences of the report behind those found before and records its captures on top of
those recorded before, both in the report's order. The truth value tells whether nothing
was added. The report at a place is the report at the root with the place put in front
of every path. The template is any: one read from a document with its placeholders, one
in which every text stands for itself, or one whose calls have been resolved. -/
theorem compare_records_report (mode : Mode) (policy : CapturePolicy) (before : Comparison)
    (path : Path) (expected : Template) (actual : Json) :
    ∃ found root : List Finding,
      (∀ other, Reports mode path expected actual other ↔ other = found) ∧
      Reports mode [] expected actual root ∧
      found = root.map (Finding.under path) ∧
      (compare mode policy before path expected actual).2.differences =
        before.differences ++ differencesOf found ∧
      (compare mode policy before path expected actual).2.captures =
        captureAll policy before.captures (capturesOf found) ∧
      ((compare mode policy before path expected actual).1 = true ↔ differencesOf found = []) := by
  have atRoot := reports_findings mode [] expected actual
  have moved := (atRoot.under path).eq_findings
  rw [List.append_nil] at moved
  refine ⟨findings mode path expected actual, findings mode [] expected actual,
    fun other => reports_iff, atRoot, moved.symm, ?_, ?_, ?_⟩
  · rw [compare_eq]
  · rw [compare_eq]
  · rw [compare_eq, List.isEmpty_iff]

end Comparison

end JsonTemplate
