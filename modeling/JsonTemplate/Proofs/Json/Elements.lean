import JsonTemplate.Json.Reader
import JsonTemplate.Proofs.Outcome

set_option autoImplicit false

/-!
# Elements with commas between them

The items of an array and the members of an object are read in one way. `readElements` is that
way, with the reader of an element, the closing bracket and the problem reported when nothing is
left to read with.
-/

namespace JsonTemplate.Json

variable {α : Type}

/-- What stands behind an element ends the elements or goes on with more of them. -/
def behind (close : CodePoint) (more : Text → Except Stop (List α × Text)) (value : α) :
    Text → Except Stop (List α × Text)
  | [] => .error (.problem .expectingComma [])
  | point :: rest =>
      if point = close then .ok ([value], rest)
      else if point = .scalar ',' then
        (more (skipSpace rest)).map fun taken => (value :: taken.1, taken.2)
      else .error (.problem .expectingComma (point :: rest))

def readElements (element : Text → Except Stop (α × Text)) (close : CodePoint) (missing : Problem) :
    Nat → Text → Except Stop (List α × Text)
  | 0, text => .error (.problem missing text)
  | fuel + 1, text => do
      let (value, left) ← element text
      behind close (readElements element close missing fuel) value (skipSpace left)

variable {element : Text → Except Stop (α × Text)} {close : CodePoint} {missing : Problem}
  {more : Text → Except Stop (List α × Text)} {value : α}

private theorem eq_behind {left : Text} {result : Except Stop (List α × Text)}
    (closed : ∀ rest, left = close :: rest → result = .ok ([value], rest))
    (comma : ∀ rest, left = .scalar ',' :: rest →
      result = (more (skipSpace rest)).map fun taken => (value :: taken.1, taken.2))
    (other : (∀ rest, left ≠ close :: rest) → (∀ rest, left ≠ .scalar ',' :: rest) →
      result = .error (.problem .expectingComma left)) :
    result = behind close more value left := by
  cases left with
  | nil => exact other (by simp) (by simp)
  | cons point rest =>
      by_cases isClose : point = close
      · rw [behind, if_pos isClose]
        exact closed rest (by rw [isClose])
      by_cases isComma : point = .scalar ','
      · rw [behind, if_neg isClose, if_pos isComma]
        exact comma rest (by rw [isComma])
      rw [behind, if_neg isClose, if_neg isComma]
      exact other (fun _ same => isClose (List.cons.inj same).1)
        fun _ same => isComma (List.cons.inj same).1

theorem behind_close (rest : Text) :
    behind close more value (close :: rest) = .ok ([value], rest) :=
  if_pos rfl

theorem behind_comma (notComma : close ≠ .scalar ',') (rest : Text) :
    behind close more value (.scalar ',' :: rest) =
      (more (skipSpace rest)).map fun taken => (value :: taken.1, taken.2) := by
  rw [behind, if_neg notComma.symm, if_pos rfl]

theorem behind_ok {left rest : Text} {values : List α}
    (accepted : behind close more value left = .ok (values, rest)) :
    left = close :: rest ∧ values = [value] ∨
      ∃ after others, left = .scalar ',' :: after ∧ more (skipSpace after) = .ok (others, rest) ∧
        values = value :: others := by
  cases left with
  | nil => cases accepted
  | cons point after =>
      rw [behind] at accepted
      split at accepted
      · next isClose =>
          cases accepted
          exact .inl ⟨by rw [isClose], rfl⟩
      split at accepted
      · next isComma =>
          obtain ⟨⟨others, last⟩, readOthers, same⟩ := ok_of_map accepted
          cases same
          exact .inr ⟨after, others, by rw [isComma], readOthers, rfl⟩
      · cases accepted

theorem behind_outOfRange {left : Text}
    (failed : behind close more value left = .error .outOfRange) :
    ∃ after, left = .scalar ',' :: after ∧ more (skipSpace after) = .error .outOfRange := by
  cases left with
  | nil => cases failed
  | cons point after =>
      rw [behind] at failed
      split at failed
      · cases failed
      split at failed
      · next isComma => exact ⟨after, by rw [isComma], error_of_map failed⟩
      · cases failed

/-! ## The two readers of elements -/

theorem readItems_eq (value : Text → Except Stop (Json × Text)) :
    readItems value = readElements value (.scalar ']') .expectingValue := by
  funext fuel text
  induction fuel generalizing text with
  | zero => rfl
  | succ fuel ih =>
      rw [readItems, readElements, ← funext ih]
      congr 1
      funext ⟨item, left⟩
      dsimp only
      refine eq_behind (fun rest shape => ?_) (fun rest shape => ?_) fun noClose noComma => ?_
      · rw [shape]
        rfl
      · rw [shape]
        rfl
      · split
        · next shape => exact absurd shape (noClose _)
        · next shape => exact absurd shape (noComma _)
        · rfl

theorem readMembers_eq (value : Text → Except Stop (Json × Text)) :
    readMembers value = readElements (readMember value) (.scalar '\x7d') .expectingName := by
  funext fuel text
  induction fuel generalizing text with
  | zero => rfl
  | succ fuel ih =>
      rw [readMembers, readElements, ← funext ih]
      congr 1
      funext ⟨member, left⟩
      dsimp only
      refine eq_behind (fun rest shape => ?_) (fun rest shape => ?_) fun noClose noComma => ?_
      · rw [shape]
        rfl
      · rw [shape]
        rfl
      · split
        · next shape => exact absurd shape (noClose _)
        · next shape => exact absurd shape (noComma _)
        · rfl

end JsonTemplate.Json
