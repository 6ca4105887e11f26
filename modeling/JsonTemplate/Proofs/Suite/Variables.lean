import JsonTemplate.Proofs.Placeholder.Name
import JsonTemplate.Suite.Variables

set_option autoImplicit false

/-!
# Replacing variables

What stands for the variables of a text is put in from the left, and the rest is copied. A text
without the opening brace of a variable is copied whatever stands behind it, so that replacements
are put together piece by piece.
-/

namespace JsonTemplate.Variables

open Placeholder (isName variablePrefix?)

def spelling (name : Text) : Text :=
  lit "\x7b\x7b" ++ name ++ lit "\x7d\x7d"

private theorem variablePrefix?_eq_some_iff {text name rest : Text} :
    variablePrefix? text = some (name, rest) ↔
      isName name = true ∧ text = spelling name ++ rest := by
  rw [spelling, List.append_assoc, List.append_assoc]
  exact Placeholder.delimited?_eq_some_iff (by decide)

def Mentions (text name : Text) : Prop :=
  isName name = true ∧ spelling name <:+: text

theorem Mentions.mono {text whole name : Text} (mentions : Mentions text name)
    (part : text <:+: whole) : Mentions whole name :=
  ⟨mentions.1, mentions.2.trans part⟩

theorem not_mentions {text : Text} (plain : .scalar '\x7b' ∉ text) (name : Text) :
    ¬ Mentions text name := by
  intro ⟨_, inside⟩
  have brace : .scalar '\x7b' ∈ spelling name := List.mem_cons_self
  exact plain (inside.subset brace)

/-! ## Replacing by any texts -/

/-- The text with the variable of every name replaced by the text that `put` gives. -/
def replace (put : Text → Text) (text : Text) : Text :=
  match _found : variablePrefix? text with
  | some (name, rest) => put name ++ replace put rest
  | none =>
      match text with
      | [] => []
      | point :: rest => point :: replace put rest
termination_by text.length
decreasing_by
  · exact Placeholder.length_of_delimited? _found (by decide)
  · simp

variable {put : Text → Text}

@[simp] theorem replace_nil : replace put [] = [] := by
  rw [replace.eq_def]
  rfl

theorem replace_variable {name : Text} (named : isName name = true) (rest : Text) :
    replace put (spelling name ++ rest) = put name ++ replace put rest := by
  have found := variablePrefix?_eq_some_iff.mpr ⟨named, (rfl : spelling name ++ rest = _)⟩
  rw [replace.eq_def]
  split
  · next same =>
      rw [found] at same
      cases same
      rfl
  · next same =>
      rw [found] at same
      cases same

theorem replace_point {point : CodePoint} {rest : Text}
    (plain : ∀ name after, isName name = true → point :: rest ≠ spelling name ++ after) :
    replace put (point :: rest) = point :: replace put rest := by
  rw [replace.eq_def]
  split
  · next name after found =>
      obtain ⟨named, split⟩ := variablePrefix?_eq_some_iff.mp found
      exact absurd split (plain name after named)
  · rfl

theorem replace_cons {point : CodePoint} (notBrace : point ≠ .scalar '\x7b') (rest : Text) :
    replace put (point :: rest) = point :: replace put rest := by
  apply replace_point
  intro name after _ same
  exact notBrace (List.cons.inj same).1

/-- A text begins with a variable or its first position is copied. -/
theorem replace_cases (text : Text) :
    text = [] ∨ (∃ name rest, isName name = true ∧ text = spelling name ++ rest) ∨
      ∃ point rest, text = point :: rest ∧
        ∀ name after, isName name = true → text ≠ spelling name ++ after := by
  cases found : variablePrefix? text with
  | some pair =>
      obtain ⟨name, rest⟩ := pair
      exact .inr (.inl ⟨name, rest, variablePrefix?_eq_some_iff.mp found⟩)
  | none =>
      cases text with
      | nil => exact .inl rfl
      | cons point rest =>
          refine .inr (.inr ⟨point, rest, rfl, fun name after named same => ?_⟩)
          have taken := variablePrefix?_eq_some_iff.mpr ⟨named, same⟩
          rw [found] at taken
          cases taken

/-- Induction along a replacement: over the variables and the positions that are copied. -/
theorem inductionOn {motive : Text → Prop} (text : Text) (nil : motive [])
    (spelled : ∀ name rest, isName name = true → motive rest → motive (spelling name ++ rest))
    (copied : ∀ point rest,
      (∀ name after, isName name = true → point :: rest ≠ spelling name ++ after) →
      motive rest → motive (point :: rest)) : motive text := by
  induction length : text.length using Nat.strongRecOn generalizing text with
  | _ _ ih =>
      subst length
      rcases replace_cases text with rfl | ⟨name, rest, named, rfl⟩ | ⟨point, rest, rfl, plain⟩
      · exact nil
      · have shorter : rest.length < (spelling name ++ rest).length := by
          simp [spelling, lit]
          omega
        exact spelled name rest named (ih rest.length shorter rest rfl)
      · exact copied point rest plain (ih rest.length (by simp) rest rfl)

def inserting (bound : Bindings Json) (name : Text) : Text :=
  match bound.get? name with
  | some value => inserted value
  | none => spelling name

theorem substitute_eq_replace (bound : Bindings Json) (text : Text) :
    substitute bound text = replace (inserting bound) text := by
  induction text using inductionOn with
  | nil =>
      rw [substitute.eq_def]
      exact replace_nil.symm
  | spelled name rest named ih =>
      have found := variablePrefix?_eq_some_iff.mpr ⟨named, (rfl : spelling name ++ rest = _)⟩
      rw [substitute.eq_def, replace_variable named]
      split
      · next same =>
          rw [found] at same
          cases same
          rw [ih]
          rfl
      · next same =>
          rw [found] at same
          cases same
  | copied point rest plain ih =>
      rw [substitute.eq_def, replace_point plain, ← ih]
      split
      · next name after found =>
          obtain ⟨named, split⟩ := variablePrefix?_eq_some_iff.mp found
          exact absurd split (plain name after named)
      · rfl

/-- A text in which no variable is spelled is copied, and so is one in which every variable stands
for itself. -/
theorem replace_eq_self {text : Text}
    (kept : ∀ name, Mentions text name → put name = spelling name) : replace put text = text := by
  induction text using inductionOn with
  | nil => exact replace_nil
  | spelled name rest named ih =>
      have others := ih fun other mentions =>
        kept other (mentions.mono (List.suffix_append _ rest).isInfix)
      rw [replace_variable named, others, kept name ⟨named, (List.prefix_append _ rest).isInfix⟩]
  | copied point rest plain ih =>
      have others := ih fun other mentions =>
        kept other (mentions.mono (List.suffix_cons point rest).isInfix)
      rw [replace_point plain, others]

/-- Only what stands for the variables of a text decides what the text becomes. -/
theorem replace_congr {other : Text → Text} {text : Text}
    (same : ∀ name, Mentions text name → put name = other name) :
    replace put text = replace other text := by
  induction text using inductionOn with
  | nil => rw [replace_nil, replace_nil]
  | spelled name rest named ih =>
      have others := ih fun other mentions =>
        same other (mentions.mono (List.suffix_append _ rest).isInfix)
      rw [replace_variable named, replace_variable named, others,
        same name ⟨named, (List.prefix_append _ rest).isInfix⟩]
  | copied point rest plain ih =>
      have others := ih fun other mentions =>
        same other (mentions.mono (List.suffix_cons point rest).isInfix)
      rw [replace_point plain, replace_point plain, others]

theorem substitute_congr {bound other : Bindings Json} {text : Text}
    (same : ∀ name, Mentions text name → bound.get? name = other.get? name) :
    substitute bound text = substitute other text := by
  rw [substitute_eq_replace, substitute_eq_replace]
  refine replace_congr fun name mentions => ?_
  rw [inserting, inserting, same name mentions]

/-- Without variables a text is left as it is. -/
@[simp] theorem substitute_nil (text : Text) : substitute [] text = text := by
  rw [substitute_eq_replace]
  exact replace_eq_self fun _ _ => rfl

/-! ## Replacements piece by piece -/

/-- A text becomes another one, whatever stands behind it. -/
def Becomes (put : Text → Text) (text out : Text) : Prop :=
  ∀ rest, replace put (text ++ rest) = out ++ replace put rest

theorem Becomes.nil : Becomes put [] [] :=
  fun _ => rfl

theorem Becomes.append {first second left right : Text} (start : Becomes put first left)
    (further : Becomes put second right) : Becomes put (first ++ second) (left ++ right) := by
  intro rest
  rw [List.append_assoc, start, further, List.append_assoc]

theorem Becomes.whole {text out : Text} (becomes : Becomes put text out) :
    replace put text = out := by
  have ended := becomes []
  rwa [List.append_nil, replace_nil, List.append_nil] at ended

theorem Becomes.variable {name : Text} (named : isName name = true) :
    Becomes put (spelling name) (put name) :=
  fun rest => replace_variable named rest

theorem Becomes.cons {point : CodePoint} {text out : Text} (notBrace : point ≠ .scalar '\x7b')
    (becomes : Becomes put text out) : Becomes put (point :: text) (point :: out) := by
  intro rest
  rw [List.cons_append, replace_cons notBrace, becomes, List.cons_append]

theorem Becomes.brace {first : CodePoint} {text out : Text} (notBrace : first ≠ .scalar '\x7b')
    (becomes : Becomes put (first :: text) out) :
    Becomes put (.scalar '\x7b' :: first :: text) (.scalar '\x7b' :: out) := by
  intro rest
  have copied : ∀ name after, isName name = true →
      .scalar '\x7b' :: (first :: text ++ rest) ≠ spelling name ++ after := by
    intro name after _ same
    obtain ⟨_, behind⟩ := List.cons.inj same
    exact notBrace (List.cons.inj behind).1
  rw [List.cons_append, replace_point copied, becomes, List.cons_append]

theorem Becomes.points {text : Text} (plain : ∀ point ∈ text, point ≠ .scalar '\x7b') :
    Becomes put text text := by
  induction text with
  | nil => exact .nil
  | cons point text ih =>
      obtain ⟨here, others⟩ := List.forall_mem_cons.mp plain
      exact .cons here (ih others)

end JsonTemplate.Variables
