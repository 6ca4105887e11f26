import JsonTemplate.Path
import JsonTemplate.Proofs.Text.CodePoint
import JsonTemplate.Proofs.Text.Numeral

set_option autoImplicit false

/-!
# The texts of paths

A path is told by its text. A step shows by its first position whether it is a plain key or
stands in brackets, and by its second whether the brackets hold an index or a quoted key;
each of the three ends where the next step starts. So a text is read back step by step.
-/

namespace JsonTemplate

namespace Segment

def Follows (rest : Text) : Prop :=
  ∀ point ∈ rest.head?, point = .scalar '.' ∨ point = .scalar '['

theorem follows_nil : Follows [] :=
  nofun

def inPlainKey (point : CodePoint) : Bool :=
  point ≠ .scalar '.' && point ≠ .scalar '['

private theorem isNamePart_of_isIdentifierStart {point : CodePoint}
    (starts : point.isIdentifierStart = true) : point.isNamePart = true := by
  cases point with
  | scalar character =>
      simp only [CodePoint.isIdentifierStart, CodePoint.isNamePart, Char.isAlphanum,
        Bool.or_eq_true] at starts ⊢
      exact starts.imp_left .inl
  | surrogate => cases starts

theorem isNamePart_of_isIdentifier {name : Text} (identifier : Text.isIdentifier name = true) :
    ∀ point ∈ name, point.isNamePart = true := by
  cases name with
  | nil => exact nofun
  | cons first rest =>
      obtain ⟨starts, parts⟩ := (Bool.and_eq_true _ _).mp identifier
      intro point member
      rcases List.mem_cons.mp member with rfl | later
      · exact isNamePart_of_isIdentifierStart starts
      · exact List.all_eq_true.mp parts point later

theorem inPlainKey_of_isNamePart {point : CodePoint} (part : point.isNamePart = true) :
    inPlainKey point = true := by
  rw [inPlainKey, Bool.and_eq_true, decide_eq_true_iff, decide_eq_true_iff]
  constructor
  · rintro rfl
    cases part
  · rintro rfl
    cases part

private theorem inPlainKey_of_isPlainKey {name : Text} (plain : isPlainKey name = true) :
    ∀ point ∈ name, inPlainKey point = true := by
  rcases (Bool.or_eq_true _ _).mp plain with identifier | ended
  · intro point member
    exact inPlainKey_of_isNamePart (isNamePart_of_isIdentifier identifier point member)
  · obtain ⟨last, identifier⟩ := (Bool.and_eq_true _ _).mp ended
    obtain ⟨front, rfl⟩ := List.getLast?_eq_some_iff.mp (beq_iff_eq.mp last)
    rw [List.dropLast_concat] at identifier
    intro point member
    rcases List.mem_append.mp member with before | feed
    · exact inPlainKey_of_isNamePart (isNamePart_of_isIdentifier identifier point before)
    · rw [List.mem_singleton.mp feed]
      rfl

def quotedKey? : Text → Option (Text × Text)
  | [] => none
  | [point] => if point = .scalar '\'' then some ([], []) else none
  | point :: next :: rest =>
      if point = .scalar '\'' then some ([], next :: rest)
      else if point = .scalar '\\' then
        if next = .scalar '\\' ∨ next = .scalar '\'' then
          (quotedKey? rest).map (Prod.map (next :: ·) id)
        else none
      else (quotedKey? (next :: rest)).map (Prod.map (point :: ·) id)

/-- A quoted key ends at its first quote that is not escaped. -/
theorem quotedKey?_escaped (name rest : Text) :
    quotedKey? (name.flatMap escapePoint ++ .scalar '\'' :: rest) = some (name, rest) := by
  induction name with
  | nil => cases rest <;> rfl
  | cons point name ih =>
      rw [List.flatMap_cons, escapePoint]
      split
      · next marked =>
          simp only [List.cons_append, List.nil_append]
          rw [quotedKey?, if_neg (by decide), if_pos rfl, if_pos marked, ih]
          rfl
      · next unmarked =>
          obtain ⟨backslash, quote⟩ := not_or.mp unmarked
          -- The reader looks at two positions; behind a key there is always the quote.
          obtain ⟨next, behind, shape⟩ := List.exists_cons_of_ne_nil
            (by simp : name.flatMap escapePoint ++ .scalar '\'' :: rest ≠ [])
          rw [shape] at ih
          rw [List.append_assoc, List.singleton_append, shape, quotedKey?, if_neg quote,
            if_neg backslash, ih]
          rfl

def inBrackets (point : CodePoint) : Bool :=
  point ≠ .scalar ']'

private theorem inBrackets_ofInt (position : Int) :
    ∀ point ∈ Numeral.ofInt position, inBrackets point = true := by
  intro point member
  rw [inBrackets, decide_eq_true_iff]
  rintro rfl
  rcases Numeral.mem_ofInt member with minus | digit
  · cases minus
  · cases digit

private theorem index_ne_quoted {number : Int} {before after : Text} :
    Numeral.ofInt number ++ before ≠ .scalar '\'' :: after := by
  intro same
  have member : .scalar '\'' ∈ Numeral.ofInt number ∨ Numeral.ofInt number = [] := by
    cases digits : Numeral.ofInt number with
    | nil => exact .inr rfl
    | cons first rest =>
        rw [digits] at same
        exact .inl ((List.cons.inj same).1 ▸ List.mem_cons_self)
  rcases member with quote | nothing
  · rcases Numeral.mem_ofInt quote with minus | digit
    · cases minus
    · cases digit
  · unfold Numeral.ofInt at nothing
    split at nothing
    · cases nothing
    · exact Numeral.ofNat_ne_nil _ nothing

private theorem render_index (position : Int) (rest : Text) :
    (Segment.index position).render ++ rest =
      .scalar '[' :: (Numeral.ofInt position ++ .scalar ']' :: rest) := by
  simp [render]

theorem render_plain {name : Text} (plain : isPlainKey name = true) (rest : Text) :
    (Segment.key name).render ++ rest = .scalar '.' :: (name ++ rest) := by
  simp [render, plain]

theorem render_quoted {name : Text} (quoted : isPlainKey name = false) (rest : Text) :
    (Segment.key name).render ++ rest =
      .scalar '[' :: .scalar '\'' ::
        (name.flatMap escapePoint ++ .scalar '\'' :: .scalar ']' :: rest) := by
  simp [render, quoted, lit]

def shown? : Text → Option (Segment × Text)
  | .scalar '.' :: text => some (.key (text.takeWhile inPlainKey), text.dropWhile inPlainKey)
  | .scalar '[' :: .scalar '\'' :: text =>
      (quotedKey? text).bind fun (name, behind) =>
        (Text.dropStart? (lit "]") behind).map fun rest => (.key name, rest)
  | .scalar '[' :: text =>
      (Numeral.toInt? (text.takeWhile inBrackets)).bind fun position =>
        (Text.dropStart? (lit "]") (text.dropWhile inBrackets)).map fun rest =>
          (.index position, rest)
  | _ => none

private theorem dropStart?_bracket (rest : Text) :
    Text.dropStart? (lit "]") (.scalar ']' :: rest) = some rest :=
  Text.dropStart?_append (lit "]") rest

theorem shown?_plain {name rest : Text} (all : ∀ point ∈ name, inPlainKey point = true)
    (follows : Follows rest) :
    shown? (.scalar '.' :: (name ++ rest)) = some (.key name, rest) := by
  have ends : ∀ point ∈ rest.head?, inPlainKey point = false := by
    intro point first
    rcases follows point first with rfl | rfl <;> rfl
  rw [shown?, Text.takeWhile_run all ends, Text.dropWhile_run all ends]

theorem shown?_quoted (name rest : Text) :
    shown? (.scalar '[' :: .scalar '\'' ::
      (name.flatMap escapePoint ++ .scalar '\'' :: .scalar ']' :: rest)) =
      some (.key name, rest) := by
  simp only [shown?, quotedKey?_escaped, Option.bind_some, dropStart?_bracket, Option.map_some]

theorem shown?_index (position : Int) (rest : Text) :
    shown? (.scalar '[' :: (Numeral.ofInt position ++ .scalar ']' :: rest)) =
      some (.index position, rest) := by
  have inside := inBrackets_ofInt position
  have ends : ∀ point ∈ (.scalar ']' :: rest : Text).head?, inBrackets point = false := by
    rintro point ⟨rfl⟩
    rfl
  unfold shown?
  split
  · next same => cases same
  · next quoted => exact absurd (List.cons.inj quoted).2 index_ne_quoted
  · next same =>
      rw [← (List.cons.inj same).2, Text.takeWhile_run inside ends, Text.dropWhile_run inside ends,
        Numeral.toInt?_eq_some_iff.mpr rfl, Option.bind_some, dropStart?_bracket, Option.map_some]
  · next other => exact absurd rfl (other _)

theorem shown?_render (step : Segment) {rest : Text} (follows : Follows rest) :
    shown? (step.render ++ rest) = some (step, rest) := by
  cases step with
  | index position =>
      rw [render_index]
      exact shown?_index position rest
  | key name =>
      cases plain : isPlainKey name with
      | true =>
          rw [render_plain plain]
          exact shown?_plain (inPlainKey_of_isPlainKey plain) follows
      | false =>
          rw [render_quoted plain]
          exact shown?_quoted name rest

/-- A step is told by its text, whatever follows. -/
theorem render_unique {left right : Segment} {before after : Text} (leftFollows : Follows before)
    (rightFollows : Follows after) (same : left.render ++ before = right.render ++ after) :
    left = right ∧ before = after := by
  have steps := congrArg shown? same
  rw [shown?_render left leftFollows, shown?_render right rightFollows] at steps
  cases steps
  exact ⟨rfl, rfl⟩

/-- Every step starts with a point or a bracket. -/
theorem render_head (step : Segment) :
    ∃ first rest, step.render = first :: rest ∧ (first = .scalar '.' ∨ first = .scalar '[') := by
  cases step with
  | index position => exact ⟨_, _, rfl, .inr rfl⟩
  | key name =>
      rw [render]
      split
      · exact ⟨_, _, rfl, .inl rfl⟩
      · exact ⟨_, _, rfl, .inr rfl⟩

end Segment

namespace Path

theorem follows_steps (path : Path) : Segment.Follows (path.flatMap Segment.render) := by
  cases path with
  | nil => exact Segment.follows_nil
  | cons step rest =>
      obtain ⟨first, others, shape, mark⟩ := step.render_head
      rw [List.flatMap_cons, shape]
      rintro point ⟨rfl⟩
      exact mark

/-- Paths with one text are one path. -/
theorem eq_of_render_eq {left right : Path} (same : render left = render right) : left = right := by
  have steps : left.flatMap Segment.render = right.flatMap Segment.render :=
    (List.cons.inj same).2
  clear same
  induction left generalizing right with
  | nil =>
      cases right with
      | nil => rfl
      | cons step rest =>
          obtain ⟨first, others, shape, _⟩ := step.render_head
          rw [List.flatMap_cons, shape] at steps
          cases steps
  | cons step rest ih =>
      cases right with
      | nil =>
          obtain ⟨first, others, shape, _⟩ := step.render_head
          rw [List.flatMap_cons, shape] at steps
          cases steps
      | cons other others =>
          obtain ⟨rfl, behind⟩ :=
            Segment.render_unique (follows_steps rest) (follows_steps others) steps
          rw [ih behind]

/-- The text of a path tells the path: a key has the text of no index and of no other steps,
whatever stands around it. -/
theorem render_injective :
    Function.Injective render ∧
      (∀ (front back others : Path) (name : Text) (position : Int),
        render (front ++ .key name :: back) ≠ render (front ++ .index position :: others)) ∧
      ∀ (front back steps : Path) (name : Text),
        render (front ++ steps ++ back) = render (front ++ .key name :: back) ↔
          steps = [.key name] := by
  refine ⟨fun _ _ => eq_of_render_eq, ?_, ?_⟩
  · intro front back others name position same
    have tails := List.append_cancel_left (eq_of_render_eq same)
    cases tails
  · intro front back steps name
    constructor
    · intro same
      have paths := eq_of_render_eq same
      rw [List.append_assoc] at paths
      exact List.append_cancel_right (List.append_cancel_left paths)
    · rintro rfl
      rw [List.append_assoc, List.singleton_append]

end Path

end JsonTemplate
