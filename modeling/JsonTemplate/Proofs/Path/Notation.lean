import JsonTemplate.Proofs.Path
import Mathlib.Data.List.Forall2

set_option autoImplicit false

/-!
# The notation of paths

The notation that paths are documented in, with a reader of it: the reader reads exactly the
notation, in which every path has one text. The text of a path is that one, unless a key in
the path ends in one line feed behind an identifier; then no path has the text.
-/

namespace JsonTemplate

namespace Segment

/-- What stands between the quotes of a key: a backslash and a quote behind a backslash, all
else as it is. -/
inductive QuotedKey : Text → Text → Prop where
  | nil : QuotedKey [] []
  | plain {point : CodePoint} {body name : Text} :
      point ≠ .scalar '\\' → point ≠ .scalar '\'' → QuotedKey body name →
      QuotedKey (point :: body) (point :: name)
  | escaped {point : CodePoint} {body name : Text} :
      point = .scalar '\\' ∨ point = .scalar '\'' → QuotedKey body name →
      QuotedKey (.scalar '\\' :: point :: body) (point :: name)

inductive Notated : Text → Segment → Prop where
  | plain {name : Text} : Text.isIdentifier name = true → Notated (.scalar '.' :: name) (.key name)
  | quoted {body name : Text} : Text.isIdentifier name = false → QuotedKey body name →
      Notated (lit "['" ++ body ++ lit "']") (.key name)
  | index (position : Int) : Notated (lit "[" ++ Numeral.ofInt position ++ lit "]") (.index position)

def isLineFed : Segment → Bool
  | .key name => name.getLast? == some (.scalar '\n') && Text.isIdentifier name.dropLast
  | .index _ => false

/-- How a step stands in the text of a path: in the notation, save that a key with a line feed
behind an identifier stands behind a point too. -/
def Shown (shown : Text) (step : Segment) : Prop :=
  if step.isLineFed then shown = .scalar '.' :: step.name else Notated shown step

/-- Whether the first point of a text suits the key behind it: a point to an identifier only. -/
def isMarked (text : Text) : Segment → Bool
  | .key name => Text.isIdentifier name == (text.head? == some (.scalar '.'))
  | .index _ => true

def read? (text : Text) : Option (Segment × Text) :=
  (shown? text).filter fun found => found.1.isMarked text

private theorem isMarked_point (name rest : Text) :
    isMarked (.scalar '.' :: rest) (.key name) = Text.isIdentifier name :=
  beq_true _

private theorem isMarked_bracket (name rest : Text) :
    isMarked (.scalar '[' :: rest) (.key name) = !Text.isIdentifier name :=
  beq_false _

/-! ## Quoted keys -/

private theorem quotedKey_escaped (name : Text) : QuotedKey (name.flatMap escapePoint) name := by
  induction name with
  | nil => exact .nil
  | cons point name ih =>
      rw [List.flatMap_cons, escapePoint]
      split
      · next marked => exact .escaped marked ih
      · next unmarked =>
          exact .plain (fun same => unmarked (.inl same)) (fun same => unmarked (.inr same)) ih

private theorem QuotedKey.body_eq {body name : Text} (quoted : QuotedKey body name) :
    body = name.flatMap escapePoint := by
  induction quoted with
  | nil => rfl
  | plain backslash quote _ ih =>
      rw [List.flatMap_cons, escapePoint, if_neg (not_or.mpr ⟨backslash, quote⟩), ← ih]
      rfl
  | escaped marked _ ih =>
      rw [List.flatMap_cons, escapePoint, if_pos marked, ← ih]
      rfl

private theorem quotedKey?_sound {text name rest : Text}
    (read : quotedKey? text = some (name, rest)) :
    ∃ body, QuotedKey body name ∧ text = body ++ .scalar '\'' :: rest := by
  fun_induction quotedKey? text generalizing name with
  | case1 => cases read
  | case2 =>
      cases read
      exact ⟨[], .nil, rfl⟩
  | case3 => cases read
  | case4 =>
      cases read
      exact ⟨[], .nil, rfl⟩
  | case5 next text marked _ ih =>
      obtain ⟨⟨inner, behind⟩, found, same⟩ := Option.map_eq_some_iff.mp read
      cases same
      obtain ⟨body, quoted, rfl⟩ := ih found
      exact ⟨_, .escaped marked quoted, rfl⟩
  | case6 => cases read
  | case7 point next text quote backslash ih =>
      obtain ⟨⟨inner, behind⟩, found, same⟩ := Option.map_eq_some_iff.mp read
      cases same
      obtain ⟨body, quoted, shape⟩ := ih found
      rw [shape]
      exact ⟨_, .plain backslash quote quoted, rfl⟩

/-! ## Steps -/

private theorem shown?_sound {text rest : Text} {step : Segment}
    (shown : shown? text = some (step, rest)) :
    (∃ name, step = .key name ∧ text = .scalar '.' :: name ++ rest) ∨
      (∃ body name, QuotedKey body name ∧ step = .key name ∧
        text = lit "['" ++ body ++ lit "']" ++ rest) ∨
      ∃ position, step = .index position ∧
        text = lit "[" ++ Numeral.ofInt position ++ lit "]" ++ rest := by
  unfold shown? at shown
  split at shown
  · cases shown
    refine .inl ⟨_, rfl, ?_⟩
    rw [List.cons_append, List.takeWhile_append_dropWhile]
  · obtain ⟨⟨name, behind⟩, key, shown⟩ := Option.bind_eq_some_iff.mp shown
    obtain ⟨left, closed, same⟩ := Option.map_eq_some_iff.mp shown
    cases same
    obtain ⟨body, quoted, rfl⟩ := quotedKey?_sound key
    refine .inr (.inl ⟨body, name, quoted, rfl, ?_⟩)
    rw [Text.dropStart?_eq_some_iff.mp closed, List.append_assoc, List.append_assoc]
    rfl
  · next text _ =>
      obtain ⟨position, digits, shown⟩ := Option.bind_eq_some_iff.mp shown
      obtain ⟨left, closed, same⟩ := Option.map_eq_some_iff.mp shown
      cases same
      refine .inr (.inr ⟨position, rfl, ?_⟩)
      have whole : text = Numeral.ofInt position ++ (lit "]" ++ rest) := by
        rw [← Text.dropStart?_eq_some_iff.mp closed, ← Numeral.toInt?_eq_some_iff.mp digits,
          List.takeWhile_append_dropWhile]
      rw [whole, List.append_assoc, List.append_assoc]
      rfl
  · cases shown

/-- A step in the notation is read in front of whatever may follow a step. -/
theorem Notated.read {shown rest : Text} {step : Segment} (notated : Notated shown step)
    (follows : Follows rest) : read? (shown ++ rest) = some (step, rest) := by
  rw [read?, Option.filter_eq_some_iff]
  cases notated with
  | plain identifier =>
      have parts := fun point member =>
        inPlainKey_of_isNamePart (isNamePart_of_isIdentifier identifier point member)
      exact ⟨shown?_plain parts follows, (isMarked_point _ _).trans identifier⟩
  | quoted other quoted =>
      rw [List.append_assoc, List.append_assoc, quoted.body_eq]
      exact ⟨shown?_quoted _ rest, (isMarked_bracket _ _).trans (by rw [other]; rfl)⟩
  | index position =>
      rw [List.append_assoc, List.append_assoc]
      exact ⟨shown?_index position rest, rfl⟩

private theorem read?_sound {text rest : Text} {step : Segment}
    (read : read? text = some (step, rest)) :
    ∃ shown, Notated shown step ∧ text = shown ++ rest := by
  obtain ⟨shown, marked⟩ := Option.filter_eq_some_iff.mp read
  rcases shown?_sound shown with ⟨name, rfl, rfl⟩ | ⟨body, name, quoted, rfl, rfl⟩ | ⟨position, rfl, rfl⟩
  · exact ⟨_, .plain ((isMarked_point name _).symm.trans marked), rfl⟩
  · have other : (!Text.isIdentifier name) = true := (isMarked_bracket name _).symm.trans marked
    exact ⟨_, .quoted (by simpa using other) quoted, rfl⟩
  · exact ⟨_, .index position, rfl⟩

private theorem exists_notated (step : Segment) : ∃ shown, Notated shown step := by
  cases step with
  | index position => exact ⟨_, .index position⟩
  | key name =>
      cases identifier : Text.isIdentifier name with
      | true => exact ⟨_, .plain identifier⟩
      | false => exact ⟨_, .quoted identifier (quotedKey_escaped name)⟩

theorem Notated.unique {shown other : Text} {step : Segment} (left : Notated shown step)
    (right : Notated other step) : shown = other := by
  cases left with
  | plain identifier =>
      cases right with
      | plain => rfl
      | quoted unlike => exact absurd (identifier.symm.trans unlike) (by decide)
  | quoted unlike quoted =>
      cases right with
      | plain identifier => exact absurd (identifier.symm.trans unlike) (by decide)
      | quoted _ again => rw [quoted.body_eq, again.body_eq]
  | index =>
      cases right
      rfl

theorem Notated.head {shown : Text} {step : Segment} (notated : Notated shown step) :
    ∃ first rest, shown = first :: rest ∧ (first = .scalar '.' ∨ first = .scalar '[') := by
  cases notated with
  | plain => exact ⟨_, _, rfl, .inl rfl⟩
  | quoted => exact ⟨_, _, rfl, .inr rfl⟩
  | index => exact ⟨_, _, rfl, .inr rfl⟩

/-! ## The texts of steps -/

private theorem not_isIdentifier_of_isLineFed {name : Text} (fed : isLineFed (.key name) = true) :
    Text.isIdentifier name = false := by
  obtain ⟨last, _⟩ := (Bool.and_eq_true _ _).mp fed
  have feed : .scalar '\n' ∈ name := List.mem_of_getLast? (beq_iff_eq.mp last)
  by_contra identifier
  have part := isNamePart_of_isIdentifier (by simpa using identifier) _ feed
  cases part

/-- Only a key with a line feed stands behind a point that does not suit it. -/
theorem isMarked_render (step : Segment) (rest : Text) :
    step.isMarked (step.render ++ rest) = !step.isLineFed := by
  cases step with
  | index => rfl
  | key name =>
      have forms : isPlainKey name = (Text.isIdentifier name || isLineFed (.key name)) := rfl
      cases fed : isLineFed (.key name) with
      | true =>
          have other := not_isIdentifier_of_isLineFed fed
          rw [fed, Bool.or_true] at forms
          rw [render_plain forms, isMarked_point, other]
          rfl
      | false =>
          rw [fed, Bool.or_false] at forms
          cases identifier : Text.isIdentifier name with
          | true =>
              rw [identifier] at forms
              rw [render_plain forms, isMarked_point, identifier]
              rfl
          | false =>
              rw [identifier] at forms
              rw [render_quoted forms, isMarked_bracket, identifier]

private theorem read?_render (step : Segment) {rest : Text} (follows : Follows rest) :
    read? (step.render ++ rest) = if step.isLineFed then none else some (step, rest) := by
  rw [read?, shown?_render step follows, Option.filter_some, isMarked_render]
  cases step.isLineFed with
  | true => rfl
  | false => rfl

private theorem shown_render (step : Segment) : Shown step.render step := by
  unfold Shown
  split
  · next fed =>
      cases step with
      | index => cases fed
      | key name =>
          have plain : isPlainKey name = true := (Bool.or_eq_true _ _).mpr (.inr fed)
          rw [render, if_pos plain, Segment.name]
  · next usual =>
      have read := step.read?_render follows_nil
      rw [if_neg usual] at read
      obtain ⟨shown, notated, same⟩ := read?_sound read
      rw [List.append_cancel_right same]
      exact notated

end Segment

namespace Path

open Segment (Follows)

def Notated (text : Text) (path : Path) : Prop :=
  ∃ shown, List.Forall₂ Segment.Notated shown path ∧ text = .scalar '$' :: shown.flatten

private theorem length_lt_of_read? {text rest : Text} {step : Segment}
    (read : Segment.read? text = some (step, rest)) : rest.length < text.length := by
  obtain ⟨shown, notated, rfl⟩ := Segment.read?_sound read
  obtain ⟨first, others, rfl, _⟩ := notated.head
  rw [List.length_append, List.length_cons]
  omega

def steps? (text : Text) : Option Path :=
  if text.isEmpty then some []
  else
    match _found : Segment.read? text with
    | none => none
    | some (step, rest) => (steps? rest).map (step :: ·)
termination_by text.length
decreasing_by exact length_lt_of_read? _found

def read? : Text → Option Path
  | .scalar '$' :: text => steps? text
  | _ => none

/-! ## Reading -/

private theorem steps?_nil : steps? [] = some [] := by
  rw [steps?]
  rfl

private theorem steps?_read {text rest : Text} {step : Segment}
    (read : Segment.read? text = some (step, rest)) :
    steps? text = (steps? rest).map (step :: ·) := by
  have shorter := length_lt_of_read? read
  have some : text ≠ [] := List.ne_nil_of_length_pos (by omega)
  rw [steps?, if_neg (by simpa using some)]
  split
  · next none =>
      rw [none] at read
      cases read
  · next found =>
      rw [found] at read
      cases read
      rfl

private theorem steps?_unread {text : Text} (some : text ≠ [])
    (unread : Segment.read? text = none) :
    steps? text = none := by
  rw [steps?, if_neg (by simpa using some)]
  split
  · rfl
  · next found =>
      rw [unread] at found
      cases found

private theorem follows_flatten {shown : List Text} {path : Path}
    (notated : List.Forall₂ Segment.Notated shown path) : Follows shown.flatten := by
  cases notated with
  | nil => exact Segment.follows_nil
  | cons step _ =>
      obtain ⟨first, rest, rfl, mark⟩ := step.head
      rintro point ⟨rfl⟩
      exact mark

private theorem steps?_flatten {shown : List Text} {path : Path}
    (notated : List.Forall₂ Segment.Notated shown path) : steps? shown.flatten = some path := by
  induction notated with
  | nil => exact steps?_nil
  | cons step rest ih =>
      rw [List.flatten_cons, steps?_read (step.read (follows_flatten rest)), ih]
      rfl

private theorem steps?_sound {text : Text} {path : Path} (read : steps? text = some path) :
    ∃ shown, List.Forall₂ Segment.Notated shown path ∧ text = shown.flatten := by
  fun_induction steps? text generalizing path with
  | case1 text empty =>
      cases read
      exact ⟨[], .nil, by simpa using empty⟩
  | case2 => cases read
  | case3 text _ step rest found ih =>
      obtain ⟨later, behind, same⟩ := Option.map_eq_some_iff.mp read
      cases same
      obtain ⟨others, notated, rfl⟩ := ih behind
      obtain ⟨first, here, rfl⟩ := Segment.read?_sound found
      exact ⟨first :: others, .cons here notated, rfl⟩

private theorem read?_eq_some_iff {text : Text} {path : Path} :
    read? text = some path ↔ Notated text path := by
  constructor
  · intro read
    unfold read? at read
    split at read
    · obtain ⟨shown, notated, rfl⟩ := steps?_sound read
      exact ⟨shown, notated, rfl⟩
    · cases read
  · rintro ⟨shown, notated, rfl⟩
    exact steps?_flatten notated

private theorem exists_notated (path : Path) : ∃ text, Notated text path := by
  induction path with
  | nil => exact ⟨_, [], .nil, rfl⟩
  | cons step rest ih =>
      obtain ⟨_, shown, notated, _⟩ := ih
      obtain ⟨here, first⟩ := step.exists_notated
      exact ⟨_, here :: shown, .cons first notated, rfl⟩

theorem Notated.unique {left right : Text} {path : Path} (first : Notated left path)
    (second : Notated right path) : left = right := by
  obtain ⟨shown, firstNotated, rfl⟩ := first
  obtain ⟨other, secondNotated, rfl⟩ := second
  congr 2
  induction firstNotated generalizing other with
  | nil =>
      cases secondNotated
      rfl
  | cons here _ ih =>
      cases secondNotated with
      | cons there later => rw [here.unique there, ih _ later]

/-! ## The texts of paths -/

private theorem steps?_render (path : Path) :
    steps? (path.flatMap Segment.render) =
      if path.any Segment.isLineFed then none else some path := by
  induction path with
  | nil => exact steps?_nil
  | cons step rest ih =>
      have read := step.read?_render (follows_steps rest)
      rw [List.flatMap_cons, List.any_cons]
      cases fed : step.isLineFed with
      | true =>
          -- Reading ends at this step, whatever follows it.
          rw [fed] at read
          obtain ⟨first, others, shape, _⟩ := step.render_head
          exact steps?_unread (by simp [shape]) read
      | false =>
          rw [fed] at read
          rw [steps?_read read, ih, Bool.false_or]
          split
          · rfl
          · rfl

private theorem read?_render (path : Path) :
    read? path.render = if path.any Segment.isLineFed then none else some path :=
  steps?_render path

/-- The text of a path is in its notation and read as the path, unless a key in it is an
identifier with a line feed behind it; then it is read as none. -/
theorem render_notated (path : Path) :
    (∃ shown, List.Forall₂ Segment.Shown shown path ∧
        path.render = .scalar '$' :: shown.flatten) ∧
      (Notated path.render path ↔ path.any Segment.isLineFed = false) ∧
      read? path.render = (if path.any Segment.isLineFed then none else some path) ∧
      (∀ text other, read? text = some other ↔ Notated text other) ∧
      ∃! text, Notated text path := by
  refine ⟨⟨path.map Segment.render, ?_, ?_⟩, ?_, read?_render path,
    fun text other => read?_eq_some_iff, ?_⟩
  · rw [List.forall₂_map_left_iff, List.forall₂_same]
    exact fun step _ => step.shown_render
  · rw [render, List.flatMap_def]
  · rw [← read?_eq_some_iff, read?_render]
    simp
  · obtain ⟨text, notated⟩ := exists_notated path
    exact ⟨text, notated, fun other another => another.unique notated⟩

/-- A key with a line feed at its end has to be quoted, and is not. -/
theorem render_line_feed :
    render [.key (lit "a\n")] = lit "$.a\n" ∧ (∀ path, ¬ Notated (lit "$.a\n") path) ∧
      Notated (lit "$['a\n']") [.key (lit "a\n")] := by
  refine ⟨by decide, ?_, ?_⟩
  · intro path notated
    have unread : read? (lit "$.a\n") = none := read?_render [.key (lit "a\n")]
    rw [read?_eq_some_iff.mpr notated] at unread
    cases unread
  · have quoted := Segment.quotedKey_escaped (lit "a\n")
    exact ⟨[_], .cons (.quoted (by decide) quoted) .nil, rfl⟩

end Path

end JsonTemplate
