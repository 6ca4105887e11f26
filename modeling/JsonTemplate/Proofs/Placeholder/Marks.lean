import JsonTemplate.Proofs.Placeholder.Bare

set_option autoImplicit false

/-!
# Where quoting puts quotes

Quoting is told position by position: what it keeps of a text and which quotes it puts in. The lines
of a text stay the same, and a line gets longer by the quotes that are put in on it.
-/

namespace JsonTemplate.Placeholder

inductive Mark where
  | kept (point : CodePoint)
  | inserted
deriving DecidableEq, Repr

namespace Mark

def written : Mark → CodePoint
  | .kept point => point
  | .inserted => .scalar '"'

def original? : Mark → Option CodePoint
  | .kept point => some point
  | .inserted => none

def quoted (front : List Mark) : Text :=
  front.map written

def unquoted (front : List Mark) : Text :=
  front.filterMap original?

@[simp] theorem quoted_nil : quoted [] = [] := rfl

@[simp] theorem quoted_cons (mark : Mark) (front : List Mark) :
    quoted (mark :: front) = mark.written :: quoted front := rfl

@[simp] theorem quoted_append (front behind : List Mark) :
    quoted (front ++ behind) = quoted front ++ quoted behind :=
  List.map_append

@[simp] theorem quoted_kept (text : Text) : quoted (text.map .kept) = text := by
  simp [quoted, Function.comp_def, written]

@[simp] theorem unquoted_nil : unquoted [] = [] := rfl

@[simp] theorem unquoted_cons_kept (point : CodePoint) (front : List Mark) :
    unquoted (.kept point :: front) = point :: unquoted front := rfl

@[simp] theorem unquoted_cons_inserted (front : List Mark) :
    unquoted (.inserted :: front) = unquoted front := rfl

@[simp] theorem unquoted_append (front behind : List Mark) :
    unquoted (front ++ behind) = unquoted front ++ unquoted behind :=
  List.filterMap_append

@[simp] theorem unquoted_kept (text : Text) : unquoted (text.map .kept) = text := by
  simp [unquoted, Function.comp_def, original?]

end Mark

open Mark (quoted unquoted)

mutual

def marks (text : Text) : List Mark :=
  match _found : barePrefix? text with
  | some (name, rest) =>
      .inserted :: (spelling (.capture name)).map .kept ++ .inserted :: marks rest
  | none =>
      match text with
      | [] => []
      | point :: rest =>
          if point = .scalar '"' then .kept point :: marksInside rest
          else .kept point :: marks rest
termination_by text.length
decreasing_by
  · exact length_of_barePrefix? _found
  all_goals simp

def marksInside (text : Text) : List Mark :=
  match text with
  | [] => []
  | .scalar '\\' :: kept :: rest => .kept (.scalar '\\') :: .kept kept :: marksInside rest
  | point :: rest =>
      if point = .scalar '"' then .kept point :: marks rest else .kept point :: marksInside rest
termination_by text.length
decreasing_by all_goals simp only [List.length_cons]; omega

end

private theorem marks_nil : marks [] = [] := by
  rw [marks.eq_def]
  rfl

private theorem marks_bare {text name rest : Text} (found : barePrefix? text = some (name, rest)) :
    marks text = .inserted :: ((spelling (.capture name)).map .kept ++ .inserted :: marks rest) := by
  rw [marks.eq_def]
  split <;> simp_all

private theorem marks_quote (rest : Text) :
    marks (.scalar '"' :: rest) = .kept (.scalar '"') :: marksInside rest := by
  have notBare : barePrefix? (.scalar '"' :: rest) = none := barePrefix?_eq_none (by decide) rest
  rw [marks.eq_def]
  split <;> simp_all

private theorem marks_cons {point : CodePoint} {rest : Text}
    (notBare : barePrefix? (point :: rest) = none) (notQuote : point ≠ .scalar '"') :
    marks (point :: rest) = .kept point :: marks rest := by
  rw [marks.eq_def]
  split <;> simp_all

/-- What is written at the positions is the quoted text, and what is kept is the text itself. -/
theorem marks_spec :
    (∀ text, quoted (marks text) = quoteBare text ∧ unquoted (marks text) = text) ∧
      ∀ text, quoted (marksInside text) = quoteInside text ∧
        unquoted (marksInside text) = text := by
  refine quoteOutside.mutual_induct _ _ ?bare ?empty ?opening ?outside ?ended ?escape ?closing
    ?inside
  case bare =>
    intro text name rest found ih
    obtain ⟨quotable, rfl⟩ := barePrefix?_eq_some_iff.mp found
    rw [marks_bare found, quoteBare_bare quotable]
    simp [Mark.written, ih]
  case empty =>
    intro _
    simp [marks_nil, quoteBare_nil]
  case opening =>
    intro rest _ ih
    rw [marks_quote, quoteBare_quote]
    simp [Mark.written, ih]
  case outside =>
    intro point rest notBare notQuote ih
    rw [marks_cons notBare notQuote, quoteBare_cons notBare notQuote]
    simp [Mark.written, ih]
  case ended =>
    rw [marksInside.eq_def, quoteInside.eq_def]
    simp
  case escape =>
    intro kept rest ih
    rw [marksInside.eq_def, quoteInside_escape]
    simp [Mark.written, ih]
  case closing =>
    intro rest _ ih
    rw [marksInside.eq_def, quoteInside_quote]
    simp [Mark.written, ih]
  case inside =>
    intro point rest notEscape notQuote ih
    rw [marksInside.eq_def, quoteInside.eq_def]
    simp [Mark.written, notQuote, ih]

/-! ## Lines and columns -/

/-- How many of the positions in front, on the same line, are quotes that were put in. -/
def insertedOnLine (front : List Mark) : Nat :=
  (front.reverse.takeWhile (· ≠ .kept (.scalar '\n'))).count .inserted

private theorem count_quoted (front : List Mark) :
    (quoted front).count (.scalar '\n') = (unquoted front).count (.scalar '\n') := by
  induction front with
  | nil => rfl
  | cons mark front ih =>
      cases mark with
      | kept point => simp [Mark.written, List.count_cons, ih]
      | inserted => simp [Mark.written, ih]

/-- The line from its end on is written with the quotes that were put in on it. -/
theorem length_lineEnd (marks : List Mark) :
    ((quoted marks).takeWhile (· ≠ .scalar '\n')).length =
      ((unquoted marks).takeWhile (· ≠ .scalar '\n')).length +
        (marks.takeWhile (· ≠ .kept (.scalar '\n'))).count .inserted := by
  induction marks with
  | nil => rfl
  | cons mark marks ih =>
      simp only [ne_eq, decide_not] at ih ⊢
      cases mark with
      | kept point =>
          by_cases ends : point = .scalar '\n'
          · simp [Mark.written, ends]
          · simp [Mark.written, ends, ih, Nat.add_right_comm]
      | inserted => simp [Mark.written, ih, Nat.add_assoc]

/-- Behind the same positions, the quoted text is on the same line, and further right by the quotes
that were put in on that line. -/
theorem after_quoted (front : List Mark) :
    Json.Position.after (quoted front) =
      ⟨(Json.Position.after (unquoted front)).line,
        (Json.Position.after (unquoted front)).column + insertedOnLine front⟩ := by
  have lineEnd := length_lineEnd front.reverse
  rw [quoted, unquoted, List.map_reverse, List.filterMap_reverse, ← quoted, ← unquoted] at lineEnd
  rw [Json.Position.after, count_quoted, lineEnd, Json.Position.after, insertedOnLine,
    Nat.add_right_comm]

end JsonTemplate.Placeholder
