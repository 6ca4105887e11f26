import JsonTemplate.Proofs.Placeholder.Name

set_option autoImplicit false

/-!
# Quoting by slices

The slices of a text and the quoted captures between them, put together, are what a recursion over
the text gives, which copies it one code point after the other.
-/

namespace JsonTemplate.Placeholder

mutual

/-- Quote the bare captures of a text that starts outside string literals. -/
def quoteOutside (text : Text) : Text :=
  match _found : barePrefix? text with
  | some (name, rest) =>
      .scalar '"' :: spelling (.capture name) ++ .scalar '"' :: quoteOutside rest
  | none =>
      match text with
      | [] => []
      | point :: rest =>
          if point = .scalar '"' then point :: quoteInside rest else point :: quoteOutside rest
termination_by text.length
decreasing_by
  · exact length_of_barePrefix? _found
  all_goals simp

/-- Copy a string literal up to its closing quote, then go on outside of it. -/
def quoteInside (text : Text) : Text :=
  match text with
  | [] => []
  | .scalar '\\' :: kept :: rest => .scalar '\\' :: kept :: quoteInside rest
  | point :: rest =>
      if point = .scalar '"' then point :: quoteOutside rest else point :: quoteInside rest
termination_by text.length
decreasing_by all_goals simp only [List.length_cons]; omega

end

def quotedCapture (name : Text) : Text :=
  .scalar '"' :: (spelling (.capture name) ++ [.scalar '"'])

/-! ## The recursion, one code point at a time -/

theorem barePrefix?_eq_none {point : CodePoint} (notBracket : point ≠ .scalar '[') (rest : Text) :
    barePrefix? (point :: rest) = none := by
  rw [Option.eq_none_iff_forall_ne_some]
  rintro ⟨name, left⟩ found
  obtain ⟨_, split⟩ := barePrefix?_eq_some_iff.mp found
  exact notBracket (List.cons.inj split).1

theorem quoteOutside_nil : quoteOutside [] = [] := by
  rw [quoteOutside.eq_def]
  rfl

theorem quoteOutside_cons {point : CodePoint} {rest : Text}
    (notBare : barePrefix? (point :: rest) = none) (notQuote : point ≠ .scalar '"') :
    quoteOutside (point :: rest) = point :: quoteOutside rest := by
  rw [quoteOutside.eq_def]
  split
  · next found =>
      rw [notBare] at found
      cases found
  · simp [notQuote]

theorem quoteOutside_bare {name rest : Text} (quotable : Quotable name) :
    quoteOutside (spelling (.capture name) ++ rest) = quotedCapture name ++ quoteOutside rest := by
  have found := barePrefix?_eq_some_iff.mpr
    ⟨quotable, (rfl : spelling (.capture name) ++ rest = _)⟩
  rw [quoteOutside.eq_def]
  split
  · next same =>
      rw [found] at same
      cases same
      simp [quotedCapture]
  · next same =>
      rw [found] at same
      cases same

theorem quoteOutside_quote (rest : Text) :
    quoteOutside (.scalar '"' :: rest) = .scalar '"' :: quoteInside rest := by
  have notBare : barePrefix? (.scalar '"' :: rest) = none := barePrefix?_eq_none (by decide) rest
  rw [quoteOutside.eq_def]
  split
  · next found =>
      rw [notBare] at found
      cases found
  · rfl

theorem quoteInside_cons {point : CodePoint} {rest : Text} (notEscape : point ≠ .scalar '\\')
    (notQuote : point ≠ .scalar '"') :
    quoteInside (point :: rest) = point :: quoteInside rest := by
  rw [quoteInside.eq_def]
  simp [notEscape, notQuote]

theorem quoteInside_nil : quoteInside [] = [] := by
  rw [quoteInside.eq_def]

theorem quoteInside_escape (kept : CodePoint) (rest : Text) :
    quoteInside (.scalar '\\' :: kept :: rest) = .scalar '\\' :: kept :: quoteInside rest := by
  rw [quoteInside.eq_def]
  rfl

/-- Only at the end of the text does a backslash escape nothing. -/
theorem quoteInside_backslash : quoteInside [.scalar '\\'] = [.scalar '\\'] := by
  rw [quoteInside.eq_def]
  simp [quoteInside_nil]

theorem quoteInside_close (rest : Text) :
    quoteInside (.scalar '"' :: rest) = .scalar '"' :: quoteOutside rest := by
  rw [quoteInside.eq_def]
  rfl

/-! ## Slices -/

/-- Behind the cursor the slice grows by what the cursor passes. -/
private theorem extract_forward {text rest : Text} {start here : Nat} (ordered : start ≤ here)
    (behind : text.drop here = rest) (count : Nat) :
    text.extract start (here + count) = text.extract start here ++ rest.take count ∧
      text.drop (here + count) = rest.drop count := by
  have moved : here + count - start = (here - start) + count := by omega
  constructor
  · rw [List.extract, List.extract, moved, List.take_add, List.drop_drop,
      Nat.add_sub_cancel' ordered, behind]
  · rw [← List.drop_drop, behind]

/-- The scanner stands at `here`: what is quoted from there on comes behind the slice that is still
to be copied. -/
theorem quoteParts_eq {text rest : Text} {start here : Nat} (parts : Array Text) (inside : Bool)
    (ordered : start ≤ here) (behind : text.drop here = rest) :
    (quoteParts text parts start here inside rest).toList.flatten =
      parts.toList.flatten ++ (text.extract start here ++
        if inside then quoteInside rest else quoteOutside rest) := by
  fun_induction quoteParts text parts start here inside rest with
  | case1 parts start here inside =>
      have ended : text.length ≤ here := List.drop_eq_nil_iff.mp behind
      have whole : text.extract start here = text.drop start := by
        rw [List.extract, List.take_of_length_le]
        rw [List.length_drop]
        omega
      cases inside <;> simp [whole, quoteInside_nil, quoteOutside_nil]
  | case2 parts start here rest ih =>
      obtain ⟨passed, left⟩ := extract_forward ordered behind 2
      rw [ih (by omega) left, passed]
      cases rest with
      | nil => simp [quoteInside_backslash, quoteInside_nil]
      | cons kept rest => simp [quoteInside_escape]
  | case3 parts start here point rest notEscape ih =>
      obtain ⟨passed, left⟩ := extract_forward ordered behind 1
      rw [ih (by omega) left, passed]
      by_cases closes : point = .scalar '"'
      · simp [closes, quoteInside_close]
      · simp [closes, quoteInside_cons notEscape closes]
  | case4 parts start here inside rest notInside ih =>
      obtain ⟨passed, left⟩ := extract_forward ordered behind 1
      rw [ih (by omega) left, passed]
      simp [notInside, quoteOutside_quote]
  | case5 parts start here inside point rest notInside notQuote name left found token quoted stop
      ih =>
      obtain ⟨quotable, split⟩ := barePrefix?_eq_some_iff.mp found
      have passed : text.drop stop = left := by
        rw [← List.drop_drop, behind, split, List.drop_left]
      rw [ih (Nat.le_refl _) passed, if_neg notInside, split, quoteOutside_bare quotable]
      simp [quoted, token, quotedCapture]
  | case6 parts start here inside point rest notInside notQuote notBare ih =>
      obtain ⟨passed, left⟩ := extract_forward ordered behind 1
      rw [ih (by omega) left, passed]
      simp [notInside, quoteOutside_cons notBare notQuote]

/-- Putting the slices together is quoting by recursion. -/
theorem quoteBare_eq (text : Text) : quoteBare text = quoteOutside text := by
  rw [quoteBare, quoteParts_eq #[] false (Nat.le_refl 0) (List.drop_zero)]
  simp

end JsonTemplate.Placeholder
