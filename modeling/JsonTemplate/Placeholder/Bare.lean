import JsonTemplate.Placeholder

set_option autoImplicit false

/-!
# Bare captures

A template may write a capture without quotes where any value may stand. Quoting
makes such a template a document again and leaves its string literals alone.
-/

namespace JsonTemplate.Placeholder

/-- Digits, and possibly an exponent without a sign. -/
def isPlainNumber (name : Text) : Bool :=
  match Numeral.span name with
  | ([], _) => false
  | (_, []) => true
  | (_, letter :: power) =>
      (letter = .scalar 'e' || letter = .scalar 'E') && !power.isEmpty &&
        power.all CodePoint.isDigit

/-- Names that a bare capture may have. The others would also be read as a number or
a word between brackets. -/
def isQuotable (name : Text) : Bool :=
  !(isPlainNumber name || name = lit "true" || name = lit "false" || name = lit "null")

def barePrefix? (text : Text) : Option (Text × Text) :=
  match capturePrefix? text with
  | some (name, rest) => if isQuotable name then some (name, rest) else none
  | none => none

theorem length_of_barePrefix? {text name rest : Text}
    (found : barePrefix? text = some (name, rest)) : rest.length < text.length := by
  simp only [barePrefix?] at found
  split at found
  · next candidate left opened =>
      split at found
      · simp only [Option.some.injEq, Prod.mk.injEq] at found
        obtain ⟨rfl, rfl⟩ := found
        exact length_of_delimited? opened (by decide)
      · cases found
  · cases found

/-- Go over the rest of a text, which starts at the position `here` and inside a string literal or
outside of it. What stands from `start` up to `here` is copied later, as one part. -/
def quoteParts (text : Text) (parts : Array Text) (start here : Nat) (inside : Bool) :
    Text → Array Text
  | [] => parts.push (text.drop start)
  | point :: rest =>
      if inside then
        -- A backslash keeps the next code point from closing the literal.
        if point = .scalar '\\' then quoteParts text parts start (here + 2) true (rest.drop 1)
        else quoteParts text parts start (here + 1) (point ≠ .scalar '"') rest
      else if point = .scalar '"' then quoteParts text parts start (here + 1) true rest
      else
        match _found : barePrefix? (point :: rest) with
        | some (name, left) =>
            let token := spelling (.capture name)
            let quoted := .scalar '"' :: (token ++ [.scalar '"'])
            let stop := here + token.length
            quoteParts text ((parts.push (text.extract start here)).push quoted) stop stop false
              left
        | none => quoteParts text parts start (here + 1) false rest
termination_by rest => rest.length
decreasing_by
  · simp only [List.length_drop, List.length_cons]; omega
  · simp
  · simp
  · exact length_of_barePrefix? _found
  · simp

def quoteBare (text : Text) : Text :=
  (quoteParts text #[] 0 0 false text).toList.flatten

end JsonTemplate.Placeholder
