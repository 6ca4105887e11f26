import JsonTemplate.Path

set_option autoImplicit false

/-!
# Placeholders

A string leaf of a template is a placeholder only when the placeholder makes up
the whole string. The same names, between braces alone, are variables of a suite.
-/

namespace JsonTemplate

inductive Placeholder where
  | capture (name : Text)
  | call (name : Text)
deriving DecidableEq, Repr

namespace Placeholder

def isName (text : Text) : Bool :=
  !text.isEmpty && text.all CodePoint.isNamePart

/-- The longest name between `opening` and `closing` at the start of a text, with
what follows. -/
def delimited? (opening closing text : Text) : Option (Text × Text) := do
  let inner ← Text.dropStart? opening text
  let name := inner.takeWhile CodePoint.isNamePart
  if name.isEmpty then none
  else
    let rest ← Text.dropStart? closing (inner.dropWhile CodePoint.isNamePart)
    return (name, rest)

def capturePrefix? (text : Text) : Option (Text × Text) :=
  delimited? (lit "[[") (lit "]]") text

def callPrefix? (text : Text) : Option (Text × Text) :=
  delimited? (lit "\x7b\x7b") (lit "()\x7d\x7d") text

def variablePrefix? (text : Text) : Option (Text × Text) :=
  delimited? (lit "\x7b\x7b") (lit "\x7d\x7d") text

def scan (text : Text) : Option Placeholder :=
  match capturePrefix? text, callPrefix? text with
  | some (name, []), _ => some (.capture name)
  | _, some (name, []) => some (.call name)
  | _, _ => none

def spelling : Placeholder → Text
  | .capture name => lit "[[" ++ name ++ lit "]]"
  | .call name => lit "\x7b\x7b" ++ name ++ lit "()\x7d\x7d"

theorem length_of_delimited? {opening closing text name rest : Text}
    (found : delimited? opening closing text = some (name, rest)) (nonempty : opening ≠ []) :
    rest.length < text.length := by
  obtain ⟨inner, opened, found⟩ := Option.bind_eq_some_iff.mp found
  dsimp only at found
  split at found
  · cases found
  · obtain ⟨left, closed, same⟩ := Option.bind_eq_some_iff.mp found
    cases same
    have suffix : (inner.dropWhile CodePoint.isNamePart).length ≤ inner.length :=
      (List.dropWhile_sublist _).length_le
    have positive : 0 < opening.length := List.length_pos_iff.mpr nonempty
    rw [Text.dropStart?_eq_some_iff.mp closed, List.length_append] at suffix
    rw [Text.dropStart?_eq_some_iff.mp opened, List.length_append]
    omega

end Placeholder

end JsonTemplate
