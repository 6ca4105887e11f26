import JsonTemplate.Bindings
import JsonTemplate.Json.Printer
import JsonTemplate.Placeholder

set_option autoImplicit false

/-!
# Variables

Values captured by earlier cases, put into the texts of later ones before they are
read.
-/

namespace JsonTemplate.Variables

/-- The text that stands for a value: a string's content with its escapes, since its
variable stands inside quotes, and any other value as document text. -/
def inserted : Json → Text
  | .string text => Json.escape text
  | other => Json.render other

/-- The text with every variable replaced by its value, from the left. An unbound name
is left as it is, and what is inserted is not looked at again. -/
def substitute (bound : Bindings Json) (text : Text) : Text :=
  match _found : Placeholder.variablePrefix? text with
  | some (name, rest) =>
      (match bound.get? name with
        | some value => inserted value
        | none => lit "\x7b\x7b" ++ name ++ lit "\x7d\x7d") ++ substitute bound rest
  | none =>
      match text with
      | [] => []
      | point :: rest => point :: substitute bound rest
termination_by text.length
decreasing_by
  · exact Placeholder.length_of_delimited? _found (by decide)
  · simp

end JsonTemplate.Variables
