import JsonTemplate.Placeholder
import JsonTemplate.Tree

set_option autoImplicit false

/-!
# Templates

A template is a document whose string leaves have been told apart: texts that stand
for themselves, captures, and calls of functions.
-/

namespace JsonTemplate

/-- A string leaf of a template. -/
inductive Slot where
  | literal (text : Text)
  | capture (name : Text)
  | call (name : Text)
deriving DecidableEq, Inhabited, Repr

namespace Slot

def ofText (text : Text) : Slot :=
  match Placeholder.scan text with
  | some (.capture name) => .capture name
  | some (.call name) => .call name
  | none => .literal text

def text : Slot → Text
  | .literal text => text
  | .capture name => Placeholder.spelling (.capture name)
  | .call name => Placeholder.spelling (.call name)

end Slot

/-- A document with slots for strings. -/
abbrev Template := Tree Slot

namespace Template

def ofJson (document : Json) : Template :=
  document.map Slot.ofText

/-- The template in which every string stands for itself. -/
def literal (document : Json) : Template :=
  document.map Slot.literal

def toJson (template : Template) : Json :=
  template.map Slot.text

end Template

end JsonTemplate
