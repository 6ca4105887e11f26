import JsonTemplate.Text.CodePoint

set_option autoImplicit false

/-!
# Bindings

Names with their values, in the order in which the names were first bound.
-/

namespace JsonTemplate

/-- Names with values. Every operation here keeps the names different from each other. -/
abbrev Bindings (α : Type) := List (Text × α)

namespace Bindings

variable {α : Type}

def get? (bindings : Bindings α) (name : Text) : Option α :=
  bindings.lookup name

/-- Bind a name: a bound name keeps its place and takes the new value, a fresh one goes
to the end. -/
def set (name : Text) (value : α) : Bindings α → Bindings α
  | [] => [(name, value)]
  | (other, old) :: rest =>
      if other = name then (other, value) :: rest else (other, old) :: set name value rest

def setAll (bindings : Bindings α) (added : List (Text × α)) : Bindings α :=
  added.foldl (fun bound (name, value) => set name value bound) bindings

/-- The bindings of a list in which a name may occur more than once: of equal names
the first place and the last value count. -/
def ofList (entries : List (Text × α)) : Bindings α :=
  setAll [] entries

end Bindings

end JsonTemplate
