import JsonTemplate.Decimal.Basic

set_option autoImplicit false

/-!
# Document trees

One tree type serves documents and templates; they differ in what stands at a
string leaf. Members of an object keep their order.
-/

namespace JsonTemplate

/-- A document tree with leaves of type `α` where strings stand. -/
inductive Tree (α : Type) where
  | null
  | boolean (value : Bool)
  | number (value : Number)
  | string (leaf : α)
  | array (items : List (Tree α))
  | object (members : List (Text × Tree α))
deriving Inhabited, Repr

abbrev Json := Tree Text

inductive Kind where
  | null
  | boolean
  | number
  | string
  | array
  | object
deriving DecidableEq, Repr

def Kind.name : Kind → Text
  | .null => lit "null"
  | .boolean => lit "boolean"
  | .number => lit "number"
  | .string => lit "string"
  | .array => lit "array"
  | .object => lit "object"

namespace Tree

variable {α β : Type}

def kind : Tree α → Kind
  | .null => .null
  | .boolean _ => .boolean
  | .number _ => .number
  | .string _ => .string
  | .array _ => .array
  | .object _ => .object

mutual

def map (change : α → β) : Tree α → Tree β
  | .null => .null
  | .boolean value => .boolean value
  | .number value => .number value
  | .string leaf => .string (change leaf)
  | .array items => .array (mapItems change items)
  | .object members => .object (mapMembers change members)

def mapItems (change : α → β) : List (Tree α) → List (Tree β)
  | [] => []
  | item :: rest => item.map change :: mapItems change rest

def mapMembers (change : α → β) : List (Text × Tree α) → List (Text × Tree β)
  | [] => []
  | (key, value) :: rest => (key, value.map change) :: mapMembers change rest

end

mutual

def size : Tree α → Nat
  | .array items => sizeItems items + 1
  | .object members => sizeMembers members + 1
  | _ => 1

def sizeItems : List (Tree α) → Nat
  | [] => 0
  | item :: rest => item.size + sizeItems rest

def sizeMembers : List (Text × Tree α) → Nat
  | [] => 0
  | (_, value) :: rest => value.size + sizeMembers rest

end

end Tree

/-! ## Stacks -/

/-- Push entries on a stack one after the other. The entry that is taken next is in front. -/
def pushAll {α : Type} (stack entries : List α) : List α :=
  entries.foldl (fun stack entry => entry :: stack) stack

@[simp] theorem pushAll_reverse {α : Type} (stack entries : List α) :
    pushAll stack entries.reverse = entries ++ stack := by
  simp [pushAll]

end JsonTemplate
