import JsonTemplate.Clock
import JsonTemplate.Placeholder
import JsonTemplate.Text.Capitals

set_option autoImplicit false

/-!
# The registry of functions

Functions without arguments, bound to names. Letter case is ignored when a name is
looked up, and kept when the names are listed.
-/

namespace JsonTemplate

/-- What a call gives: a text, a value of another type, or a failure. -/
inductive Outcome where
  | text (value : Text)
  | other (typeName : Text)
  | failure (reason : Text)
deriving DecidableEq, Repr

/-- A function: each call may change the world and with it what later calls give. -/
abbrev Action (σ : Type) := σ → Outcome × σ

structure Registry.Entry (σ : Type) where
  name : Text
  action : Action σ

structure Registry (σ : Type) where
  entries : List (Registry.Entry σ)

inductive Candidate (σ : Type) where
  | missing
  | notCallable (typeName : Text)
  | action (action : Action σ)

namespace Registry

variable {σ : Type}

def empty : Registry σ := ⟨[]⟩

def names (registry : Registry σ) : List Text :=
  registry.entries.map (·.name)

/-- The function bound to a name, ignoring letter case. -/
def resolve (registry : Registry σ) (name : Text) : Option (Action σ) :=
  (registry.entries.find? fun entry => entry.name.capitals = name.capitals).map (·.action)

def resolveAny (registry : Registry σ) : Data → Option (Action σ)
  | .text name => registry.resolve name
  | _ => none

/-- Bind a function to a name. The name is checked before the function. -/
def register (registry : Registry σ) (name : Data) (candidate : Candidate σ) :
    Except Error (Registry σ) :=
  match name with
  | .text name =>
      if Text.isBlank name then .error (.argument .blankName)
      else if !Placeholder.isName name then .error (.argument (.invalidName name))
      else
        match candidate with
        | .missing => .error (.argument .missingFunction)
        | .notCallable typeName => .error (.argument (.notCallable name typeName))
        | .action action =>
            -- Whether the name is taken is asked last, in whatever letter case it was taken.
            if (registry.resolve name).isSome then .error (.duplicateFunction name)
            else .ok ⟨registry.entries ++ [⟨name, action⟩]⟩
  | _ => .error (.argument .blankName)

/-- What a call of a named function gives: its text, or an error with the name as it was
given. -/
def finish (name : Text) : Outcome → Except Error Text
  | .text value => .ok value
  | .other typeName =>
      .error (.functionFailed name (lit "returned " ++ typeName ++ lit ", expected str"))
  | .failure reason => .error (.functionFailed name reason)

def execute (registry : Registry σ) (name : Text) (world : σ) : Except Error Text × σ :=
  match registry.resolve name with
  | none => (.error (.functionNotFound (.text name)), world)
  | some action =>
      let (outcome, world) := action world
      (finish name outcome, world)

def executeAny (registry : Registry σ) (name : Data) (world : σ) : Except Error Text × σ :=
  match name with
  | .text name => registry.execute name world
  | other => (.error (.functionNotFound other), world)

/-- The random identifier of 128 bits: 32 hexadecimal digits in five groups, where the
version and the variant are fixed. -/
def identifier (bits : Nat) : Text :=
  let digits := Numeral.hex 32 bits
  let variant := Numeral.digit (8 + bits / Nat.pow 2 60 % 4)
  digits.take 8 ++ .scalar '-' :: (digits.drop 8).take 4 ++ lit "-4" ++ (digits.drop 13).take 3 ++
    .scalar '-' :: variant :: (digits.drop 17).take 3 ++ .scalar '-' :: digits.drop 20

def timeOutcome : Option Text → Outcome
  | some text => .text text
  | none => .failure (lit "date value out of range")

def guidAction (host : Host σ) : Action σ := fun world =>
  let (bits, world) := host.random world
  (.text (identifier bits), world)

def nowAction (host : Host σ) (clock : Clock) : Action σ := fun world =>
  let (moment, world) := clock.localMoment? host world
  (timeOutcome (moment.map Moment.renderLocal), world)

def utcNowAction (host : Host σ) (clock : Clock) : Action σ := fun world =>
  let (moment, world) := clock.moment host world
  (timeOutcome moment.renderUtc?, world)

def builtins (host : Host σ) (clock : Clock) : Registry σ :=
  ⟨[⟨lit "GUID", guidAction host⟩, ⟨lit "NOW", nowAction host clock⟩,
    ⟨lit "UTCNOW", utcNowAction host clock⟩]⟩

end Registry

end JsonTemplate
