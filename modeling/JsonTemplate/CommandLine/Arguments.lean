import JsonTemplate.Text.Digits

set_option autoImplicit false

/-!
# Arguments of the command line

Flags in short and long form, and one operand. A long form may be cut short, and short
forms may stand together behind one hyphen.
-/

namespace JsonTemplate.CommandLine

/-- What a run is asked to do. The suite can be named as the operand or by a flag. -/
structure Arguments where
  operand : Option Text
  suite : Option Text
  report : Option Text
  quiet : Bool
deriving DecidableEq, Repr

def Arguments.initial : Arguments := ⟨none, none, none, false⟩

inductive Flag where
  | suite
  | report
  | quiet
  | verbose
  | help
deriving DecidableEq, Repr

namespace Flag

def all : List Flag := [.suite, .report, .quiet, .verbose, .help]

def letter : Flag → CodePoint
  | .suite => .scalar 's'
  | .report => .scalar 'r'
  | .quiet => .scalar 'q'
  | .verbose => .scalar 'v'
  | .help => .scalar 'h'

def long : Flag → Text
  | .suite => lit "--suite"
  | .report => lit "--report"
  | .quiet => lit "--quiet"
  | .verbose => lit "--verbose"
  | .help => lit "--help"

def takesValue : Flag → Bool
  | .suite => true
  | .report => true
  | _ => false

def ofLetter? (letter : CodePoint) : Option Flag :=
  all.find? fun flag => flag.letter = letter

def startingWith (text : Text) : List Flag :=
  all.filter fun flag => text.isPrefixOf flag.long

end Flag

/-- What an argument is on its own: an operand, the mark after which all are operands, a
flag in short or long form with what is attached to it, a long form that is cut too
short, or an unknown flag. -/
inductive Word where
  | operand
  | divider
  | flag (flag : Flag) (short : Bool) (attached : Option Text)
  | ambiguous
  | unknown
deriving DecidableEq, Repr

def cutAtEquals (text : Text) : Text × Option Text :=
  match text.dropWhile (· ≠ .scalar '=') with
  | [] => (text, none)
  | _ :: value => (text.takeWhile (· ≠ .scalar '='), some value)

/-- A nonempty run of digits of any script, and perhaps a line feed at its end. -/
def isDigitRun (text : Text) : Bool :=
  let (digits, rest) := text.span CodePoint.isDecimal
  !digits.isEmpty && (rest = [] || rest = [.scalar '\n'])

def isNegativeNumber (text : Text) : Bool :=
  match text with
  | .scalar '-' :: body =>
      isDigitRun body || match body.dropWhile CodePoint.isDecimal with
        | .scalar '.' :: places => isDigitRun places
        | _ => false
  | _ => false

/-- An argument that starts with a hyphen and is no flag: an operand if it is a negative
number or has a space in it. -/
def wordWithoutFlag (text : Text) : Word :=
  if isNegativeNumber text || text.contains (.scalar ' ') then .operand else .unknown

def wordOf (text : Text) : Word :=
  match text with
  | .scalar '-' :: second :: rest =>
      if second = .scalar '-' then
        if rest.isEmpty then .divider
        else
          let (name, value) := cutAtEquals text
          match Flag.startingWith name with
          | [] => wordWithoutFlag text
          | [flag] => .flag flag false value
          | _ => .ambiguous
      else
        match Flag.ofLetter? second, rest with
        | some flag, [] => .flag flag true none
        | some flag, .scalar '=' :: value => .flag flag true (some value)
        | some flag, attached => .flag flag true (some attached)
        | none, _ => wordWithoutFlag text
  | _ => .operand

/-- The flags of a cluster, where all but the last take no value, and what is attached to
the last one. Something attached to a flag in long form is for a flag with a value only,
and so is an empty text. -/
def cluster? (flag : Flag) (short : Bool) : Option Text → Option (List Flag × Option Text)
  | none => some ([flag], none)
  | some [] => if flag.takesValue then some ([flag], some []) else none
  | some (letter :: rest) =>
      if flag.takesValue then some ([flag], some (letter :: rest))
      else if !short then none
      else do
        let next ← Flag.ofLetter? letter
        let (flags, attached) ←
          if rest.isEmpty then cluster? next true none else cluster? next true (some rest)
        return (flag :: flags, attached)
termination_by attached => (attached.getD []).length
decreasing_by all_goals simp

/-- How far the arguments have been read. `placed` tells that the operand is settled, and
`atOperand` that the last argument settled it, so that a mark may still follow. -/
structure Progress where
  arguments : Arguments
  placed : Bool
  atOperand : Bool
  surplus : Bool

/-- What the arguments ask for: a run, or an end with an exit code. -/
inductive Request where
  | run (arguments : Arguments)
  | leave (code : Nat)
deriving DecidableEq, Repr

def usageCode : Nat := 2

/-- Set a flag; `value` is there for the flags that take one. The mark in front of operands
is no value, so a flag that it is attached to has none. -/
def Arguments.set (arguments : Arguments) (flag : Flag) (value : Text) : Arguments :=
  let value := if value = lit "--" then none else some value
  match flag with
  | .suite => { arguments with suite := value }
  | .report => { arguments with report := value }
  | .quiet => { arguments with quiet := true }
  | .verbose => arguments
  | .help => arguments

def readOperands (progress : Progress) : List Text → Progress
  | [] => progress
  | text :: rest =>
      if progress.placed then { progress with surplus := true }
      else
        readOperands { progress with
          arguments := { progress.arguments with operand := some text }, placed := true } rest

/-- Read arguments from the left. The help flag ends the reading at once, a flag without
its value too; a surplus argument is noted only. -/
def readArguments (progress : Progress) : List Text → Except Nat Progress
  | [] => .ok progress
  | text :: rest =>
      match wordOf text with
      | .operand =>
          if progress.placed then
            readArguments { progress with surplus := true, atOperand := false } rest
          else
            readArguments { progress with
              arguments := { progress.arguments with operand := some text }
              placed := true, atOperand := true } rest
      | .divider =>
          -- When flags came behind the operand, the mark itself is one operand too many.
          if progress.placed && !progress.atOperand then .ok { progress with surplus := true }
          else .ok (readOperands progress rest)
      | .ambiguous => .error usageCode
      | .unknown => readArguments { progress with surplus := true, atOperand := false } rest
      | .flag flag short attached =>
          match cluster? flag short attached with
          | none => .error usageCode
          | some (flags, attached) =>
              -- Of flags written together only the last one can take a value.
              let last := flags.getLast?.getD flag
              let before := flags.dropLast.foldl (fun arguments flag => arguments.set flag [])
                progress.arguments
              if flags.contains .help && (!last.takesValue || attached.isSome) then .error 0
              else if !last.takesValue then
                readArguments { progress with
                  arguments := before.set last [], atOperand := false } rest
              else
                match attached with
                | some value =>
                    readArguments { progress with
                      arguments := before.set last value, atOperand := false } rest
                | none =>
                    match rest with
                    | [] => .error usageCode
                    | value :: rest =>
                        if wordOf value ≠ .operand then .error usageCode
                        else if flags.contains .help then .error 0
                        else
                          readArguments { progress with
                            arguments := before.set last value, atOperand := false } rest

def Arguments.suitePath? (arguments : Arguments) : Option Text :=
  match arguments.operand, arguments.suite with
  | some (first :: rest), _ => some (first :: rest)
  | _, some (first :: rest) => some (first :: rest)
  | _, _ => none

def Arguments.reportPath? (arguments : Arguments) : Option Text :=
  arguments.report.filter (!·.isEmpty)

def hasAmbiguous (texts : List Text) : Bool :=
  (texts.map wordOf).takeWhile (· ≠ .divider) |>.contains .ambiguous

/-- What a list of arguments asks for. An ambiguous argument is a mistake even behind the
help flag. A run needs a suite and no surplus argument. -/
def requestOf (texts : List Text) : Request :=
  if hasAmbiguous texts then .leave usageCode
  else
    match readArguments ⟨.initial, false, false, false⟩ texts with
    | .error code => .leave code
    | .ok progress =>
        if progress.surplus || progress.arguments.suitePath?.isNone then .leave usageCode
        else .run progress.arguments

end JsonTemplate.CommandLine
