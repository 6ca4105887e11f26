import JsonTemplate.Data.Display
import JsonTemplate.Data.JsonText
import JsonTemplate.Json.Reader
import JsonTemplate.Time.IsoText
import JsonTemplate.Yaml.Fault

set_option autoImplicit false

/-!
# Errors

Errors are causes; their wording is worked out from the cause. An error that the
library reports is told apart from a failure that it does not catch.
-/

namespace JsonTemplate

inductive ArgumentFault where
  | notText (source : Option Text) (typeName : Text)
  | clock (given : Text) (fault : IsoText.Fault)
  | blankName
  | invalidName (name : Text)
  | missingFunction
  | notCallable (name typeName : Text)
  | capturePolicy (given : Text)
  | suiteNotMapping
  | caseNotMapping (number : Int)
  | caseMissing (number : Int) (keys : List Text)
  | caseMode (number : Int) (given : Text)
  | suiteText
deriving DecidableEq, Repr

namespace ArgumentFault

def message : ArgumentFault → Text
  | .notText source typeName =>
      let label := match source with
        | some (first :: rest) => first :: rest
        | _ => lit "document"
      label ++ lit " must be JSON text, got " ++ typeName
  | .clock given fault =>
      lit "Cannot parse clock instant '" ++ given ++ lit "': " ++ fault.message
  | .blankName => lit "Function name cannot be empty"
  | .invalidName name =>
      lit "Function name '" ++ name ++ lit "' may only contain letters, digits and underscores"
  | .missingFunction => lit "Function cannot be None"
  | .notCallable name typeName =>
      lit "Function '" ++ name ++ lit "' must be callable, got " ++ typeName
  | .capturePolicy given => lit "Unknown capture policy '" ++ given ++ lit "'"
  | .suiteNotMapping => lit "Suite must be a mapping"
  | .caseNotMapping number => lit "Case " ++ Numeral.ofInt number ++ lit " must be a mapping"
  | .caseMissing number keys =>
      lit "Case " ++ Numeral.ofInt number ++ lit " is missing: " ++ Text.join (lit ", ") keys
  | .caseMode number given =>
      lit "Case " ++ Numeral.ofInt number ++ lit " has unknown mode '" ++ given ++ lit "'"
  | .suiteText => lit "Failed to parse suite file:"

def argument : ArgumentFault → Option Text
  | .notText source _ => source
  | .clock _ _ => some (lit "clock")
  | .blankName => some (lit "name")
  | .invalidName _ => some (lit "name")
  | .missingFunction => some (lit "fn")
  | .notCallable _ _ => some (lit "fn")
  | .capturePolicy _ => some (lit "capture_policy")
  | .suiteNotMapping => some (lit "suite")
  | .caseNotMapping _ => some (lit "cases")
  | .caseMissing _ _ => some (lit "cases")
  | .caseMode _ _ => some (lit "mode")
  | .suiteText => some (lit "path")

end ArgumentFault

inductive Error where
  | argument (fault : ArgumentFault)
  | parse (source : Option Text) (fault : Json.Fault)
  | duplicateFunction (name : Text)
  | functionNotFound (name : Data)
  | functionFailed (name reason : Text)

namespace Error

/-- The word for the kind of an error, by which a case can expect it. -/
def kind : Error → Text
  | .argument _ => lit "InvalidArgumentError"
  | .parse _ _ => lit "ParseError"
  | .duplicateFunction _ => lit "DuplicateFunctionError"
  | .functionNotFound _ => lit "FunctionNotFoundError"
  | .functionFailed _ _ => lit "FunctionExecutionError"

/-- The label of a document inside a message, with the blank behind it. -/
def label : Option Text → Text
  | some (first :: rest) => first :: rest ++ lit " "
  | _ => []

def place : Option Json.Position → Text
  | some position =>
      lit " (line " ++ Numeral.ofNat position.line ++ lit ", column " ++
        Numeral.ofNat position.column ++ lit ")"
  | none => []

def unknownFunction (name : Text) : Text :=
  lit "Function '" ++ name ++ lit "' is not registered"

def message : Error → Text
  | .argument fault => fault.message
  | .parse source fault =>
      lit "Invalid " ++ label source ++ lit "JSON: " ++ fault.message ++ place fault.position?
  | .duplicateFunction name => lit "Function '" ++ name ++ lit "' is already registered"
  | .functionNotFound name => unknownFunction name.shown
  | .functionFailed name reason =>
      lit "Error executing function '" ++ name ++ lit "': " ++ reason

end Error

/-- A block of a suite whose shape does not fit its use. -/
inductive ShapeFault where
  | configNotMapping
  | functionsNotMapping
  | casesNotList
  | capturesNotIterable
  | captureNotPair
  | captureKeyNotUsable
  | notWritable (cause : Data.Unwritable)
deriving DecidableEq, Repr

/-- A failure that is not reported as an error of the library and ends a run. -/
inductive Escape where
  | numberOutOfRange
  | shape (fault : ShapeFault)
  | unshowable (cause : Data.Unshowable)
  | suiteValue (fault : Yaml.Fault)
  | fileMissing (path : Text)
  | fileIsDirectory
  | fileNotUtf8
deriving DecidableEq, Repr

inductive Failure where
  | reported (error : Error)
  | escaped (escape : Escape)

def Json.Refusal.failure (source : Option Text) : Json.Refusal → Failure
  | .fault found => .reported (.parse source found)
  | .numberOutOfRange => .escaped .numberOutOfRange

end JsonTemplate
