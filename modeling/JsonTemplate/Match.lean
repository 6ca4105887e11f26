import JsonTemplate.Comparison.Worklist
import JsonTemplate.Document
import JsonTemplate.Placeholder.Bare
import JsonTemplate.Resolution

set_option autoImplicit false

/-!
# Matching

A template text and a document text are read, the calls of the template are resolved,
and the two are compared.
-/

namespace JsonTemplate

structure MatchConfig where
  capturePolicy : CapturePolicy
  quoteBare : Bool
deriving DecidableEq, Repr

def MatchConfig.default : MatchConfig := ⟨.last, true⟩

structure MatchResult where
  mode : Mode
  differences : List Difference
  captures : Bindings Json
deriving Repr

def MatchResult.success (result : MatchResult) : Bool :=
  result.differences.isEmpty

namespace Match

/-- The template document with its bare captures quoted, if that is wanted. Octets are
not looked into. -/
def prepare (config : MatchConfig) : Document → Document
  | .text text => .text (if config.quoteBare then Placeholder.quoteBare text else text)
  | other => other

def compareTrees (config : MatchConfig) (mode : Mode) (expected : Template) (actual : Json) :
    MatchResult :=
  let comparison := (Comparison.compare mode config.capturePolicy .empty [] expected actual).2
  ⟨mode, comparison.differences, comparison.captures⟩

/-- The template and the document of two texts; the template is read first. -/
def readBoth (config : MatchConfig) (expected actual : Document) :
    Except Failure (Template × Json) := do
  let expected ← (prepare config expected).read (some (lit "expected"))
  let actual ← actual.read (some (lit "actual"))
  return (Template.ofJson expected, actual)

/-- Match a document with a template. No function is called unless both can be read. -/
def run {σ : Type} (registry : Registry σ) (config : MatchConfig) (mode : Mode)
    (expected actual : Document) (world : σ) : Except Failure MatchResult × σ :=
  match readBoth config expected actual with
  | .error failure => (.error failure, world)
  | .ok (template, document) =>
      match template.resolve registry world with
      | (.error error, progress) => (.error (.reported error), progress.world)
      | (.ok resolved, progress) =>
          (.ok (compareTrees config mode resolved document), progress.world)

end Match

namespace MatchResult

def demand : Mode → Text
  | .exact => lit "match the expected document exactly"
  | .subset => lit "contain the expected subset"

/-- The message about a match that was asserted and did not succeed: a headline with the
reason, if there is one, and a line for every difference. -/
def mismatchMessage (result : MatchResult) (reason : Text) : Text :=
  let headline := lit "Expected JSON to " ++ demand result.mode ++
    (if reason.isEmpty then [] else lit " because " ++ reason) ++ lit ", but found " ++
    Numeral.ofNat result.differences.length ++ lit " mismatch(es):"
  Text.join (lit "\n") (headline :: result.differences.map fun difference =>
    lit "  - " ++ difference.message)

def assert (result : MatchResult) (reason : Text) : Except Text (Bindings Json) :=
  if result.success then .ok result.captures else .error (result.mismatchMessage reason)

end MatchResult

end JsonTemplate
