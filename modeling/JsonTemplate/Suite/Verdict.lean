import JsonTemplate.Suite.Case
import JsonTemplate.Suite.Variables

set_option autoImplicit false

/-!
# Verdicts

What running a case says: whether it passed, and what was wrong with it.
-/

namespace JsonTemplate

/-- The outcome of a case. It has a match result, or the text of the error that ended
the match. -/
structure Verdict where
  name : Text
  passed : Bool
  result : Option MatchResult
  error : Option Text
  failures : List Text

namespace Verdict

def unusable (name cause : Text) : Text :=
  lit "Capture '" ++ name ++ lit "': cannot use expected value: " ++ cause

def captureFailures (pool : Data.Pool) (captures : Bindings Json) (key wanted : Data) :
    Except Failure (List Text) := do
  let name ← Suite.shownOf pool key
  let captured := match key with
    | .text name => captures.get? name
    | _ => none
  match captured with
  | none => return [lit "Capture '" ++ name ++ lit "' was not recorded"]
  | some found =>
      match wanted.jsonText pool with
      -- Nesting that is too deep is the only cause that no verdict reports.
      | .error .tooDeep => throw (Suite.misshapen (.notWritable .tooDeep))
      | .error cause => return [unusable name cause.message]
      | .ok text =>
          match Document.read (some (lit "expected capture")) (.text text) with
          | .error (.reported error) => return [unusable name error.message]
          | .error failure => throw failure
          | .ok value =>
              -- Placeholders in the wanted value stand for themselves.
              let comparison :=
                (Comparison.compare .exact .last .empty [] (Template.literal value) found).2
              return comparison.differences.map fun difference =>
                lit "Capture '" ++ name ++ lit "': " ++ difference.message

def matchFailures (entry : Case) (result : MatchResult) : List Text :=
  if entry.expectMatch && !result.success then result.differences.map Difference.message
  else if !entry.expectMatch && result.success then
    [lit "Expected a mismatch, but the documents matched"]
  else []

def errorFailures (pool : Data.Pool) (entry : Case) : Except Failure (List Text) := do
  if entry.expectError.isTrue pool then
    let shown ← Suite.shownOf pool entry.expectError
    return [lit "Expected " ++ shown ++ lit ", but the comparison completed"]
  else return []

def ofResult (pool : Data.Pool) (entry : Case) (result : MatchResult) :
    Except Failure Verdict := do
  let errorFailures ← errorFailures pool entry
  let captureFailures ← entry.expectCaptures.mapM fun (key, wanted) =>
    captureFailures pool result.captures key wanted
  let failures := errorFailures ++ matchFailures entry result ++ captureFailures.flatten
  return ⟨entry.name, failures.isEmpty, some result, none, failures⟩

/-- The verdict on a match that ended with an error: it passes when an error of that
kind was expected. -/
def ofError (entry : Case) (error : Error) : Verdict :=
  let expected := match entry.expectError with
    | .text kind => kind = error.kind
    | _ => false
  ⟨entry.name, expected, none, some (error.kind ++ lit ": " ++ error.message), []⟩

end Verdict

end JsonTemplate
