import JsonTemplate.Json.Ascii
import JsonTemplate.Suite.Report

set_option autoImplicit false

/-!
# Report files

A report as a document, to be kept in a file.
-/

namespace JsonTemplate

def Json.ofFields (fields : List (String × Json)) : Json :=
  .object (fields.map fun (name, value) => (lit name, value))

def Json.ofNat (count : Nat) : Json := .number (.integer count)

def Json.ofText? : Option Text → Json
  | some text => .string text
  | none => .null

def Difference.toJson (difference : Difference) : Json :=
  Json.ofFields [
    ("path", .string (Path.render difference.path)),
    ("kind", .string difference.mismatch.word),
    ("expected", Json.ofText? difference.mismatch.expectedText?),
    ("actual", Json.ofText? difference.mismatch.actualText?),
    ("message", .string difference.message)]

def MatchResult.toJson (result : MatchResult) : Json :=
  Json.ofFields [
    ("success", .boolean result.success),
    ("mode", .string result.mode.word),
    ("differences", .array (result.differences.map Difference.toJson)),
    ("captures", .object (result.captures.map fun (name, value) =>
      (name, .string (Json.render value))))]

/-- A verdict as a document; what it does not have is left out. -/
def Verdict.toJson (verdict : Verdict) : Json :=
  Json.ofFields ([
    ("name", .string verdict.name),
    ("passed", .boolean verdict.passed)] ++
    (verdict.result.toList.map fun result => ("result", result.toJson)) ++
    (verdict.error.toList.map fun error => ("error", .string error)) ++
    (if verdict.failures.isEmpty then []
      else [("failures", .array (verdict.failures.map .string))]))

namespace Report

def summaryJson (report : Report) : Json :=
  Json.ofFields [
    ("total_cases", Json.ofNat report.total),
    ("passed", Json.ofNat report.passed),
    ("failed", Json.ofNat report.failed),
    ("pass_rate", .string report.rate)]

def toJson (report : Report) (time : Text) : Json :=
  Json.ofFields [
    ("timestamp", .string time),
    ("summary", report.summaryJson),
    ("cases", .array (report.verdicts.map Verdict.toJson))]

def fileText (report : Report) (time : Text) : Text :=
  Json.renderLines 0 (report.toJson time)

end Report

end JsonTemplate
