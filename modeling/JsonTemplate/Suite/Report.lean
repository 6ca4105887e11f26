import JsonTemplate.Suite.Verdict

set_option autoImplicit false

/-!
# Reports

The verdicts of a run, their counts, and their text.
-/

namespace JsonTemplate

structure Report where
  total : Nat
  passed : Nat
  failed : Nat
  verdicts : List Verdict

def ratePlaces : Nat := 1

namespace Verdict

/-- The lines about a verdict: its outcome, then the error unless it was expected, then
the failures, all indented. -/
def lines (verdict : Verdict) : List Text :=
  let outcome := if verdict.passed then lit "PASS: " else lit "FAIL: "
  let error := if verdict.passed then [] else verdict.error.toList
  (outcome ++ verdict.name) :: (error ++ verdict.failures).map (lit "    " ++ ·)

end Verdict

namespace Report

def empty : Report := ⟨0, 0, 0, []⟩

def add (report : Report) (verdict : Verdict) : Report where
  total := report.total + 1
  passed := if verdict.passed then report.passed + 1 else report.passed
  failed := if verdict.passed then report.failed else report.failed + 1
  verdicts := report.verdicts ++ [verdict]

def rateText (passed total : Nat) : Text :=
  if total = 0 then lit "0.0%"
  else
    Binary64.fixedText ratePlaces (Float.ofNat passed / Float.ofNat total * 100) ++ lit "%"

def rate (report : Report) : Text := rateText report.passed report.total

def summaryLines (report : Report) : List Text :=
  let headline := lit "Suite Results: " ++ Numeral.ofNat report.passed ++ lit "/" ++
    Numeral.ofNat report.total ++ lit " passed (" ++ report.rate ++ lit ")"
  let failed := if report.failed = 0 then []
    else (lit "  Failed: " ++ Numeral.ofNat report.failed) ::
      (report.verdicts.filter (!·.passed)).map fun verdict => lit "  - " ++ verdict.name
  [] :: headline :: failed

def textOf (lines : List Text) : Text :=
  lines.flatMap (· ++ [.scalar '\n'])

def summary (report : Report) : Text := textOf report.summaryLines

def text (report : Report) : Text :=
  textOf (report.verdicts.flatMap Verdict.lines ++ report.summaryLines)

end Report

end JsonTemplate
