import JsonTemplate.Suite.Settings

set_option autoImplicit false

/-!
# Cases

One template and one document of a suite, and what is expected of their match.
-/

namespace JsonTemplate

/-- A case of a suite. The expected captures and the expected error are kept as they
are in the file; what they mean shows only when the case has run. -/
structure Case where
  name : Text
  expected : Text
  actual : Text
  mode : Mode
  expectMatch : Bool
  expectCaptures : List (Data × Data)
  expectError : Data

namespace Case

def modeOf? (given : Text) : Option Mode :=
  let word := given.asciiLower
  if word = lit "exact" then some .exact
  else if word = lit "subset" then some .subset
  else none

def inlineText (pool : Data.Pool) (value : Data) : Except Failure Text :=
  (value.documentText pool).mapError fun cause => Suite.misshapen (.notWritable cause)

def pairOf (pool : Data.Pool) (item : Data) : Except Failure (Data × Data) :=
  match item.items? pool with
  | none => .error (Suite.misshapen .capturesNotIterable)
  | some [key, value] =>
      if key.canBeKey then .ok (key, value) else .error (Suite.misshapen .captureKeyNotUsable)
  | some _ => .error (Suite.misshapen .captureNotPair)

def capturesOf (pool : Data.Pool) (block : Data) : Except Failure (List (Data × Data)) :=
  if !block.isTrue pool then .ok []
  else
    match block.entries? pool, block.items? pool with
    | some entries, _ => .ok entries
    | none, none => .error (Suite.misshapen .capturesNotIterable)
    | none, some items => do
        let pairs ← items.mapM (pairOf pool)
        return pairs.foldl (fun entered (key, value) => Data.enter key value entered) []

def requiredKeys : List Text := [lit "expected", lit "actual"]

def ofEntries (pool : Data.Pool) (entries : List (Data × Data)) (number : Int) :
    Except Failure Case := do
  let absent := requiredKeys.filter fun key => (Data.lookup? entries key).isNone
  if !absent.isEmpty then
    throw (.reported (.argument (.caseMissing number absent)))
  let givenMode ←
    Suite.shownOf pool ((Data.lookup? entries (lit "mode")).getD (.text (lit "exact")))
  let some mode := modeOf? givenMode
    | throw (.reported (.argument (.caseMode number givenMode)))
  let name ← match Data.lookup? entries (lit "name") with
    | some name => Suite.shownOf pool name
    | none => .ok (lit "case-" ++ Numeral.ofInt number)
  let expected ← inlineText pool (Data.lookupD entries (lit "expected"))
  let actual ← inlineText pool (Data.lookupD entries (lit "actual"))
  let expectMatch := match Data.lookup? entries (lit "expect_match") with
    | some given => given.isTrue pool
    | none => true
  let expectCaptures ← capturesOf pool (Data.lookupD entries (lit "expect_captures"))
  return ⟨name, expected, actual, mode, expectMatch, expectCaptures,
    Data.lookupD entries (lit "expect_error")⟩

/-- The case of a value at a place of the `cases` block; `index` counts the cases before
it. -/
def ofData (pool : Data.Pool) (value : Data) (index : Int) : Except Failure Case :=
  match value.entries? pool with
  | some entries => ofEntries pool entries (index + 1)
  | none => .error (.reported (.argument (.caseNotMapping (index + 1))))

end Case

end JsonTemplate
