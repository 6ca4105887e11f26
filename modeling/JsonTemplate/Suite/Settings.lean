import JsonTemplate.Match

set_option autoImplicit false

/-!
# Settings of a suite

The `config` block: which capture is kept, and whether bare captures are quoted.
-/

namespace JsonTemplate.Suite

def misshapen (fault : ShapeFault) : Failure :=
  .escaped (.shape fault)

def shownOf (pool : Data.Pool) (given : Data) : Except Failure Text :=
  (given.show? pool).mapError fun cause => .escaped (.unshowable cause)

def policyKey : Text := lit "capture_policy"

def quotingKey : Text := lit "wrap_unquoted_tokens"

def policyOf (pool : Data.Pool) (given : Data) : Except Failure CapturePolicy := do
  let shown ← shownOf pool given
  let word := shown.asciiLower
  if word = lit "last" then return .last
  else if word = lit "first" then return .first
  else throw (.reported (.argument (.capturePolicy shown)))

def settingsOfEntries (pool : Data.Pool) (entries : List (Data × Data)) :
    Except Failure MatchConfig := do
  let policy ← match Data.lookup? entries policyKey with
    | some given => policyOf pool given
    | none => .ok MatchConfig.default.capturePolicy
  let quoteBare := match Data.lookup? entries quotingKey with
    | some given => given.isTrue pool
    | none => MatchConfig.default.quoteBare
  return ⟨policy, quoteBare⟩

def mentionsKey (values : List Data) : Bool :=
  values.any fun value => value.sameKey (.text policyKey) || value.sameKey (.text quotingKey)

/-- The settings of a `config` block. An empty block leaves the defaults. A text, a list or
a set is misshapen only if it mentions a key, since nothing else is asked of it. -/
def settingsOf (pool : Data.Pool) (block : Data) : Except Failure MatchConfig :=
  if !block.isTrue pool then .ok .default
  else
    match block.opened pool with
    | .mapping entries => settingsOfEntries pool entries
    | .text text =>
        if text.includes policyKey || text.includes quotingKey then
          .error (misshapen .configNotMapping)
        else .ok .default
    | .list items =>
        if mentionsKey items then .error (misshapen .configNotMapping) else .ok .default
    | .set members =>
        if mentionsKey members then .error (misshapen .configNotMapping) else .ok .default
    | _ => .error (misshapen .configNotMapping)

end JsonTemplate.Suite
