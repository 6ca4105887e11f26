import JsonTemplate.Yaml.Name

set_option autoImplicit false

/-!
# Tokens

A YAML text as a list of tokens, in which the layout of blocks is spelled out. Whether a
token is a key shows only at the colon behind it, so the places of possible keys are
remembered, and the tokens for a key are put in there when its colon comes. Tokens are
read only as far as they are needed: up to where it is settled what the next one is.
-/

namespace JsonTemplate.Yaml

inductive Token where
  | directive (said : Directive)
  | documentStart
  | documentEnd
  | blockSequenceStart
  | blockMappingStart
  | blockEnd
  | flowSequenceStart
  | flowSequenceEnd
  | flowMappingStart
  | flowMappingEnd
  | blockEntry
  | flowEntry
  | key
  | value
  | alias (name : Text)
  | anchor (name : Text)
  | tag (handle : Option Text) (suffix : Text)
  | scalar (plain : Bool) (text : Text)
  | textEnd
deriving DecidableEq, Repr

/-- A place where a key may have begun: the number of the tokens before it, whether it
has to be a key, and where it is. -/
structure PossibleKey where
  tokensBefore : Nat
  required : Bool
  index : Nat
  line : Nat
  column : Nat

def keyReach : Nat := 1024

/-- The state of reading tokens: those read so far, and how many of them have been used.
The columns of the open blocks start with the innermost one, and the possible keys with
the innermost flow collection. The length of the whole text bounds every loop. -/
structure Lexer where
  length : Nat
  cursor : Cursor
  tokens : Array Token
  used : Nat
  indents : List Nat
  keys : List (Option PossibleKey)
  keyAllowed : Bool

namespace Lexer

def start (text : Text) : Lexer := ⟨text.length, .start text, #[], 0, [], [none], true⟩

/-- The column of the innermost block; outside all blocks it is left of every column. -/
def indent (lexer : Lexer) : Int :=
  match lexer.indents with
  | [] => -1
  | column :: _ => column

def inFlow (lexer : Lexer) : Bool := 1 < lexer.keys.length

def push (lexer : Lexer) (token : Token) : Lexer :=
  { lexer with tokens := lexer.tokens.push token }

def take (lexer : Lexer) (places : Nat) (token : Token) : Lexer :=
  { lexer with tokens := lexer.tokens.push token, cursor := lexer.cursor.advance places }

def closeBlocks (column : Int) (lexer : Lexer) : Lexer :=
  if lexer.inFlow then lexer
  else
    let closed := lexer.indents.takeWhile fun (indent : Nat) => decide (column < (indent : Int))
    if closed.isEmpty then lexer
    else
      { lexer with
        indents := lexer.indents.drop closed.length
        tokens := lexer.tokens ++ Array.replicate closed.length Token.blockEnd }

/-- Open a block at a column if it is to the right of the innermost one; tells whether
it was opened. -/
def openBlock (column : Nat) (lexer : Lexer) : Bool × Lexer :=
  if lexer.indent < column then (true, { lexer with indents := column :: lexer.indents })
  else (false, lexer)

def openBlockHere (token : Token) (lexer : Lexer) : Lexer :=
  match lexer.openBlock lexer.cursor.column with
  | (true, opened) => opened.push token
  | (false, _) => lexer

/-- Give up the possible key of the innermost collection, unless it has to be a key. -/
def dropKey (lexer : Lexer) : Except Fault Lexer :=
  match lexer.keys with
  | some key :: outer =>
      if key.required then .error .malformed else .ok { lexer with keys := none :: outer }
  | _ => .ok lexer

def noteKey (lexer : Lexer) : Except Fault Lexer :=
  if !lexer.keyAllowed then .ok lexer
  else do
    let lexer ← lexer.dropKey
    let cursor := lexer.cursor
    let key : PossibleKey :=
      ⟨lexer.tokens.size, !lexer.inFlow && lexer.indent == cursor.column, cursor.index,
        cursor.line, cursor.column⟩
    return { lexer with keys := some key :: lexer.keys.drop 1 }

/-- Give up the possible keys whose colon can no longer come: it has to stand on the same
line and within reach. -/
def dropStaleKeys (lexer : Lexer) : Except Fault Lexer := do
  let keys ← lexer.keys.mapM fun
    | none => .ok none
    | some key =>
        if key.line = lexer.cursor.line ∧ lexer.cursor.index ≤ key.index + keyReach then
          .ok (some key)
        else if key.required then .error .malformed
        else .ok none
  return { lexer with keys := keys }

/-- Past spaces, comments and line ends to the next token. After a line end outside flow
collections a key may begin. -/
def skipToToken : Nat → Lexer → Lexer
  | 0, lexer => lexer
  | fuel + 1, lexer =>
      let cursor := lexer.cursor.skipWhile isSpace
      let cursor := if cursor.isAt '#' then cursor.skipWhile (!isBreak ·) else cursor
      match takeBreak cursor with
      | ([], _) => { lexer with cursor := cursor }
      | (_, after) =>
          skipToToken fuel
            { lexer with cursor := after, keyAllowed := lexer.keyAllowed || !lexer.inFlow }

def leaveBlocks (lexer : Lexer) : Except Fault Lexer := do
  let lexer ← (lexer.closeBlocks (-1)).dropKey
  return { lexer with keyAllowed := false }

/-! ## Properties and directives -/

def takeDirective (lexer : Lexer) : Except Fault Lexer := do
  let lexer ← lexer.leaveBlocks
  let (said, after) ← directive lexer.cursor.next
  return { lexer with cursor := after, tokens := lexer.tokens.push (.directive said) }

def takeName (make : Text → Token) (lexer : Lexer) : Except Fault Lexer := do
  let lexer ← lexer.noteKey
  let (name, after) := lexer.cursor.next.takeWhile isWordPart
  if name.isEmpty || !(isGap after.here || isOneOf "?:,]\x7d%@\x60" after.here) then
    throw .malformed
  return { lexer with cursor := after, tokens := lexer.tokens.push (make name),
                      keyAllowed := false }

def takeTag (lexer : Lexer) : Except Fault Lexer := do
  let lexer ← lexer.noteKey
  let (handle, suffix, after) ← tagParts lexer.cursor
  if !isWordEnd after then throw .malformed
  return { lexer with cursor := after, tokens := lexer.tokens.push (.tag handle suffix),
                      keyAllowed := false }

/-! ## Structure -/

def openFlow (token : Token) (lexer : Lexer) : Except Fault Lexer := do
  let lexer ← lexer.noteKey
  let lexer := lexer.take 1 token
  return { lexer with keys := none :: lexer.keys, keyAllowed := true }

def closeFlow (token : Token) (lexer : Lexer) : Except Fault Lexer := do
  if !lexer.inFlow then throw .malformed
  let lexer ← lexer.dropKey
  let lexer := lexer.take 1 token
  return { lexer with keys := lexer.keys.drop 1, keyAllowed := false }

def takeFlowEntry (lexer : Lexer) : Except Fault Lexer := do
  let lexer ← { lexer with keyAllowed := true }.dropKey
  return lexer.take 1 .flowEntry

def takeBlockEntry (lexer : Lexer) : Except Fault Lexer := do
  if !lexer.inFlow && !lexer.keyAllowed then throw .malformed
  let lexer := if lexer.inFlow then lexer else lexer.openBlockHere .blockSequenceStart
  let lexer ← { lexer with keyAllowed := true }.dropKey
  return lexer.take 1 .blockEntry

def takeKey (lexer : Lexer) : Except Fault Lexer := do
  if !lexer.inFlow && !lexer.keyAllowed then throw .malformed
  let lexer := if lexer.inFlow then lexer else lexer.openBlockHere .blockMappingStart
  let lexer ← { lexer with keyAllowed := !lexer.inFlow }.dropKey
  return lexer.take 1 .key

def insertKey (key : PossibleKey) (opened : Bool) (tokens : Array Token) : Array Token :=
  let tokens := tokens.insertIdxIfInBounds key.tokensBefore .key
  if opened then tokens.insertIdxIfInBounds key.tokensBefore .blockMappingStart else tokens

/-- A colon before a value. What may have been a key is one now; without one, the value
belongs to a key marked before. -/
def takeValue (lexer : Lexer) : Except Fault Lexer := do
  match lexer.keys with
  | some key :: outer =>
      -- The tokens that mark the key belong in front of what was read since it began.
      let (opened, lexer) := if lexer.inFlow then (false, lexer) else lexer.openBlock key.column
      let lexer := { lexer with
        tokens := insertKey key opened lexer.tokens, keys := none :: outer, keyAllowed := false }
      return lexer.take 1 .value
  | _ =>
      if !lexer.inFlow && !lexer.keyAllowed then throw .malformed
      let lexer := if lexer.inFlow then lexer else lexer.openBlockHere .blockMappingStart
      let lexer ← { lexer with keyAllowed := !lexer.inFlow }.dropKey
      return lexer.take 1 .value

def takeBlockScalar (folded : Bool) (lexer : Lexer) : Except Fault Lexer := do
  let lexer ← { lexer with keyAllowed := true }.dropKey
  let (text, after) ← blockScalar folded lexer.indent lexer.cursor.next
  return { lexer with cursor := after, tokens := lexer.tokens.push (.scalar false text) }

def takeQuoted (double : Bool) (lexer : Lexer) : Except Fault Lexer := do
  let lexer ← lexer.noteKey
  let start := lexer.cursor.next
  let (text, after) ← quotedScalar double (lexer.length + 1) start
  return { lexer with cursor := after, tokens := lexer.tokens.push (.scalar false text),
                      keyAllowed := false }

/-- A plain scalar; a key may begin after it when a line ended behind it. -/
def takePlain (lexer : Lexer) : Except Fault Lexer := do
  let lexer ← lexer.noteKey
  let (text, ended, after) :=
    plainScalar lexer.inFlow (lexer.indent + 1) (lexer.length + 1) [] false lexer.cursor
  return { lexer with cursor := after, tokens := lexer.tokens.push (.scalar true text),
                      keyAllowed := ended }

def startsPlain (inFlow : Bool) (cursor : Cursor) : Bool :=
  !(isGap cursor.here || isOneOf "-?:,[]\x7b\x7d#&*!|>'\"%@\x60" cursor.here) ||
    (!isGap (cursor.ahead 1) &&
      (cursor.isAt '-' || (!inFlow && (cursor.isAt '?' || cursor.isAt ':'))))

def takeToken (lexer : Lexer) : Except Fault Lexer :=
  let cursor := lexer.cursor
  let spaced := isGap (cursor.ahead 1)
  let atMargin := cursor.column = 0
  if atMargin && cursor.isAt '%' then lexer.takeDirective
  else if atMargin && isMarked '-' cursor then do
    return (← lexer.leaveBlocks).take 3 .documentStart
  else if atMargin && isMarked '.' cursor then do
    return (← lexer.leaveBlocks).take 3 .documentEnd
  else if cursor.isAt '[' then lexer.openFlow .flowSequenceStart
  else if cursor.isAt '\x7b' then lexer.openFlow .flowMappingStart
  else if cursor.isAt ']' then lexer.closeFlow .flowSequenceEnd
  else if cursor.isAt '\x7d' then lexer.closeFlow .flowMappingEnd
  else if cursor.isAt ',' then lexer.takeFlowEntry
  else if cursor.isAt '-' && spaced then lexer.takeBlockEntry
  else if cursor.isAt '?' && (lexer.inFlow || spaced) then lexer.takeKey
  else if cursor.isAt ':' && (lexer.inFlow || spaced) then lexer.takeValue
  else if cursor.isAt '*' then lexer.takeName .alias
  else if cursor.isAt '&' then lexer.takeName .anchor
  else if cursor.isAt '!' then lexer.takeTag
  else if cursor.isAt '|' && !lexer.inFlow then lexer.takeBlockScalar false
  else if cursor.isAt '>' && !lexer.inFlow then lexer.takeBlockScalar true
  else if cursor.isAt '\'' then lexer.takeQuoted false
  else if cursor.isAt '"' then lexer.takeQuoted true
  else if startsPlain lexer.inFlow cursor then lexer.takePlain
  else .error .malformed

def readToken (lexer : Lexer) : Except Fault Lexer := do
  let lexer ← (lexer.skipToToken (lexer.length + 1)).dropStaleKeys
  let lexer := lexer.closeBlocks lexer.cursor.column
  if lexer.cursor.rest.isEmpty then return (← lexer.leaveBlocks).push .textEnd
  else lexer.takeToken

def isDone (lexer : Lexer) : Bool := lexer.tokens.back? == some .textEnd

def isOpen (lexer : Lexer) : Bool :=
  lexer.keys.any fun key => key.any (·.tokensBefore = lexer.used)

/-- Read as many tokens as it takes to settle what the next one is. Every token takes at
least one place of the text. -/
def settle : Nat → Lexer → Except Fault Lexer
  | 0, _ => .error .malformed
  | fuel + 1, lexer =>
      if lexer.isDone then .ok lexer
      else if lexer.tokens.size ≤ lexer.used then do settle fuel (← lexer.readToken)
      else do
        -- A colon further on may still put tokens in front of this one.
        let lexer ← lexer.dropStaleKeys
        if lexer.isOpen then settle fuel (← lexer.readToken) else return lexer

def peek (lexer : Lexer) : Except Fault (Token × Lexer) := do
  let lexer ← lexer.settle (lexer.length + 3)
  return ((lexer.tokens[lexer.used]?).getD .textEnd, lexer)

def skip (lexer : Lexer) : Lexer := { lexer with used := lexer.used + 1 }

def ofText (text : Text) : Except Fault Lexer :=
  if !text.all isAllowed then .error .malformed
  else
    let lexer := Lexer.start text
    if lexer.cursor.here.any (fun point => point.value = 0xFEFF) then
      .ok { lexer with cursor := lexer.cursor.next }
    else .ok lexer

end Lexer

end JsonTemplate.Yaml
