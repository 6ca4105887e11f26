import JsonTemplate.Text.Utf8
import JsonTemplate.Yaml.Scalar

set_option autoImplicit false

/-!
# Names

The names of anchors, the handles and suffixes of tags, and the lines of directives.
-/

namespace JsonTemplate.Yaml

def isWordPart : CodePoint → Bool
  | .scalar character => character.isAlphanum || character == '-' || character == '_'
  | .surrogate _ => false

/-- The characters that the suffix of a tag may have, apart from escaped octets. -/
def isTagPart : CodePoint → Bool
  | .scalar character =>
      character.isAlphanum || "-;/?:@&=+$,_.!~*'()[]".toList.contains character
  | .surrogate _ => false

def isWordEnd (cursor : Cursor) : Bool :=
  isStop cursor.here || cursor.isAt ' '

/-! ## Tags -/

def escapedOctets : Nat → Cursor → Except Fault (List UInt8 × Cursor)
  | 0, cursor => .ok ([], cursor)
  | fuel + 1, cursor =>
      if cursor.isAt '%' then
        let digits := cursor.next.rest.take 2
        match hexNumber? digits, digits.length == 2 with
        | some number, true => do
            let (octets, after) ← escapedOctets fuel (cursor.advance 3)
            return (.ofNat number :: octets, after)
        | _, _ => .error .malformed
      else .ok ([], cursor)

/-- The rest of a tag's suffix. Escaped octets stand for the text that they encode. -/
def suffixFrom : Nat → Cursor → Except Fault (Text × Cursor)
  | 0, cursor => .ok ([], cursor)
  | fuel + 1, cursor =>
      match cursor.here with
      | none => .ok ([], cursor)
      | some point =>
          if point = .scalar '%' then do
            let (octets, after) ← escapedOctets cursor.rest.length cursor
            match Utf8.decode octets with
            | .error _ => throw .malformed
            | .ok text =>
                let (others, after) ← suffixFrom fuel after
                return (text ++ others, after)
          else if isTagPart point then do
            let (others, after) ← suffixFrom fuel cursor.next
            return (point :: others, after)
          else .ok ([], cursor)

def tagSuffix (cursor : Cursor) : Except Fault (Text × Cursor) := do
  let (suffix, after) ← suffixFrom cursor.rest.length cursor
  if suffix.isEmpty then throw .malformed
  return (suffix, after)

/-- The handle of a tag: an exclamation mark alone in front of a space, or a word between
two of them. -/
def tagHandle (cursor : Cursor) : Except Fault (Text × Cursor) := do
  if !cursor.isAt '!' then throw .malformed
  if cursor.next.isAt ' ' then return ([.scalar '!'], cursor.next)
  let (word, after) := cursor.next.takeWhile isWordPart
  if !after.isAt '!' then throw .malformed
  return (.scalar '!' :: word ++ [.scalar '!'], after.next)

/-- The handle and the suffix of a tag. Without a second exclamation mark in its word,
the first one is the handle. -/
def tagParts (cursor : Cursor) : Except Fault (Option Text × Text × Cursor) := do
  let second := cursor.ahead 1
  if second == some (.scalar '<') then
    let (suffix, after) ← tagSuffix (cursor.advance 2)
    if after.isAt '>' then return (none, suffix, after.next) else throw .malformed
  else if isGap second then return (none, [.scalar '!'], cursor.next)
  else
    let word := cursor.next.rest.takeWhile fun point => !(isBreak point || isSpace point)
    let (handle, after) ←
      if word.contains (.scalar '!') then tagHandle cursor
      else .ok ([.scalar '!'], cursor.next)
    let (suffix, after) ← tagSuffix after
    return (some handle, suffix, after)

/-! ## Directives -/

/-- What a directive says about the document after it: the major number of its version,
what a handle stands for, or something that is passed over. -/
inductive Directive where
  | version (major : Nat)
  | handle (name meant : Text)
  | other
deriving DecidableEq, Repr

def versionPart (cursor : Cursor) : Except Fault (Nat × Cursor) := do
  let (digits, after) := cursor.takeWhile CodePoint.isDigit
  if digits.isEmpty then throw .malformed
  if Numeral.mostDigits < digits.length then throw .badValue
  return (Numeral.value digits, after)

def versionDirective (cursor : Cursor) : Except Fault (Directive × Cursor) := do
  let (major, after) ← versionPart (cursor.skipWhile isSpace)
  if !after.isAt '.' then throw .malformed
  let (_, after) ← versionPart after.next
  if !isWordEnd after then throw .malformed
  return (.version major, after)

def handleDirective (cursor : Cursor) : Except Fault (Directive × Cursor) := do
  let (name, after) ← tagHandle (cursor.skipWhile isSpace)
  if !after.isAt ' ' then throw .malformed
  let (meant, after) ← tagSuffix (after.skipWhile isSpace)
  if !isWordEnd after then throw .malformed
  return (.handle name meant, after)

/-- A directive behind its percent sign, with the end of its line. After what it says only
a comment may stand. -/
def directive (cursor : Cursor) : Except Fault (Directive × Cursor) := do
  let (name, after) := cursor.takeWhile isWordPart
  if name.isEmpty || !isWordEnd after then throw .malformed
  let (said, after) ←
    if name = lit "YAML" then versionDirective after
    else if name = lit "TAG" then handleDirective after
    else .ok (.other, after.skipWhile (!isBreak ·))
  let after := after.skipWhile isSpace
  let after := if after.isAt '#' then after.skipWhile (!isBreak ·) else after
  if !isStop after.here then throw .malformed
  return (said, (takeBreak after).2)

end JsonTemplate.Yaml
