import JsonTemplate.Yaml.Cursor

set_option autoImplicit false

/-!
# The text of scalars

Plain, quoted and block scalars: where they end, and what text they stand for once
their lines are folded. Loops take the length of the remaining text as fuel, since
every round moves on.
-/

namespace JsonTemplate.Yaml

/-! ## Block scalars -/

inductive Chomping where
  | clip
  | strip
  | keep
deriving DecidableEq, Repr

def chomping? (point : Option CodePoint) : Option Chomping :=
  if point == some (.scalar '+') then some .keep
  else if point == some (.scalar '-') then some .strip
  else none

def increment? (point : Option CodePoint) : Option Nat :=
  match point with
  | some point => if point.isDigit && point.digitValue ≠ 0 then some point.digitValue else none
  | none => none

def blockIndicators (cursor : Cursor) : Except Fault (Chomping × Option Nat × Cursor) := do
  let (chomping, increment, cursor) :=
    match chomping? cursor.here with
    | some chomping =>
        match increment? cursor.next.here with
        | some increment => (chomping, some increment, cursor.advance 2)
        | none => (chomping, none, cursor.next)
    | none =>
        match increment? cursor.here with
        | some increment =>
            match chomping? cursor.next.here with
            | some chomping => (chomping, some increment, cursor.advance 2)
            | none => (.clip, some increment, cursor.next)
        | none => (.clip, none, cursor)
  let gap := cursor.skipWhile isSpace
  if gap.column = cursor.column && !isStop cursor.here then throw .malformed
  let after := if gap.isAt '#' then gap.skipWhile (!isBreak ·) else gap
  if !isStop after.here then throw .malformed
  return (chomping, increment, (takeBreak after).2)

/-- Past empty lines and spaces: the line ends, and the largest column reached. -/
def blockStart : Nat → Cursor → (Text × Nat × Cursor)
  | 0, cursor => ([], 0, cursor)
  | fuel + 1, cursor =>
      if cursor.isAt ' ' then
        let (breaks, widest, after) := blockStart fuel cursor.next
        (breaks, max widest cursor.next.column, after)
      else
        match takeBreak cursor with
        | ([], _) => ([], 0, cursor)
        | (first, after) =>
            let (breaks, widest, after) := blockStart fuel after
            (first ++ breaks, widest, after)

def skipIndent : Nat → Nat → Cursor → Cursor
  | 0, _, cursor => cursor
  | fuel + 1, indent, cursor =>
      if cursor.column < indent && cursor.isAt ' ' then skipIndent fuel indent cursor.next
      else cursor

def blockBreaks : Nat → Nat → Cursor → Text × Cursor
  | 0, _, cursor => ([], cursor)
  | fuel + 1, indent, cursor =>
      let cursor := skipIndent indent indent cursor
      match takeBreak cursor with
      | ([], _) => ([], cursor)
      | (first, after) =>
          let (breaks, after) := blockBreaks fuel indent after
          (first ++ breaks, after)

/-- The lines of a block scalar at an indentation: their text, the line end behind the
last one, and the line ends after it. When folding, a single line end between two
lines that start with text is a space. -/
def blockLines (folded : Bool) : Nat → Nat → Text → Cursor → (Text × Text × Text × Cursor)
  | 0, _, breaks, cursor => ([], [], breaks, cursor)
  | fuel + 1, indent, breaks, cursor =>
      if cursor.column = indent && cursor.here.isSome then
        let textFirst := !(cursor.here.any isSpaceOrTab)
        let (line, after) := cursor.takeWhile (!isBreak ·)
        let (lineEnd, after) := takeBreak after
        let (later, after) := blockBreaks fuel indent after
        if after.column = indent && after.here.isSome then
          -- Empty lines behind a folded line end stand in its place.
          let joined :=
            if folded && lineEnd = [.scalar '\n'] && textFirst &&
                !(after.here.any isSpaceOrTab) then
              if later.isEmpty then [.scalar ' '] else []
            else lineEnd
          let (others, lastEnd, tail, after) := blockLines folded fuel indent later after
          (breaks ++ line ++ joined ++ others, lastEnd, tail, after)
        else (breaks ++ line, lineEnd, later, after)
      else ([], [], breaks, cursor)

def blockScalar (folded : Bool) (parent : Int) (cursor : Cursor) :
    Except Fault (Text × Cursor) := do
  let (chomping, increment, cursor) ← blockIndicators cursor
  let least := max 1 (parent + 1).toNat
  let (indent, breaks, cursor) := match increment with
    | some increment =>
        let indent := least + increment - 1
        let (breaks, cursor) := blockBreaks (cursor.rest.length + 1) indent cursor
        (indent, breaks, cursor)
    | none =>
        -- Spaces in empty lines in front count for the indentation too.
        let (breaks, widest, cursor) := blockStart (cursor.rest.length + 1) cursor
        (max least widest, breaks, cursor)
  let (text, lastEnd, tail, cursor) :=
    blockLines folded (cursor.rest.length + 1) indent breaks cursor
  return (text ++ (if chomping = .strip then [] else lastEnd) ++
    (if chomping = .keep then tail else []), cursor)

/-! ## Quoted scalars -/

def escapeLetter? (letter : CodePoint) : Option Nat :=
  match letter with
  | .surrogate _ => none
  | .scalar character =>
      match character with
      | '0' => some 0x00
      | 'a' => some 0x07
      | 'b' => some 0x08
      | 't' => some 0x09
      | '\t' => some 0x09
      | 'n' => some 0x0A
      | 'v' => some 0x0B
      | 'f' => some 0x0C
      | 'r' => some 0x0D
      | 'e' => some 0x1B
      | ' ' => some 0x20
      | '"' => some 0x22
      | '/' => some 0x2F
      | '\\' => some 0x5C
      | 'N' => some 0x85
      | '_' => some 0xA0
      | 'L' => some 0x2028
      | 'P' => some 0x2029
      | _ => none

def escapeWidth? (letter : CodePoint) : Option Nat :=
  if letter = .scalar 'x' then some 2
  else if letter = .scalar 'u' then some 4
  else if letter = .scalar 'U' then some 8
  else none

def hexNumber? (digits : Text) : Option Nat :=
  digits.foldlM (fun number digit => (digit.hexValue?).map (number * 16 + ·)) 0

/-- Past empty lines inside a quoted scalar, with their line ends; a mark between
documents may not come. -/
def quotedBreaks : Nat → Cursor → Except Fault (Text × Cursor)
  | 0, _ => .error .malformed
  | fuel + 1, cursor =>
      if isDocumentMark cursor then .error .malformed
      else
        let cursor := cursor.skipWhile isSpaceOrTab
        match takeBreak cursor with
        | ([], _) => .ok ([], cursor)
        | (first, after) => do
            let (breaks, after) ← quotedBreaks fuel after
            return (first ++ breaks, after)

/-- A line end of a quoted or plain scalar with the empty lines after it: a single line
feed is a space, otherwise only the empty lines count. -/
def folded (lineEnd breaks : Text) : Text :=
  if lineEnd ≠ [.scalar '\n'] then lineEnd ++ breaks
  else if breaks.isEmpty then [.scalar ' ']
  else breaks

/-- The code point of a number written in an escape. Numbers beyond the code points are
refused, and those of more than 31 bits in another way. -/
def codePoint (number : Nat) : Except Fault CodePoint :=
  if number < 0x110000 then .ok (.ofNat number)
  else if number < 0x80000000 then .error .badValue
  else .error .tooLarge

def quotedEscape (fuel : Nat) (cursor : Cursor) : Except Fault (Text × Cursor) :=
  match cursor.here with
  | none => .error .malformed
  | some letter =>
      match escapeLetter? letter, escapeWidth? letter with
      | some number, _ => .ok ([.ofNat number], cursor.next)
      | none, some width =>
          let digits := (cursor.next.rest).take width
          match hexNumber? digits, digits.length == width with
          | some number, true => do
              return ([← codePoint number], cursor.next.advance width)
          | _, _ => .error .malformed
      | none, none =>
          if isBreak letter then quotedBreaks fuel cursor.next
          else .error .malformed

def quotedScalar (double : Bool) : Nat → Cursor → Except Fault (Text × Cursor)
  | 0, _ => .error .malformed
  | fuel + 1, cursor =>
      match cursor.here with
      | none => .error .malformed
      | some point =>
          if isSpaceOrTab point || isBreak point then do
            let (spaces, after) := cursor.takeWhile isSpaceOrTab
            match after.here with
            | none => .error .malformed
            | some _ =>
                let (lineEnd, after) := takeBreak after
                -- Spaces are kept between words and dropped at the end of a line.
                if lineEnd.isEmpty then
                  let (others, after) ← quotedScalar double fuel after
                  return (spaces ++ others, after)
                else
                  let (breaks, after) ← quotedBreaks fuel after
                  let (others, after) ← quotedScalar double fuel after
                  return (folded lineEnd breaks ++ others, after)
          else if !double && point = .scalar '\'' && cursor.next.isAt '\'' then do
            let (others, after) ← quotedScalar double fuel (cursor.advance 2)
            return (point :: others, after)
          else if point = .scalar (if double then '"' else '\'') then .ok ([], cursor.next)
          else if double && point = .scalar '\\' then do
            let (meant, after) ← quotedEscape fuel cursor.next
            let (others, after) ← quotedScalar double fuel after
            return (meant ++ others, after)
          else do
            let (others, after) ← quotedScalar double fuel cursor.next
            return (point :: others, after)

/-! ## Plain scalars -/

/-- How many code points a word of a plain scalar has: it ends at a gap, at a colon
before a gap, and in a flow collection also at its punctuation. -/
def plainLength (inFlow : Bool) : Text → Nat
  | [] => 0
  | point :: rest =>
      if isGap (some point) then 0
      else if point = .scalar ':' &&
          (isGap rest.head? || (inFlow && isOneOf ",[]\x7b\x7d" rest.head?)) then 0
      else if inFlow && isOneOf ",?[]\x7b\x7d" (some point) then 0
      else plainLength inFlow rest + 1

def plainBreaks : Nat → Cursor → Option Text × Cursor
  | 0, cursor => (some [], cursor)
  | fuel + 1, cursor =>
      if cursor.isAt ' ' then plainBreaks fuel cursor.next
      else
        match takeBreak cursor with
        | ([], _) => (some [], cursor)
        | (first, after) =>
            if isDocumentMark after then (none, after)
            else
              let (breaks, after) := plainBreaks fuel after
              (breaks.map (first ++ ·), after)

def plainSpaces (fuel : Nat) (cursor : Cursor) : Text × Bool × Cursor :=
  let (spaces, after) := cursor.takeWhile isSpace
  match takeBreak after with
  | ([], _) => (spaces, false, after)
  | (lineEnd, after) =>
      if isDocumentMark after then ([], true, after)
      else
        match plainBreaks fuel after with
        | (none, after) => ([], true, after)
        | (some breaks, after) => (folded lineEnd breaks, true, after)

/-- A plain scalar: its words, each with what stands before it, and whether a line
ended behind the last one. -/
def plainScalar (inFlow : Bool) (indent : Int) : Nat → Text → Bool → Cursor → Text × Bool × Cursor
  | 0, _, ended, cursor => ([], ended, cursor)
  | fuel + 1, before, ended, cursor =>
      if cursor.isAt '#' then ([], ended, cursor)
      else
        let length := plainLength inFlow cursor.rest
        if length = 0 then ([], ended, cursor)
        else
          let word := before ++ cursor.rest.take length
          let (spaces, ended, after) := plainSpaces fuel (cursor.advance length)
          if spaces.isEmpty || after.isAt '#' || (!inFlow && (after.column : Int) < indent) then
            (word, ended, after)
          else
            let (others, ended, after) := plainScalar inFlow indent fuel spaces ended after
            (word ++ others, ended, after)

end JsonTemplate.Yaml
