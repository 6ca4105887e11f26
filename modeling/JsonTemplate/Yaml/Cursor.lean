import JsonTemplate.Text.Numeral
import JsonTemplate.Yaml.Fault

set_option autoImplicit false

/-!
# Places in a YAML text

A cursor is the text from a place on, with the line and the column of the place. The
layout of YAML depends on columns, so everything that moves keeps them.
-/

namespace JsonTemplate.Yaml

/-- What ends a line: line feed, next line, line separator, paragraph separator. -/
def isBreak (point : CodePoint) : Bool :=
  let number := point.value
  number = 0x0A || number = 0x85 || number = 0x2028 || number = 0x2029

def isAllowed (point : CodePoint) : Bool :=
  let number := point.value
  number = 0x09 || number = 0x0A || number = 0x0D || (0x20 ≤ number && number ≤ 0x7E) ||
    number = 0x85 || (0xA0 ≤ number && number ≤ 0xD7FF) ||
    (0xE000 ≤ number && number ≤ 0xFFFD) || (0x10000 ≤ number && number ≤ 0x10FFFF)

/-- The text with every line ended by a line feed, where a carriage return, alone or
with a line feed behind it, ends a line too. -/
def unifyLines : Text → Text
  | [] => []
  | .scalar '\r' :: .scalar '\n' :: rest => .scalar '\n' :: unifyLines rest
  | .scalar '\r' :: rest => .scalar '\n' :: unifyLines rest
  | point :: rest => point :: unifyLines rest

/-- The text without a line feed at its end. Such a line feed does not count in what a
scalar looks like, unless it is all there is. -/
def withoutLastBreak (text : Text) : Text :=
  if 1 < text.length && text.getLast? == some (.scalar '\n') then text.dropLast else text

structure Cursor where
  rest : Text
  index : Nat
  line : Nat
  column : Nat

namespace Cursor

def start (text : Text) : Cursor := ⟨text, 0, 0, 0⟩

def ahead (cursor : Cursor) (places : Nat) : Option CodePoint := cursor.rest[places]?

def here (cursor : Cursor) : Option CodePoint := cursor.rest.head?

def isAt (cursor : Cursor) (character : Char) : Bool :=
  cursor.here == some (.scalar character)

/-- One place on. A byte order mark takes no column. -/
def next (cursor : Cursor) : Cursor :=
  match cursor.rest with
  | [] => cursor
  | point :: rest =>
      if isBreak point then ⟨rest, cursor.index + 1, cursor.line + 1, 0⟩
      else if point.value = 0xFEFF then ⟨rest, cursor.index + 1, cursor.line, cursor.column⟩
      else ⟨rest, cursor.index + 1, cursor.line, cursor.column + 1⟩

def advance : Nat → Cursor → Cursor
  | 0, cursor => cursor
  | places + 1, cursor => advance places cursor.next

def takeWhile (kind : CodePoint → Bool) (cursor : Cursor) : Text × Cursor :=
  let run := cursor.rest.takeWhile kind
  (run, cursor.advance run.length)

def skipWhile (kind : CodePoint → Bool) (cursor : Cursor) : Cursor :=
  (cursor.takeWhile kind).2

end Cursor

def isStop : Option CodePoint → Bool
  | none => true
  | some point => isBreak point

def isGap (point : Option CodePoint) : Bool :=
  isStop point || point == some (.scalar ' ') || point == some (.scalar '\t')

def isSpace (point : CodePoint) : Bool := point = .scalar ' '

def isSpaceOrTab (point : CodePoint) : Bool := point = .scalar ' ' || point = .scalar '\t'

def isOneOf (characters : String) : Option CodePoint → Bool
  | some (.scalar character) => characters.toList.contains character
  | _ => false

/-- The text of a line end: a line feed, unless it is one of the two separators. -/
def breakText (point : CodePoint) : Text :=
  if point.value = 0x0A ∨ point.value = 0x85 then [.scalar '\n'] else [point]

def takeBreak (cursor : Cursor) : Text × Cursor :=
  match cursor.here with
  | some point => if isBreak point then (breakText point, cursor.next) else ([], cursor)
  | none => ([], cursor)

def isMarked (character : Char) (cursor : Cursor) : Bool :=
  (List.replicate 3 (CodePoint.scalar character)).isPrefixOf cursor.rest && isGap (cursor.ahead 3)

def isDocumentMark (cursor : Cursor) : Bool :=
  isMarked '-' cursor || isMarked '.' cursor

end JsonTemplate.Yaml
