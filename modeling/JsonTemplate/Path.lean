import JsonTemplate.Text.Numeral
import JsonTemplate.Tree

set_option autoImplicit false

/-!
# Paths

The place of a node in a document: the keys and indexes that lead to it from the
root, and their text.
-/

namespace JsonTemplate

/-- One step down: the key of an object's member or the index of an array's item. -/
inductive Segment where
  | key (name : Text)
  | index (position : Int)
deriving DecidableEq, Repr

abbrev Path := List Segment

namespace CodePoint

def isIdentifierStart : CodePoint → Bool
  | .scalar character => character.isAlpha || character == '_'
  | .surrogate _ => false

def isNamePart : CodePoint → Bool
  | .scalar character => character.isAlphanum || character == '_'
  | .surrogate _ => false

end CodePoint

def Text.isIdentifier : Text → Bool
  | [] => false
  | first :: rest => first.isIdentifierStart && rest.all CodePoint.isNamePart

namespace Segment

/-- Keys that a path text shows behind a point: identifiers, also with one line
feed behind them. -/
def isPlainKey (name : Text) : Bool :=
  Text.isIdentifier name ||
    (name.getLast? == some (.scalar '\n') && Text.isIdentifier name.dropLast)

def escapePoint (point : CodePoint) : Text :=
  if point = .scalar '\\' ∨ point = .scalar '\'' then [.scalar '\\', point] else [point]

def render : Segment → Text
  | .index position => .scalar '[' :: Numeral.ofInt position ++ [.scalar ']']
  | .key name =>
      if isPlainKey name then .scalar '.' :: name
      else lit "['" ++ name.flatMap escapePoint ++ lit "']"

def name : Segment → Text
  | .key name => name
  | .index position => Numeral.ofInt position

end Segment

def Path.render (path : Path) : Text :=
  .scalar '$' :: path.flatMap Segment.render

end JsonTemplate
