set_option autoImplicit false

/-!
# Code points and texts

A text is a list of code points. A document may spell half of a surrogate pair
with an escape, so a text can hold surrogates, which no `String` can.
-/

namespace JsonTemplate

/-- One position of a text: a Unicode scalar value, or a surrogate counted from
`U+D800` that stands alone. -/
inductive CodePoint where
  | scalar (character : Char)
  | surrogate (offset : Fin 0x800)
deriving DecidableEq, Inhabited, Repr

/-- A text. Two surrogates side by side stay two positions; only a reader that
meets them as one escaped pair joins them. -/
abbrev Text := List CodePoint

namespace CodePoint

def value : CodePoint → Nat
  | .scalar character => character.toNat
  | .surrogate offset => 0xD800 + offset.val

def ofNat (number : Nat) : CodePoint :=
  if valid : number.isValidChar then .scalar (Char.ofNatAux number valid)
  else .surrogate ⟨(number - 0xD800) % 0x800, Nat.mod_lt _ (by decide)⟩

def isDigit : CodePoint → Bool
  | .scalar character => character.isDigit
  | .surrogate _ => false

def digitValue : CodePoint → Nat
  | .scalar character => character.toNat - '0'.toNat
  | .surrogate _ => 0

def hexValue? : CodePoint → Option Nat
  | .scalar character =>
      if '0' ≤ character ∧ character ≤ '9' then some (character.toNat - '0'.toNat)
      else if 'a' ≤ character ∧ character ≤ 'f' then some (character.toNat - 'a'.toNat + 10)
      else if 'A' ≤ character ∧ character ≤ 'F' then some (character.toNat - 'A'.toNat + 10)
      else none
  | .surrogate _ => none

def isHighSurrogate : CodePoint → Bool
  | .scalar _ => false
  | .surrogate offset => offset.val < 0x400

def isLowSurrogate : CodePoint → Bool
  | .scalar _ => false
  | .surrogate offset => 0x400 ≤ offset.val

def joinSurrogates (high low : CodePoint) : CodePoint :=
  .ofNat (0x10000 + (high.value - 0xD800) * 0x400 + (low.value - 0xDC00))

def asciiLower : CodePoint → CodePoint
  | .scalar character => .scalar character.toLower
  | .surrogate offset => .surrogate offset

end CodePoint

def lit (characters : String) : Text :=
  characters.toList.map .scalar

namespace Text

/-- The characters of a text as a string; a surrogate becomes the replacement
character, since a string cannot hold it. -/
def asString (text : Text) : String :=
  String.ofList (text.map fun
    | .scalar character => character
    | .surrogate _ => '\uFFFD')

def asciiLower (text : Text) : Text :=
  text.map CodePoint.asciiLower

def join (separator : Text) (parts : List Text) : Text :=
  List.intercalate separator parts

def dropStart? (start text : Text) : Option Text :=
  match start, text with
  | [], rest => some rest
  | _ :: _, [] => none
  | expected :: start, found :: rest =>
      if expected = found then dropStart? start rest else none

@[simp] theorem dropStart?_append (start rest : Text) :
    dropStart? start (start ++ rest) = some rest := by
  induction start with
  | nil => cases rest <;> rfl
  | cons point start ih => simpa [dropStart?] using ih

theorem dropStart?_eq_some_iff {start text rest : Text} :
    dropStart? start text = some rest ↔ text = start ++ rest := by
  constructor
  · intro dropped
    induction start generalizing text with
    | nil => cases text <;> simpa [dropStart?] using dropped
    | cons expected start ih =>
        cases text with
        | nil => cases dropped
        | cons found text =>
            by_cases same : expected = found
            · subst same
              rw [dropStart?, if_pos rfl] at dropped
              rw [ih dropped, List.cons_append]
            · rw [dropStart?, if_neg same] at dropped
              cases dropped
  · rintro rfl
    exact dropStart?_append start rest

def includes : (text part : Text) → Bool
  | [], part => part.isEmpty
  | first :: rest, part => part.isPrefixOf (first :: rest) || includes rest part

end Text

end JsonTemplate
