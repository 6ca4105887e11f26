import JsonTemplate.Time.Moment
import JsonTemplate.Yaml.Cursor

set_option autoImplicit false

/-!
# Timestamps

A date, and perhaps a time of day with a zone, as they are written in a YAML text.
-/

namespace JsonTemplate.Yaml

/-- The parts of a timestamp as they are written; `strict` tells that month and day have
two digits each. The time and its zone may be missing; a zone is in minutes. -/
structure Stamp where
  date : Date
  strict : Bool
  time : Option (Nat × Nat × Nat × Nat)
  zone : Option Int

namespace Stamp

def field? (least most : Nat) (text : Text) : Option (Nat × Nat × Text) :=
  let digits := (text.take most).takeWhile CodePoint.isDigit
  if digits.length < least then none
  else some (Numeral.value digits, digits.length, text.drop digits.length)

def mark? (character : Char) : Text → Option Text
  | [] => none
  | first :: rest => if first = .scalar character then some rest else none

def fraction (text : Text) : Nat × Text :=
  match mark? '.' text with
  | none => (0, text)
  | some rest =>
      let (digits, rest) := Numeral.span rest
      (Numeral.value ((digits ++ List.replicate 6 (CodePoint.scalar '0')).take 6), rest)

def zone? (text : Text) : Option (Option Int) :=
  match text.dropWhile isSpaceOrTab with
  | [] => if text.isEmpty then some none else none
  | sign :: rest =>
      if sign = .scalar 'Z' then (if rest.isEmpty then some (some 0) else none)
      else if sign = .scalar '+' ∨ sign = .scalar '-' then do
        let (hours, _, rest) ← field? 1 2 rest
        let minutes ← match mark? ':' rest with
          | none => if rest.isEmpty then some 0 else none
          | some rest =>
              match field? 2 2 rest with
              | some (minutes, _, []) => some minutes
              | _ => none
        let size : Int := (hours * 60 + minutes : Nat)
        return some (if sign = .scalar '-' then -size else size)
      else none

def time? (text : Text) : Option ((Nat × Nat × Nat × Nat) × Option Int) := do
  let (hour, _, rest) ← field? 1 2 text
  let (minute, _, rest) ← (mark? ':' rest).bind (field? 2 2)
  let (second, _, rest) ← (mark? ':' rest).bind (field? 2 2)
  let (micro, rest) := fraction rest
  let zone ← zone? rest
  return ((hour, minute, second, micro), zone)

def ofText? (text : Text) : Option Stamp := do
  let (year, _, rest) ← field? 4 4 text
  let (month, monthWidth, rest) ← (mark? '-' rest).bind (field? 1 2)
  let (day, dayWidth, rest) ← (mark? '-' rest).bind (field? 1 2)
  let date : Date := ⟨year, month, day⟩
  let strict := monthWidth = 2 && dayWidth = 2
  match rest with
  | [] => return ⟨date, strict, none, none⟩
  | mark :: after =>
      let time ←
        if mark = .scalar 'T' ∨ mark = .scalar 't' then some after
        else if isSpaceOrTab mark then some (after.dropWhile isSpaceOrTab)
        else none
      let (time, zone) ← time? time
      return ⟨date, strict, some time, zone⟩

def isLook (text : Text) : Bool :=
  (ofText? text).any fun stamp => stamp.strict || stamp.time.isSome

def wall? (date : Date) (hour minute second micro : Nat) : Option WallTime :=
  if date.isValid ∧ hour < 24 ∧ minute < 60 ∧ second < 60 then
    WallTime.ofFields? date hour minute second micro
  else none

def offset? : Option Int → Option (Option Offset)
  | none => some none
  | some minutes => (Offset.ofMicros? (minutes * 60000000)).map some

end Stamp

end JsonTemplate.Yaml
