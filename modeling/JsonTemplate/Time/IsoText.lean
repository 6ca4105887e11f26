import JsonTemplate.Text.Blank
import JsonTemplate.Text.Quoted
import JsonTemplate.Text.Utf8
import JsonTemplate.Time.Moment

set_option autoImplicit false

/-!
# Instants as text

Reading dates and times in the formats of ISO 8601: calendar and week dates, with or
without hyphens, any one separator, times with or without colons, and an offset. The
text is cut at octets of UTF-8, and every octet is shown as the character of its
number, so that only the separator can lie outside ASCII.
-/

namespace JsonTemplate.IsoText

inductive Fault where
  | malformed (text : Text)
  | offsetTooLarge (micros : Int)
  | year (year : Nat)
  | month
  | day
  | hour
  | minute
  | second
deriving DecidableEq, Repr

def Fault.message : Fault → Text
  | .malformed text => lit "Invalid isoformat string: " ++ text.quoted
  | .offsetTooLarge micros =>
      lit "offset must be a timedelta strictly between -timedelta(hours=24) and " ++
        lit "timedelta(hours=24), not " ++ Calendar.spanText micros ++ lit "."
  | .year number => lit "year " ++ Numeral.ofNat number ++ lit " is out of range"
  | .month => lit "month must be in 1..12"
  | .day => lit "day is out of range for month"
  | .hour => lit "hour must be in 0..23"
  | .minute => lit "minute must be in 0..59"
  | .second => lit "second must be in 0..59"

abbrev Octets := List Char

def digits? (count : Nat) (octets : Octets) : Option (Nat × Octets) :=
  let found := octets.take count
  if found.length = count ∧ found.all Char.isDigit then
    some (found.foldl (fun number digit => number * 10 + (digit.toNat - '0'.toNat)) 0,
      octets.drop count)
  else none

def isAt (octets : Octets) (place : Nat) (character : Char) : Bool :=
  octets[place]? == some character

/-- How many octets the date takes. A week date is told by its `W`; when a day of the
week may follow or else the separator, digits further on decide. -/
def dateLength? (octets : Octets) : Option Nat :=
  let length := octets.length
  if length = 7 then some 7
  else if isAt octets 4 '-' then
    if isAt octets 5 'W' then
      if length < 8 then none
      else if isAt octets 8 '-' then
        if length = 9 then none
        else if (octets[10]?).any Char.isDigit then some 8
        else some 10
      else some 8
    else some 10
  else if isAt octets 4 'W' then
    let stop := 7 + ((octets.drop 7).takeWhile Char.isDigit).length
    if stop < 9 then some stop else if stop % 2 = 0 then some 7 else some 8
  else some 8

/-- The day of a week of a year. The weeks of the year zero lie before the first month, so
a date is made up that has no month. -/
def weekDate? (year week day : Nat) : Option Date :=
  if week < 1 ∨ 53 < week ∨ (week = 53 ∧ (year < 1 ∨ !Calendar.hasLongYear year)) then none
  else if day < 1 ∨ 7 < day then none
  else if year < 1 then some ⟨1, 0, 0⟩
  else some (.ofDays (Calendar.firstMonday year + ((week - 1) * 7 + (day - 1) : Nat)).toNat)

def weekRest? (year : Nat) (hyphens : Bool) (octets : Octets) : Option Date := do
  let (week, rest) ← digits? 2 octets
  match rest with
  | [] => weekDate? year week 1
  | mark :: after =>
      if hyphens && mark != '-' then none
      else
        let (day, _) ← digits? 1 (if hyphens then after else rest)
        weekDate? year week day

def monthRest? (year : Nat) (hyphens : Bool) (octets : Octets) : Option Date := do
  let (month, rest) ← digits? 2 octets
  let rest ← if hyphens then (match rest with | '-' :: rest => some rest | _ => none) else some rest
  let (day, rest) ← digits? 2 rest
  if rest.isEmpty then return ⟨year, month, day⟩ else none

/-- A date. A calendar date need not exist; its fields are checked later. -/
def date? (octets : Octets) : Option Date := do
  let (year, rest) ← digits? 4 octets
  let (hyphens, rest) := match rest with
    | '-' :: rest => (true, rest)
    | _ => (false, rest)
  match rest with
  | 'W' :: rest => weekRest? year hyphens rest
  | _ => monthRest? year hyphens rest

/-- The separator between date and time is one character, of one to four octets. -/
def dropSeparator : Octets → Octets
  | [] => []
  | first :: rest =>
      if first.toNat < 0x80 then rest
      else if first.toNat / 16 = 0xE then rest.drop 2
      else if first.toNat / 16 = 0xF then rest.drop 3
      else rest.drop 1

structure Parts where
  hour : Nat
  minute : Nat
  second : Nat
  micro : Nat
  stray : Bool

/-- Whether something is left over. A zero octet counts as the end. -/
def isLeftOver (octets : Octets) : Bool := octets.head?.any (· != '\x00')

/-- The fraction of a second: up to six places count, more digits are passed over. -/
def fraction? (octets : Octets) : Option (Nat × Bool) := do
  let places := min 6 octets.length
  let (number, rest) ← digits? places octets
  return (number * Nat.pow 10 (6 - places), isLeftOver (rest.dropWhile Char.isDigit))

/-- Minutes and seconds after what was read before them. After two digits comes the
end, a colon when colons are used, a point or comma that starts the fraction, or,
without colons, the next digits. -/
def laterParts? (colons : Option Bool) : (fields : Nat) → Octets → Option (List Nat × Nat × Bool)
  | 0, octets => do
      let (micro, stray) ← fraction? octets
      return ([], micro, stray)
  | fields + 1, octets => do
      let (field, rest) ← digits? 2 octets
      match rest with
      | [] => return ([field], 0, false)
      -- A single octet is no mark, whatever it is.
      | [_] => return ([field], 0, isLeftOver rest)
      | mark :: after =>
          -- The first mark decides for the whole text.
          let colons := colons.getD (mark == ':')
          if colons && mark == ':' then
            let (others, micro, stray) ← laterParts? (some colons) fields after
            return (field :: others, micro, stray)
          else if mark == '.' || mark == ',' then
            let (micro, stray) ← fraction? after
            return ([field], micro, stray)
          else if !colons then
            let (others, micro, stray) ← laterParts? (some colons) fields rest
            return (field :: others, micro, stray)
          else none

def parts? (octets : Octets) : Option Parts := do
  let (fields, micro, stray) ← laterParts? none 3 octets
  return ⟨fields[0]?.getD 0, fields[1]?.getD 0, fields[2]?.getD 0, micro, stray⟩

/-- A time of day and, when a sign is found, the offset after it in microseconds.
Something left over before an offset is passed over, elsewhere it is a fault. An
offset of zero seconds is universal time. -/
def time? (octets : Octets) : Option (Parts × Option Int) := do
  let isSign (character : Char) : Bool := character == '+' || character == '-'
  let clock ← parts? (octets.takeWhile (!isSign ·))
  match octets.dropWhile (!isSign ·) with
  | [] => if clock.stray then none else return (clock, none)
  | sign :: rest =>
      let offset ← parts? rest
      if offset.stray then none
      else
        let seconds := offset.hour * 3600 + offset.minute * 60 + offset.second
        let size : Int := if seconds = 0 then 0 else (seconds * 1000000 + offset.micro : Nat)
        return (clock, some (if sign == '-' then -size else size))

/-- The octets of a text. One surrogate may stand as the separator, where it counts as
any other character. -/
def octets? (text : Text) : Option Octets := do
  let isSurrogate (place : Nat) : Bool := match text[place]? with
    | some (.surrogate _) => true
    | _ => false
  let separated := match [7, 8, 10].find? isSurrogate with
    | some place => text.set place (.scalar 'T')
    | none => text
  let octets ← Utf8.encode? separated
  return octets.map fun octet => Char.ofNat octet.toNat

def fields? (text : Text) : Option (Date × Parts × Option Int) := do
  let octets ← octets? text
  if octets.length < 7 then none
  else
    let length ← dateLength? octets
    let date ← date? (octets.take length)
    match octets.drop length with
    | [] => return (date, ⟨0, 0, 0, 0, false⟩, none)
    | rest =>
        let (clock, offset) ← time? (dropSeparator rest)
        return (date, clock, offset)

def wallTime (date : Date) (clock : Parts) : Except Fault WallTime :=
  if date.year < 1 ∨ Calendar.lastYear < date.year then .error (.year date.year)
  else if date.month < 1 ∨ 12 < date.month then .error .month
  else if date.day < 1 ∨ Calendar.daysInMonth date.year date.month < date.day then .error .day
  else if 23 < clock.hour then .error .hour
  else if 59 < clock.minute then .error .minute
  else if 59 < clock.second then .error .second
  else
    match WallTime.ofFields? date clock.hour clock.minute clock.second clock.micro with
    | some wall => .ok wall
    | none => .error (.year date.year)

/-- The instant that a text spells, with white space around it and `Z` for universal
time. Without an offset it is in universal time. -/
def read (text : Text) : Except Fault Moment := do
  let plain := (text.trim).flatMap fun point =>
    if point = .scalar 'Z' then lit "+00:00" else [point]
  match fields? plain with
  | none => .error (.malformed plain)
  | some (date, clock, offset) =>
      let micros := offset.getD 0
      match Offset.ofMicros? micros with
      | none => .error (.offsetTooLarge micros)
      | some offset => return ⟨← wallTime date clock, offset⟩

end JsonTemplate.IsoText
