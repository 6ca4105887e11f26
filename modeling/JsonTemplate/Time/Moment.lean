import JsonTemplate.Time.Calendar

set_option autoImplicit false

/-!
# Moments

A wall time is what a clock shows; together with an offset from universal time it is
a moment. Wall times outside the calendar do not exist, so moving one can fail.
-/

namespace JsonTemplate

namespace Calendar

def dayMicros : Nat := 86400000000

def micros : Nat := days * dayMicros

/-- A span of time by days, seconds of a day and microseconds of a second, leaving out
what is zero; days alone can be negative. -/
def spanText (micros : Int) : Text :=
  let days := Int.fdiv micros dayMicros
  let inDay := (Int.fmod micros dayMicros).toNat
  let part (name : String) (amount : Int) : List Text :=
    if amount = 0 then [] else [lit name ++ Numeral.ofInt amount]
  let parts := part "days=" days ++ part "seconds=" (inDay / 1000000 : Nat) ++
    part "microseconds=" (inDay % 1000000 : Nat)
  lit "datetime.timedelta(" ++
    (if parts.isEmpty then lit "0" else Text.join (lit ", ") parts) ++ lit ")"

end Calendar

/-- Date and time of day as microseconds since the start of year 1. -/
structure WallTime where
  micros : Nat
  inCalendar : micros < Calendar.micros

/-- A time zone's distance from universal time, less than a day either way. -/
structure Offset where
  micros : Int
  belowDay : micros.natAbs < Calendar.dayMicros

/-- A wall time and the offset of the zone whose clocks show it. -/
structure Moment where
  wall : WallTime
  offset : Offset

namespace WallTime

def ofMicros? (count : Int) : Option WallTime :=
  if inside : 0 ≤ count ∧ count.toNat < Calendar.micros then some ⟨count.toNat, inside.2⟩ else none

def ofFields? (date : Date) (hour minute second micro : Nat) : Option WallTime :=
  ofMicros? ((date.toDays * 86400 + hour * 3600 + minute * 60 + second) * 1000000 + micro : Nat)

def date (wall : WallTime) : Date := .ofDays (wall.micros / Calendar.dayMicros)

def hour (wall : WallTime) : Nat := wall.micros / 3600000000 % 24

def minute (wall : WallTime) : Nat := wall.micros / 60000000 % 60

def second (wall : WallTime) : Nat := wall.micros / 1000000 % 60

def micro (wall : WallTime) : Nat := wall.micros % 1000000

def add? (wall : WallTime) (micros : Int) : Option WallTime :=
  ofMicros? (wall.micros + micros)

def renderSeconds (mark : CodePoint) (wall : WallTime) : Text :=
  wall.date.render ++ mark :: Numeral.padded 2 wall.hour ++ .scalar ':' ::
    Numeral.padded 2 wall.minute ++ .scalar ':' :: Numeral.padded 2 wall.second

def renderMillis (wall : WallTime) : Text :=
  wall.renderSeconds (.scalar 'T') ++ .scalar '.' :: Numeral.padded 3 (wall.micro / 1000)

def render (mark : CodePoint) (wall : WallTime) : Text :=
  wall.renderSeconds mark ++
    if wall.micro = 0 then [] else .scalar '.' :: Numeral.padded 6 wall.micro

end WallTime

namespace Offset

def ofMicros? (micros : Int) : Option Offset :=
  if below : micros.natAbs < Calendar.dayMicros then some ⟨micros, below⟩ else none

def utc : Offset := ⟨0, by decide⟩

/-- The offset with its sign: hours and minutes, then seconds and their six places as
far as they are not zero. -/
def render (offset : Offset) : Text :=
  let size := offset.micros.natAbs
  let seconds := size / 1000000 % 60
  let micros := size % 1000000
  .scalar (if offset.micros < 0 then '-' else '+') :: Numeral.padded 2 (size / 3600000000) ++
    .scalar ':' :: Numeral.padded 2 (size / 60000000 % 60) ++
    (if seconds = 0 ∧ micros = 0 then [] else .scalar ':' :: Numeral.padded 2 seconds) ++
    (if micros = 0 then [] else .scalar '.' :: Numeral.padded 6 micros)

end Offset

namespace Moment

/-- Microseconds of universal time since the start of year 1. The calendar need not
have that time: it can be negative when the offset is positive. -/
def utcMicros (moment : Moment) : Int :=
  moment.wall.micros - moment.offset.micros

/-- The same moment seen from another zone. The calendar must have its wall time
there and in universal time, through which every change of zone goes. -/
def atOffset? (moment : Moment) (offset : Offset) : Option Moment := do
  let universal ← WallTime.ofMicros? moment.utcMicros
  let wall ← universal.add? offset.micros
  return ⟨wall, offset⟩

def render (moment : Moment) : Text :=
  moment.wall.render (.scalar 'T') ++ moment.offset.render

def renderUtc? (moment : Moment) : Option Text := do
  let universal ← moment.atOffset? .utc
  return universal.wall.renderMillis ++ [.scalar 'Z']

def renderLocal (moment : Moment) : Text :=
  moment.wall.renderMillis ++ moment.offset.render

end Moment

end JsonTemplate
