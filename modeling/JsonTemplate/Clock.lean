import JsonTemplate.Error

set_option autoImplicit false

/-!
# Clocks

Where the built-in functions take the time from: the system, or one fixed moment.
-/

namespace JsonTemplate

/-- What the surroundings supply: 128 random bits, and the present moment in the local
zone. Both may change the state of the world. -/
structure Host (σ : Type) where
  random : σ → Nat × σ
  now : σ → Moment × σ

/-- A source of time. A fixed clock shows its moment in a zone of its own. -/
inductive Clock where
  | system
  | fixed (instant : Moment) (zone : Offset)

namespace Clock

def ofText (text : Text) (zone : Offset) : Except Error Clock :=
  match IsoText.read text with
  | .ok instant => .ok (.fixed instant zone)
  | .error fault => .error (.argument (.clock text fault))

/-- A fixed clock set by a wall time; without an offset it is universal time. -/
def ofWallTime (wall : WallTime) (offset : Option Offset) (zone : Offset) : Clock :=
  .fixed ⟨wall, offset.getD .utc⟩ zone

def moment {σ : Type} (host : Host σ) : Clock → σ → Moment × σ
  | .system, world => host.now world
  | .fixed instant _, world => (instant, world)

def localMoment? {σ : Type} (host : Host σ) : Clock → σ → Option Moment × σ
  | .system, world =>
      let (moment, world) := host.now world
      (some moment, world)
  | .fixed instant zone, world => (instant.atOffset? zone, world)

end Clock

/-- The present moment of a wall time without an offset, in a zone at universal time.
The day before it is looked at too, so the first day of the calendar has none. -/
def WallTime.localMoment? (wall : WallTime) : Option Moment :=
  (wall.add? (-(Calendar.dayMicros : Int))).map fun _ => ⟨wall, .utc⟩

end JsonTemplate
