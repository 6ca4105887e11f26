import JsonTemplate.Proofs.Time.IsoText
import JsonTemplate.Registry

set_option autoImplicit false

/-!
# The moment that a fixed clock shows

Under a fixed clock both timestamps are texts of one moment, that of the clock to the millisecond,
and a clock set by either text stands at that moment.
-/

namespace JsonTemplate

variable {σ : Type} {host : Host σ} {instant : Moment} {zone : Offset} {world : σ} {text : Text}

namespace Registry

private theorem resolve_now (host : Host σ) (clock : Clock) :
    (builtins host clock).resolve (lit "NOW") = some (nowAction host clock) := by
  rfl

private theorem resolve_utcNow (host : Host σ) (clock : Clock) :
    (builtins host clock).resolve (lit "UTCNOW") = some (utcNowAction host clock) := by
  rfl

private theorem finish_timeOutcome {name : Text} {shown : Option Text} :
    finish name (timeOutcome shown) = .ok text ↔ shown = some text := by
  cases shown with
  | none => simp [finish, timeOutcome]
  | some shown => simp [finish, timeOutcome]

private theorem now_eq_ok_iff :
    ((builtins host (.fixed instant zone)).execute (lit "NOW") world).1 = .ok text ↔
      ∃ seen, instant.atOffset? zone = some seen ∧ seen.renderLocal = text := by
  rw [execute, resolve_now]
  simp [nowAction, Clock.localMoment?, finish_timeOutcome]

private theorem utcNow_eq_ok_iff :
    ((builtins host (.fixed instant zone)).execute (lit "UTCNOW") world).1 = .ok text ↔
      ∃ seen, instant.atOffset? .utc = some seen ∧
        seen.wall.renderMillis ++ [.scalar 'Z'] = text := by
  rw [execute, resolve_utcNow]
  simp [utcNowAction, Clock.moment, finish_timeOutcome, Moment.renderUtc?,
    Option.bind_eq_some_iff]

end Registry

namespace Clock

/-- Whichever zone a moment is seen from, its digits below the millisecond are the same. -/
theorem utcMicros_seen {seen : Moment} {offset : Offset} (whole : 1000 ∣ offset.micros)
    (found : instant.atOffset? offset = some seen) :
    seen.toMillis.utcMicros = instant.utcMicros / 1000 * 1000 := by
  obtain ⟨there, same, _⟩ := Moment.atOffset?_eq_some_iff.mp found
  rw [Moment.utcMicros_toMillis (there ▸ whole), same]

private theorem ofText_now (whole : 1000000 ∣ zone.micros)
    (now : ((Registry.builtins host (.fixed instant zone)).execute (lit "NOW") world).1 = .ok text)
    (reading : Offset) :
    ∃ read, ofText text reading = .ok (.fixed read reading) ∧
      read.utcMicros = instant.utcMicros / 1000 * 1000 := by
  obtain ⟨seen, found, rfl⟩ := Registry.now_eq_ok_iff.mp now
  have there := (Moment.atOffset?_eq_some_iff.mp found).1
  refine ⟨seen.toMillis, ?_, utcMicros_seen (Dvd.dvd.trans (by decide) whole) found⟩
  rw [ofText, IsoText.read_renderLocal (there ▸ whole)]

private theorem ofText_utcNow
    (utcNow : ((Registry.builtins host (.fixed instant zone)).execute (lit "UTCNOW") world).1 =
      .ok text) (reading : Offset) :
    ∃ read, ofText text reading = .ok (.fixed read reading) ∧
      read.utcMicros = instant.utcMicros / 1000 * 1000 := by
  obtain ⟨⟨wall, offset⟩, found, rfl⟩ := Registry.utcNow_eq_ok_iff.mp utcNow
  obtain ⟨rfl, _⟩ := Moment.atOffset?_eq_some_iff.mp found
  refine ⟨Moment.toMillis ⟨wall, .utc⟩, ?_, utcMicros_seen (by decide) found⟩
  rw [ofText, IsoText.read_zulu]

/-- The texts of both functions are read as the moment of the clock to the millisecond; a wall time
without an offset is universal time. -/
theorem timestamps_denote_moment {wall : WallTime} {offset : Option Offset}
    (whole : 1000000 ∣ zone.micros) {before between : σ} {universal here : Text}
    (utcNow : ((Registry.builtins host (.ofWallTime wall offset zone)).execute (lit "UTCNOW")
      before).1 = .ok universal)
    (now : ((Registry.builtins host (.ofWallTime wall offset zone)).execute (lit "NOW")
      between).1 = .ok here) (reading : Offset) :
    ∃ first second, ofText universal reading = .ok (.fixed first reading) ∧
      ofText here reading = .ok (.fixed second reading) ∧
      first.utcMicros = (Moment.mk wall (offset.getD .utc)).utcMicros / 1000 * 1000 ∧
      second.utcMicros = (Moment.mk wall (offset.getD .utc)).utcMicros / 1000 * 1000 := by
  obtain ⟨first, readFirst, sameFirst⟩ := ofText_utcNow utcNow reading
  obtain ⟨second, readSecond, sameSecond⟩ := ofText_now whole now reading
  exact ⟨first, second, readFirst, readSecond, sameFirst, sameSecond⟩

/-- Half past midnight on the first of March is still the leap day, in universal time and further
west. -/
theorem timestamps_on_leap_day :
    let host : Host Unit :=
      ⟨fun calls => (0, calls), fun calls => (⟨⟨0, by decide⟩, .utc⟩, calls)⟩
    let wall : WallTime := ⟨63844849800999999, by decide⟩
    let offset : Offset := ⟨3600000500, by decide⟩
    let zone : Offset := ⟨-19815000000, by decide⟩
    let registry := Registry.builtins host (.ofWallTime wall (some offset) zone)
    let universal := lit "2024-02-29T23:30:00.999Z"
    let here := lit "2024-02-29T17:59:45.999-05:30:15"
    (registry.execute (lit "UTCNOW") ()).1 = .ok universal ∧
      (registry.execute (lit "NOW") ()).1 = .ok here ∧
      ∃ first second, ofText universal .utc = .ok (.fixed first .utc) ∧
        ofText here .utc = .ok (.fixed second .utc) ∧
        first.utcMicros = 63844846200999000 ∧ second.utcMicros = 63844846200999000 := by
  intro host wall offset zone registry universal here
  have calendar : ∃ universal : WallTime, (universal.micros : Int) =
      (Moment.mk wall offset).utcMicros := ⟨⟨63844846200999499, by decide⟩, by decide⟩
  have utcNow : (registry.execute (lit "UTCNOW") ()).1 = .ok universal :=
    Registry.utcNow_eq_ok_iff.mpr ⟨⟨⟨63844846200999499, by decide⟩, .utc⟩,
      Moment.atOffset?_eq_some_iff.mpr ⟨rfl, by decide, calendar⟩, by decide +kernel⟩
  have now : (registry.execute (lit "NOW") ()).1 = .ok here :=
    Registry.now_eq_ok_iff.mpr ⟨⟨⟨63844826385999499, by decide⟩, zone⟩,
      Moment.atOffset?_eq_some_iff.mpr ⟨rfl, by decide, calendar⟩, by decide +kernel⟩
  have whole : 1000000 ∣ zone.micros := by decide
  have dropped : (Moment.mk wall offset).utcMicros / 1000 * 1000 = 63844846200999000 := by decide
  have denoted := timestamps_denote_moment whole utcNow now .utc
  rw [Option.getD_some, dropped] at denoted
  exact ⟨utcNow, now, denoted⟩

end Clock

end JsonTemplate
