import JsonTemplate.Proofs.Time.Calendar

set_option autoImplicit false

/-!
# Wall times by their fields

A wall time is told by its date and its time of day, and one to the millisecond by those that are
shown. A change of zone keeps the place on the time line.
-/

namespace JsonTemplate

namespace WallTime

/-- The wall time with the digits below the millisecond dropped. -/
def toMillis (wall : WallTime) : WallTime :=
  ⟨wall.micros / 1000 * 1000, (Nat.div_mul_le_self wall.micros 1000).trans_lt wall.inCalendar⟩

theorem hour_lt (wall : WallTime) : wall.hour < 24 := Nat.mod_lt _ (by decide)

theorem minute_lt (wall : WallTime) : wall.minute < 60 := Nat.mod_lt _ (by decide)

theorem second_lt (wall : WallTime) : wall.second < 60 := Nat.mod_lt _ (by decide)

theorem milli_lt (wall : WallTime) : wall.micro / 1000 < 1000 :=
  Nat.div_lt_of_lt_mul (Nat.mod_lt _ (by decide))

private theorem day_lt (wall : WallTime) : wall.micros / Calendar.dayMicros < Calendar.days :=
  Nat.div_lt_of_lt_mul (Nat.mul_comm _ _ ▸ wall.inCalendar)

theorem date_parts (wall : WallTime) :
    (1 ≤ wall.date.year ∧ wall.date.year ≤ Calendar.lastYear) ∧
      (1 ≤ wall.date.month ∧ wall.date.month ≤ 12) ∧
      1 ≤ wall.date.day ∧ wall.date.day ≤ Calendar.daysInMonth wall.date.year wall.date.month := by
  obtain ⟨year, month, months, day, days, _⟩ :=
    Date.ofDays_parts (wall.micros / Calendar.dayMicros)
  exact ⟨⟨year, Date.year_ofDays_le wall.day_lt⟩, ⟨month, months⟩, day, days⟩

theorem year_lt (wall : WallTime) : wall.date.year < 10 ^ 4 :=
  Nat.lt_succ_of_le wall.date_parts.1.2

theorem month_lt (wall : WallTime) : wall.date.month < 10 ^ 2 :=
  wall.date_parts.2.1.2.trans_lt (by decide)

theorem dayOfMonth_lt (wall : WallTime) : wall.date.day < 10 ^ 2 :=
  (wall.date_parts.2.2.2.trans (Calendar.daysInMonth_le _ _)).trans_lt (by decide)

theorem ofMicros?_micros (wall : WallTime) : ofMicros? wall.micros = some wall := by
  rw [ofMicros?, dif_pos ⟨Int.natCast_nonneg wall.micros, wall.inCalendar⟩]
  rfl

private theorem ofMicros?_eq_some_iff {count : Int} {wall : WallTime} :
    ofMicros? count = some wall ↔ (wall.micros : Int) = count := by
  constructor
  · intro found
    unfold ofMicros? at found
    split at found
    · next inside =>
        cases found
        exact Int.toNat_of_nonneg inside.1
    · cases found
  · rintro rfl
    exact wall.ofMicros?_micros

theorem ofFields?_toMillis (wall : WallTime) :
    ofFields? wall.date wall.hour wall.minute wall.second (wall.micro / 1000 * 1000) =
      some wall.toMillis := by
  have fields : (wall.micros / Calendar.dayMicros * 86400 + wall.hour * 3600 + wall.minute * 60 +
      wall.second) * 1000000 + wall.micro / 1000 * 1000 = wall.toMillis.micros := by
    simp only [Calendar.dayMicros, hour, minute, second, micro, toMillis]
    omega
  rw [ofFields?, date, Date.toDays_ofDays, fields, ofMicros?_micros]

end WallTime

namespace Offset

theorem ofMicros?_micros (offset : Offset) : ofMicros? offset.micros = some offset :=
  dif_pos offset.belowDay

end Offset

namespace Moment

def toMillis (moment : Moment) : Moment := ⟨moment.wall.toMillis, moment.offset⟩

/-- Where the offset has no part of a millisecond, the digits are dropped on the time line too. -/
theorem utcMicros_toMillis {moment : Moment} (whole : 1000 ∣ moment.offset.micros) :
    moment.toMillis.utcMicros = moment.utcMicros / 1000 * 1000 := by
  simp only [utcMicros, toMillis, WallTime.toMillis]
  omega

/-- Seen from another zone a moment keeps its place on the time line, if the calendar has it. -/
theorem atOffset?_eq_some_iff {moment seen : Moment} {offset : Offset} :
    moment.atOffset? offset = some seen ↔
      seen.offset = offset ∧ seen.utcMicros = moment.utcMicros ∧
        ∃ universal : WallTime, (universal.micros : Int) = moment.utcMicros := by
  obtain ⟨wall, zone⟩ := seen
  simp only [atOffset?, Option.bind_eq_bind, Option.bind_eq_some_iff, WallTime.add?,
    WallTime.ofMicros?_eq_some_iff, Option.pure_def, Option.some.injEq, Moment.mk.injEq, utcMicros]
  constructor
  · rintro ⟨universal, here, wall, there, rfl, rfl⟩
    exact ⟨rfl, by omega, universal, here⟩
  · rintro ⟨rfl, same, universal, here⟩
    exact ⟨universal, here, wall, by omega, rfl, rfl⟩

end Moment

end JsonTemplate
