import EntityTable.Codec.ZonedDateTime
import EntityTable.Proofs.Codec.DateTime

/-! # Instants

The seconds of dates and times are counted over the days of the calendar. Going on by so many
seconds adds so many to the count (`DateTime.elapsed_addSeconds`), so a date and time with an offset
and the same one in universal time are one instant (`ZonedDateTime.instant_toUniversal`), and only
equal universal times are one (`ZonedDateTime.universal_eq_iff`). Moving a time by an offset leaves
its fields in their ranges, but it can take a leap second into the inside of a minute. -/

namespace EntityTable.Codec

namespace Time

theorem seconds_lt {t : Time} (h : t.InRange) : t.seconds < 86400 := by
  obtain ⟨hhour, hminute, hsecond, -⟩ := h
  unfold seconds
  omega

theorem seconds_ofSeconds (seconds nano : Nat) : (ofSeconds seconds nano).seconds = seconds := by
  simp only [ofSeconds, Time.seconds]
  omega

theorem eq_of_seconds_eq {t u : Time} (ht : t.InRange) (hu : u.InRange)
    (hseconds : t.seconds = u.seconds) (hnano : t.nano = u.nano) : t = u := by
  obtain ⟨hhour, hminute, hsecond, -⟩ := ht
  obtain ⟨hhour', hminute', hsecond', -⟩ := hu
  obtain ⟨hour, minute, second, nano⟩ := t
  obtain ⟨hour', minute', second', nano'⟩ := u
  simp only [seconds] at *
  simp only [Time.mk.injEq]
  omega

theorem inRange_ofSeconds {seconds nano : Nat} (h : seconds < 86400)
    (hnano : nano < 2 * nanosPerSecond) : (ofSeconds seconds nano).InRange where
  hour_lt := by show seconds / 3600 < 24; omega
  minute_lt := Nat.mod_lt _ (by decide)
  second_lt := Nat.mod_lt _ (by decide)
  nano_lt := hnano

end Time

namespace DateTime

variable {v : DateTime}

/-- The seconds up to a date and time, from the day before the first of January of the year one. -/
def elapsed (v : DateTime) : Int := v.date.number * 86400 + v.time.seconds

theorem inRange_addSeconds (h : v.time.InRange) (seconds : Int) :
    (v.addSeconds seconds).time.InRange :=
  Time.inRange_ofSeconds (by omega) h.nano_lt

/-- **Going on by so many seconds adds so many to the count**, back if they are negative. -/
theorem elapsed_addSeconds (h : v.date.IsOnCalendar) (seconds : Int) :
    (v.addSeconds seconds).elapsed = v.elapsed + seconds := by
  have hnumber := Date.number_addDays h ((v.time.seconds + seconds) / 86400)
  have hseconds := Time.seconds_ofSeconds
    ((v.time.seconds + seconds) % 86400).toNat v.time.nano
  simp only [elapsed, addSeconds, hnumber, hseconds]
  omega

/-- **No two dates and times have one count** and one part of a second. -/
theorem eq_of_elapsed_eq {w : DateTime} (hvdate : v.date.IsOnCalendar) (hvtime : v.time.InRange)
    (hwdate : w.date.IsOnCalendar) (hwtime : w.time.InRange) (helapsed : v.elapsed = w.elapsed)
    (hnano : v.time.nano = w.time.nano) : v = w := by
  have hvlt := Time.seconds_lt hvtime
  have hwlt := Time.seconds_lt hwtime
  unfold elapsed at helapsed
  have hdate : v.date = w.date := Date.eq_of_number_eq hvdate hwdate (by omega)
  have htime : v.time = w.time := Time.eq_of_seconds_eq hvtime hwtime (by omega) hnano
  obtain ⟨date, time⟩ := v
  cases hdate
  cases htime
  rfl

end DateTime

namespace ZonedDateTime

variable {v : ZonedDateTime}

/-- The date is a day of the calendar, the fields of the time are in their ranges, and the offset is
less than a day. -/
structure InRange (v : ZonedDateTime) : Prop where
  date : v.localTime.date.IsOnCalendar
  time : v.localTime.time.InRange
  offset : v.offset.natAbs < 86400

instance (v : ZonedDateTime) : Decidable v.InRange :=
  decidable_of_iff (v.localTime.date.IsOnCalendar ∧ v.localTime.time.InRange ∧ v.offset.natAbs < 86400)
    ⟨fun ⟨hdate, htime, hoffset⟩ => ⟨hdate, htime, hoffset⟩,
      fun ⟨hdate, htime, hoffset⟩ => ⟨hdate, htime, hoffset⟩⟩

theorem IsValid.inRange (h : v.IsValid) : v.InRange :=
  ⟨h.1.1.isOnCalendar, (Time.isValid_iff.mp h.1.2).1, h.2.2⟩

theorem InRange.toUniversal (h : v.InRange) : v.toUniversal.InRange :=
  ⟨h.date.addDays _, DateTime.inRange_addSeconds h.time _, (by decide : (0 : Int).natAbs < 86400)⟩

/-- The instant of a date and time with an offset: whole seconds of universal time and billionths of
a second. -/
def instant (v : ZonedDateTime) : Int × Nat :=
  (v.localTime.elapsed - v.offset, v.localTime.time.nano)

theorem instant_toUniversal (h : v.InRange) : v.toUniversal.instant = v.instant := by
  have helapsed := DateTime.elapsed_addSeconds h.date (-v.offset)
  show (v.universal.elapsed - 0, v.localTime.time.nano) = _
  rw [universal, helapsed, Int.sub_zero]
  rfl

/-- **The universal times tell instants apart.** -/
theorem universal_eq_iff {w : ZonedDateTime} (hv : v.InRange) (hw : w.InRange) :
    v.universal = w.universal ↔ v.instant = w.instant := by
  rw [← instant_toUniversal hv, ← instant_toUniversal hw]
  constructor
  · intro h
    rw [toUniversal, toUniversal, h]
  · intro h
    obtain ⟨hseconds, hnano⟩ := Prod.mk.inj h
    have helapsed : v.universal.elapsed = w.universal.elapsed := by
      simpa only [toUniversal, Int.sub_zero] using hseconds
    exact DateTime.eq_of_elapsed_eq hv.toUniversal.date hv.toUniversal.time hw.toUniversal.date
      hw.toUniversal.time helapsed hnano

/-- At one offset an instant is one date and time. -/
theorem eq_iff_instant {w : ZonedDateTime} (hv : v.InRange) (hw : w.InRange) :
    v = w ↔ v.instant = w.instant ∧ v.offset = w.offset := by
  constructor
  · rintro rfl
    exact ⟨rfl, rfl⟩
  · rintro ⟨hinstant, hoffset⟩
    obtain ⟨hseconds, hnano⟩ := Prod.mk.inj hinstant
    have hlocal : v.localTime = w.localTime :=
      DateTime.eq_of_elapsed_eq hv.date hv.time hw.date hw.time (by omega) hnano
    obtain ⟨localTime, offset⟩ := v
    cases hlocal
    cases hoffset
    rfl

end ZonedDateTime

end EntityTable.Codec
