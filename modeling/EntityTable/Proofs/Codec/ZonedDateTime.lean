import EntityTable.Proofs.Codec.Instant

/-! # Reading back a stored date and time with an offset

A text with an offset says a date of a year of four digits, a time of which a leap second ends a
minute, and an offset of whole minutes (`ZonedDateTime.IsExpressible`). Reading accepts a text only
if it says such a value, and every such value is read back from the text that stores it, so these are
exactly the values that storing keeps (`decodeZonedDateTime_eq_ok_iff`). -/

namespace EntityTable.Codec

open TimeField

variable {cs rest : List Char}

namespace ZonedDateTime

/-- The value has a text of its own. -/
structure IsExpressible (v : ZonedDateTime) : Prop where
  year : 0 ≤ v.localTime.date.year ∧ v.localTime.date.year ≤ 9999
  date : v.localTime.date.IsOnCalendar
  time : v.localTime.time.IsValid
  offset : v.offset.natAbs < 86400
  minutes : 60 ∣ v.offset

end ZonedDateTime

/-! ### Writing and reading -/

theorem twoDigits_padded {n : Nat} (hn : n < 10 ^ 2) (rest : List Char) :
    twoDigits (padded 2 n ++ rest) = .ok (n, rest) := by
  have hgreatest : 10 ^ 2 ≤ greatest := by decide
  exact number_padded_width hn (by decide) le_rfl (by omega) rest

theorem dateField_text {d : Date} (hyear : 0 ≤ d.year ∧ d.year ≤ 9999) (hdate : d.IsOnCalendar)
    (rest : List Char) : dateField (d.text ++ rest) = .ok (d, rest) := by
  have hlt : d.year.natAbs < 10 ^ 4 := by omega
  have hgreatest : 10 ^ 4 ≤ greatest := by decide
  have hvalid : d.IsValid := by
    refine Date.isValid_iff.mpr ⟨?_, hdate⟩
    unfold Date.firstYear Date.lastYear
    omega
  have hday := hdate.day_lt
  have hmonth := hdate.month_le
  simp only [Date.text, Date.yearText, if_pos hyear, List.append_assoc, List.cons_append]
  rw [dateField, run_bind (number_padded_width hlt (by decide) le_rfl (by omega) _),
    run_bind (mark_cons (by decide) _), run_bind (twoDigits_padded (by omega) _),
    run_bind (mark_cons (by decide) _), run_bind (twoDigits_padded (by omega) _)]
  rw [Int.natAbs_of_nonneg hyear.1, if_pos hvalid]
  rfl

theorem timeField_text {t : Time} (htime : t.IsValid) (hrest : NoDigit rest)
    (hpoint : ∀ c ∈ rest.head?, c ≠ '.') : timeField (t.text ++ rest) = .ok (t, rest) := by
  obtain ⟨hrange, hleap⟩ := Time.isValid_iff.mp htime
  have hdiv := Time.nano_div_le hrange
  have hnano : t.nano % nanosPerSecond < 10 ^ 9 := Nat.mod_lt _ (by decide)
  have hwritten : Time.ofFields t.hour t.minute (t.second + t.nano / nanosPerSecond)
      (t.nano % nanosPerSecond) = t := (Time.asWritten_eq_iff hrange).mpr hleap
  obtain ⟨hhour, hminute, hsecond, -⟩ := hrange
  simp only [Time.text, List.append_assoc, List.cons_append]
  rw [timeField, run_bind (twoDigits_padded (by omega) _), run_bind (mark_cons (by decide) _),
    run_bind (twoDigits_padded (by omega) _), run_bind (mark_cons (by decide) _),
    run_bind (twoDigits_padded (by omega) _), run_bind (nanoseconds_fraction hnano hrest hpoint)]
  rw [hwritten, if_pos htime]
  rfl

theorem offsetDigits_padded {minutes : Nat} (h : minutes < 1440) (rest : List Char) :
    offsetDigits (padded 2 (minutes / 60) ++ ':' :: padded 2 (minutes % 60) ++ rest) =
      .ok (minutes * 60, rest) := by
  have hhours : ¬ 23 < minutes / 60 := by omega
  rw [List.append_assoc, List.cons_append, offsetDigits,
    run_bind (twoDigits_padded (by omega) _), run_bind (mark_cons (by decide) _),
    run_bind (run_bounded (twoDigits_padded (by omega) _) (Nat.zero_le _) (by omega)),
    if_neg hhours, Nat.div_add_mod' minutes 60]
  rfl

theorem offsetField_offsetText {offset : Int} (hlt : offset.natAbs < 86400) (hdvd : 60 ∣ offset) :
    offsetField (offsetText offset) = .ok (offset, []) := by
  have hminutes : (offset.natAbs + 30) / 60 < 1440 := by omega
  have hdigits := offsetDigits_padded hminutes []
  rw [List.append_nil] at hdigits
  have hback : (offset.natAbs + 30) / 60 * 60 = offset.natAbs := by omega
  unfold offsetText
  split_ifs with hnegative
  · rw [offsetField, run_bind (mark_cons (by decide) _), if_neg (by decide), run_bind hdigits, hback,
      if_neg (by decide)]
    show Except.ok (-(offset.natAbs : Int), []) = _
    rw [Int.ofNat_natAbs_of_nonpos hnegative.le, Int.neg_neg]
  · rw [offsetField, run_bind (mark_cons (by decide) _), if_neg (by decide), run_bind hdigits, hback,
      if_pos rfl]
    show Except.ok ((offset.natAbs : Int), []) = _
    rw [Int.natAbs_of_nonneg (Int.not_lt.mp hnegative)]

theorem noDigit_offsetText (offset : Int) :
    NoDigit (offsetText offset) ∧ ∀ c ∈ (offsetText offset).head?, c ≠ '.' := by
  unfold offsetText
  split_ifs
  · exact ⟨noDigit_cons rfl, fun c hc => by cases hc; decide⟩
  · exact ⟨noDigit_cons rfl, fun c hc => by cases hc; decide⟩

theorem shortestLength_le {v : DateTime} (hyear : 0 ≤ v.date.year ∧ v.date.year ≤ 9999)
    (hdate : v.date.IsOnCalendar) (htime : v.time.InRange) (rest : List Char) :
    shortestLength ≤ byteCount (v.text ++ rest) := by
  have hday := hdate.day_lt
  have hmonth := hdate.month_le
  have hleap := Time.nano_div_le htime
  obtain ⟨hhour, hminute, hsecond, -⟩ := htime
  have htwo {n : Nat} (hn : n < 10 ^ 2) : (padded 2 n).length = 2 := length_padded hn (by decide)
  have hfour : (padded 4 v.date.year.natAbs).length = 4 := length_padded (by omega) (by decide)
  refine le_trans ?_ (length_le_byteCount _)
  simp only [DateTime.text, Date.text, Date.yearText, if_pos hyear, Time.text, List.length_append,
    List.length_cons, hfour]
  rw [htwo (by omega), htwo (by omega), htwo (by omega), htwo (by omega), htwo (by omega)]
  unfold shortestLength
  omega

/-- **A value with a text of its own is read back from it.** -/
theorem ZonedDateTime.IsExpressible.decode {v : ZonedDateTime} (h : v.IsExpressible) :
    decodeZonedDateTime (encodeZonedDateTime v) = .ok v := by
  obtain ⟨hyear, hdate, htime, hoffset, hminutes⟩ := h
  have hlength := shortestLength_le hyear hdate (Time.isValid_iff.mp htime).1 (offsetText v.offset)
  obtain ⟨hdigit, hpoint⟩ := noDigit_offsetText v.offset
  rw [decodeZonedDateTime, all_eq_ok_iff, encodeZonedDateTime, String.toList_ofList, zonedFields,
    run_bind rfl, if_neg (Nat.not_lt.mpr hlength)]
  simp only [DateTime.text, List.append_assoc, List.cons_append]
  rw [run_bind (dateField_text hyear hdate _), run_bind (mark_cons (by decide) _),
    run_bind (timeField_text htime hdigit hpoint), run_bind (offsetField_offsetText hoffset hminutes)]
  rfl

/-! ### Texts that are accepted -/

theorem dateField_eq_ok {d : Date} (h : dateField cs = .ok (d, rest)) :
    (0 ≤ d.year ∧ d.year ≤ 9999) ∧ d.IsValid := by
  obtain ⟨year, _, hyear, h⟩ := exists_of_run_bind h
  obtain ⟨_, _, -, h⟩ := exists_of_run_bind h
  obtain ⟨month, _, -, h⟩ := exists_of_run_bind h
  obtain ⟨_, _, -, h⟩ := exists_of_run_bind h
  obtain ⟨day, _, -, h⟩ := exists_of_run_bind h
  have hlt := number_lt hyear
  dsimp only at h
  split at h
  · rename_i hvalid
    cases h
    exact ⟨⟨Int.natCast_nonneg _, by show (year : Int) ≤ 9999; omega⟩, hvalid⟩
  · cases h

theorem timeField_eq_ok {t : Time} (h : timeField cs = .ok (t, rest)) : t.IsValid := by
  obtain ⟨hour, _, -, h⟩ := exists_of_run_bind h
  obtain ⟨_, _, -, h⟩ := exists_of_run_bind h
  obtain ⟨minute, _, -, h⟩ := exists_of_run_bind h
  obtain ⟨_, _, -, h⟩ := exists_of_run_bind h
  obtain ⟨second, _, -, h⟩ := exists_of_run_bind h
  obtain ⟨nano, _, -, h⟩ := exists_of_run_bind h
  dsimp only at h
  split at h
  · rename_i hvalid
    cases h
    exact hvalid
  · cases h

theorem offsetDigits_eq_ok {seconds : Nat} (h : offsetDigits cs = .ok (seconds, rest)) :
    seconds < 86400 ∧ 60 ∣ seconds := by
  obtain ⟨hours, _, -, h⟩ := exists_of_run_bind h
  obtain ⟨_, _, -, h⟩ := exists_of_run_bind h
  obtain ⟨minutes, _, hminutes, h⟩ := exists_of_run_bind h
  have hle := (bounded_of_run hminutes).2
  split at h
  · cases h
  · cases h
    omega

theorem offsetField_eq_ok {offset : Int} (h : offsetField cs = .ok (offset, rest)) :
    offset.natAbs < 86400 ∧ 60 ∣ offset := by
  obtain ⟨sign, _, -, h⟩ := exists_of_run_bind h
  split at h
  · cases h
    decide
  · obtain ⟨seconds, _, hseconds, h⟩ := exists_of_run_bind h
    obtain ⟨hlt, hdvd⟩ := offsetDigits_eq_ok hseconds
    split at h
    · cases h
      omega
    · cases h
      omega

theorem isExpressible_of_decode {text : String} {v : ZonedDateTime}
    (h : decodeZonedDateTime text = .ok v) : v.IsExpressible := by
  obtain ⟨_, _, -, h⟩ := exists_of_run_bind (all_eq_ok_iff.mp h)
  split at h
  · cases h
  · obtain ⟨date, _, hdate, h⟩ := exists_of_run_bind h
    obtain ⟨_, _, -, h⟩ := exists_of_run_bind h
    obtain ⟨time, _, htime, h⟩ := exists_of_run_bind h
    obtain ⟨offset, _, hoffset, h⟩ := exists_of_run_bind h
    cases h
    obtain ⟨hyear, hvalid⟩ := dateField_eq_ok hdate
    obtain ⟨hlt, hdvd⟩ := offsetField_eq_ok hoffset
    exact ⟨hyear, hvalid.isOnCalendar, timeField_eq_ok htime, hlt, hdvd⟩

theorem decodeZonedDateTime_eq_ok_iff {v : ZonedDateTime} :
    decodeZonedDateTime (encodeZonedDateTime v) = .ok v ↔ v.IsExpressible :=
  ⟨isExpressible_of_decode, fun h => h.decode⟩

/-! ### Stored dates and times with an offset -/

namespace ZonedDateTime

variable {v : ZonedDateTime}

theorem isExpressible_iff (h : v.InRange) :
    v.IsExpressible ↔ (0 ≤ v.localTime.date.year ∧ v.localTime.date.year ≤ 9999) ∧
      60 ∣ v.offset ∧ v.localTime.time.LeapEndsMinute :=
  ⟨fun hv => ⟨hv.year, hv.minutes, (Time.isValid_iff.mp hv.time).2⟩,
    fun ⟨hyear, hminutes, hleap⟩ =>
      ⟨hyear, h.date, Time.isValid_iff.mpr ⟨h.time, hleap⟩, h.offset, hminutes⟩⟩

/-- In universal time the date is that of the day before, the same or the day after. -/
theorem IsExpressible.isValid (h : v.IsExpressible) : v.IsValid := by
  obtain ⟨hyear, hdate, htime, hoffset, -⟩ := h
  have hseconds := Time.seconds_lt (Time.isValid_iff.mp htime).1
  have hnear := Date.year_addDays v.localTime.date
    (show -1 ≤ (v.localTime.time.seconds + -v.offset) / 86400 by omega) (by omega)
  have hfirst : Date.firstYear ≤ -1 := by decide
  have hlast : 10000 ≤ Date.lastYear := by decide
  have huniversal : v.universal.date.IsValid :=
    Date.isValid_iff.mpr ⟨⟨by show Date.firstYear ≤ (v.localTime.date.addDays _).year; omega,
      by show (v.localTime.date.addDays _).year ≤ Date.lastYear; omega⟩, hdate.addDays _⟩
  exact ⟨⟨Date.isValid_iff.mpr ⟨by omega, hdate⟩, htime⟩, huniversal, hoffset⟩

end ZonedDateTime

/-- **Which dates and times with an offset are read back**: those of a year of four digits, with an
offset of whole minutes, that are no leap second inside a minute. In universal time these are read
back as the same instant. What a text is read as is such a value, so it is read back too. -/
theorem decodeZonedDateTime_encodeZonedDateTime :
    (∀ v : ZonedDateTime, v.InRange →
      (decodeZonedDateTime (encodeZonedDateTime v) = .ok v ↔
        (0 ≤ v.localTime.date.year ∧ v.localTime.date.year ≤ 9999) ∧ 60 ∣ v.offset ∧
          v.localTime.time.LeapEndsMinute) ∧
      ((0 ≤ v.localTime.date.year ∧ v.localTime.date.year ≤ 9999) → 60 ∣ v.offset →
        v.localTime.time.LeapEndsMinute → ∃ u,
          (decodeZonedDateTime (encodeZonedDateTime v)).map ZonedDateTime.toUniversal = .ok u ∧
          u.offset = 0 ∧ u.instant = v.instant)) ∧
    ∀ (text : String) (v : ZonedDateTime), decodeZonedDateTime text = .ok v →
      v.IsValid ∧ (0 ≤ v.localTime.date.year ∧ v.localTime.date.year ≤ 9999) ∧ 60 ∣ v.offset ∧
        decodeZonedDateTime (encodeZonedDateTime v) = .ok v := by
  refine ⟨fun v hv => ⟨?_, fun hyear hminutes hleap => ?_⟩, fun text v h => ?_⟩
  · rw [decodeZonedDateTime_eq_ok_iff, ZonedDateTime.isExpressible_iff hv]
  · have hread := ((ZonedDateTime.isExpressible_iff hv).mpr ⟨hyear, hminutes, hleap⟩).decode
    refine ⟨v.toUniversal, ?_, rfl, ZonedDateTime.instant_toUniversal hv⟩
    rw [hread]
    rfl
  · have hv := isExpressible_of_decode h
    exact ⟨hv.isValid, hv.year, hv.minutes, hv.decode⟩

/-- A leap second where clocks are five hours and three quarters ahead. -/
def eastLeap : ZonedDateTime := ⟨⟨⟨2017, 1, 1⟩, ⟨5, 44, 59, 1500000000⟩⟩, 20700⟩

theorem decodeZonedDateTime_encodeZonedDateTime_eastLeap :
    eastLeap.InRange ∧ decodeZonedDateTime (encodeZonedDateTime eastLeap) = .ok eastLeap ∧
    (∃ u, (decodeZonedDateTime (encodeZonedDateTime eastLeap)).map ZonedDateTime.toUniversal =
      .ok u ∧ u.offset = 0 ∧ u.instant = eastLeap.instant) ∧
    decodeZonedDateTime "2017-01-01 05:44:60.5+05:45" = .ok eastLeap ∧ eastLeap.IsValid := by
  have hv : eastLeap.InRange :=
    ⟨⟨by decide, by decide, by decide, by decide⟩, ⟨by decide, by decide, by decide, by decide⟩,
      by decide⟩
  obtain ⟨hiff, hinstant⟩ := decodeZonedDateTime_encodeZonedDateTime.1 eastLeap hv
  have htext : decodeZonedDateTime "2017-01-01 05:44:60.5+05:45" = .ok eastLeap := by decide
  exact ⟨hv, hiff.mpr (by decide), hinstant (by decide) (by decide) (by decide), htext,
    (decodeZonedDateTime_encodeZonedDateTime.2 _ _ htext).1⟩

/-- The same instant as the last leap second of 2016 where clocks are 61 seconds ahead, but in
universal time. -/
def universalLeap : ZonedDateTime := ⟨⟨⟨2016, 12, 31⟩, ⟨23, 58, 58, 1999999999⟩⟩, 0⟩

/-- A leap second that another clock's minute ends with is lost, of whatever year and offset. -/
theorem decodeZonedDateTime_encodeZonedDateTime_universalLeap :
    ZonedDateTime.IsValid ⟨⟨⟨2016, 12, 31⟩, ⟨23, 59, 59, 1999999999⟩⟩, 61⟩ ∧
    universalLeap =
      ZonedDateTime.toUniversal ⟨⟨⟨2016, 12, 31⟩, ⟨23, 59, 59, 1999999999⟩⟩, 61⟩ ∧
    (0 ≤ universalLeap.localTime.date.year ∧ universalLeap.localTime.date.year ≤ 9999) ∧
    60 ∣ universalLeap.offset ∧
    decodeZonedDateTime (encodeZonedDateTime universalLeap) ≠ .ok universalLeap := by
  refine ⟨by decide, by decide, by decide, by decide, fun h => ?_⟩
  exact absurd (isExpressible_of_decode h).time (by decide)

end EntityTable.Codec
