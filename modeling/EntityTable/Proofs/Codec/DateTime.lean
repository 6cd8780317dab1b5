import EntityTable.Codec.DateTime
import EntityTable.Proofs.Codec.Calendar
import EntityTable.Proofs.Codec.TimeField

/-! # Reading back a stored date and time

A leap second belongs to the end of a minute, but where clocks are apart by odd seconds one ends a
minute here and lies inside a minute there. The text of a time has no form for the latter: its
number of seconds is that of the next second (`Time.asWritten`). So every date and time is read back
as what its text says (`decodeDateTime_text`), and this is the date and time itself unless it is a
leap second inside a minute. -/

namespace EntityTable.Codec

open TimeField

variable {rest : List Char}

/-! ### Times and what their texts say -/

namespace Time

variable {t : Time}

/-- The fields of the time are in their ranges; a leap second may follow on any second. -/
structure InRange (t : Time) : Prop where
  hour_lt : t.hour < 24
  minute_lt : t.minute < 60
  second_lt : t.second < 60
  nano_lt : t.nano < 2 * nanosPerSecond

instance (t : Time) : Decidable t.InRange :=
  decidable_of_iff (t.hour < 24 ∧ t.minute < 60 ∧ t.second < 60 ∧ t.nano < 2 * nanosPerSecond)
    ⟨fun ⟨hhour, hminute, hsecond, hnano⟩ => ⟨hhour, hminute, hsecond, hnano⟩,
      fun ⟨hhour, hminute, hsecond, hnano⟩ => ⟨hhour, hminute, hsecond, hnano⟩⟩

/-- If the time is a leap second, it follows on the last second of a minute. -/
def LeapEndsMinute (t : Time) : Prop := nanosPerSecond ≤ t.nano → t.second = 59

instance (t : Time) : Decidable t.LeapEndsMinute := inferInstanceAs (Decidable (_ → _))

theorem isValid_iff : t.IsValid ↔ t.InRange ∧ t.LeapEndsMinute :=
  ⟨fun ⟨hhour, hminute, hsecond, hnano, hleap⟩ => ⟨⟨hhour, hminute, hsecond, hnano⟩, hleap⟩,
    fun ⟨h, hleap⟩ => ⟨h.hour_lt, h.minute_lt, h.second_lt, h.nano_lt, hleap⟩⟩

/-- The time that the text of a time says. -/
def asWritten (t : Time) : Time :=
  ofFields t.hour t.minute (t.second + t.nano / nanosPerSecond) (t.nano % nanosPerSecond)

theorem asWritten_eq_iff (h : t.InRange) : t.asWritten = t ↔ t.LeapEndsMinute := by
  obtain ⟨-, -, hsecond, hnano⟩ := h
  obtain ⟨hour, minute, second, nano⟩ := t
  unfold asWritten ofFields LeapEndsMinute
  split_ifs with hsixty
  · simp only [Time.mk.injEq, true_and]
    simp only [nanosPerSecond] at *
    omega
  · simp only [Time.mk.injEq, true_and]
    simp only [nanosPerSecond] at *
    omega

end Time

/-- The date and time that the text of a date and time says. -/
def DateTime.asWritten (v : DateTime) : DateTime := ⟨v.date, v.time.asWritten⟩

theorem DateTime.asWritten_eq_iff {v : DateTime} (h : v.time.InRange) :
    v.asWritten = v ↔ v.time.LeapEndsMinute := by
  rw [← Time.asWritten_eq_iff h]
  exact ⟨congrArg DateTime.time, congrArg (DateTime.mk v.date)⟩

/-! ### Years -/

theorem yearDigits_cons {c : Char} (hc : c.isDigit = true) (cs : List Char) :
    yearDigits (c :: cs) = (number 1 (some 4) >>= fun n => pure (n : Int)) (c :: cs) := by
  have hminus : c ≠ '-' := by
    rintro rfl
    cases hc
  have hplus : c ≠ '+' := by
    rintro rfl
    cases hc
  rw [yearDigits, run_bind rfl]
  refine congrFun ?_ (c :: cs)
  split
  · rename_i heq
    exact absurd (List.cons.inj heq).1 hminus
  · rename_i heq
    exact absurd (List.cons.inj heq).1 hplus
  · rfl

theorem yearDigits_minus (cs : List Char) : yearDigits ('-' :: cs) =
    (number 1 none >>= fun n => pure (-(n : Int)) : FieldReader Int) cs := rfl

theorem yearDigits_plus (cs : List Char) : yearDigits ('+' :: cs) =
    (number 1 none >>= fun n => pure (n : Int) : FieldReader Int) cs := rfl

/-- **A year is read back**, with its sign where it has one. -/
theorem yearDigits_yearText {year : Int} (hyear : year.natAbs ≤ greatest) (hrest : NoDigit rest) :
    yearDigits (Date.yearText year ++ rest) = .ok (year, rest) := by
  unfold Date.yearText
  split
  · rename_i hfour
    have hlt : year.natAbs < 10 ^ 4 := by omega
    have hnumber := number_padded_width hlt (by decide) (by decide : 1 ≤ 4) hyear rest
    obtain ⟨c, cs, hcons⟩ := List.exists_cons_of_length_pos (length_padded_pos 4 year.natAbs)
    have hc : c.isDigit = true := isDigit_of_mem_padded (hcons ▸ List.mem_cons_self)
    rw [hcons] at hnumber ⊢
    rw [List.cons_append] at hnumber ⊢
    rw [yearDigits_cons hc, run_bind hnumber, Int.natAbs_of_nonneg hfour.1]
    rfl
  · have hnumber : number 1 none (padded 4 year.natAbs ++ rest) = .ok (year.natAbs, rest) :=
      number_padded_unbounded hyear hrest
    split
    · rename_i hnegative
      rw [List.cons_append, yearDigits_minus, run_bind hnumber,
        Int.ofNat_natAbs_of_nonpos hnegative.le, Int.neg_neg]
      rfl
    · rename_i hnonneg
      rw [List.cons_append, yearDigits_plus, run_bind hnumber,
        Int.natAbs_of_nonneg (Int.not_lt.mp hnonneg)]
      rfl

theorem trimStart_yearText (year : Int) (rest : List Char) :
    Text.trimStart (Date.yearText year ++ rest) = Date.yearText year ++ rest := by
  unfold Date.yearText
  split
  · exact trimStart_padded ..
  · split
    · exact trimStart_cons (by decide) _
    · exact trimStart_cons (by decide) _

theorem signedYear_yearText {year : Int} (hyear : year.natAbs < 2 ^ 31) (hrest : NoDigit rest) :
    signedYear (Date.yearText year ++ rest) = .ok (year, rest) := by
  have hread : afterBlanks yearDigits (Date.yearText year ++ rest) = .ok (year, rest) := by
    have hgreatest : 2 ^ 31 ≤ greatest := by decide
    rw [afterBlanks, trimStart_yearText, yearDigits_yearText (by omega) hrest]
  have hbounds : -Int.pow 2 31 ≤ year ∧ year < Int.pow 2 31 := by
    have hpow : Int.pow 2 31 = 2147483648 := by decide
    omega
  rw [signedYear, run_bind hread, if_pos hbounds]
  rfl

/-! ### The other fields -/

theorem looseField_padded {low high n : Nat} (hlow : low ≤ n) (hhigh : n ≤ high)
    (hn : n < 10 ^ 2) (rest : List Char) :
    looseField low high (padded 2 n ++ rest) = .ok (n, rest) := by
  have hgreatest : 10 ^ 2 ≤ greatest := by decide
  rw [looseField, afterBlanks, trimStart_padded]
  exact run_bounded (number_padded_width hn (by decide) (by decide) (by omega) rest) hlow hhigh

theorem Date.IsOnCalendar.day_lt {d : Date} (h : d.IsOnCalendar) : d.day ≤ 31 := by
  refine h.day_le.trans ?_
  unfold daysInMonth
  split_ifs <;> decide

theorem Date.IsValid.natAbs_year_lt {d : Date} (h : d.IsValid) : d.year.natAbs < 2 ^ 31 := by
  obtain ⟨hfirst, hlast, -⟩ := h
  unfold Date.firstYear at hfirst
  unfold Date.lastYear at hlast
  omega

theorem Time.nano_div_le {t : Time} (h : t.InRange) : t.nano / nanosPerSecond ≤ 1 :=
  Nat.le_of_lt_succ ((Nat.div_lt_iff_lt_mul (by decide)).mpr h.nano_lt)

/-- **All fields of a date and time are read back** as its text says, whatever follows that is no
digit and no point. -/
theorem run_dateTimeFields {v : DateTime} (hyear : v.date.year.natAbs < 2 ^ 31)
    (hdate : v.date.IsOnCalendar) (htime : v.time.InRange) (hrest : NoDigit rest)
    (hpoint : ∀ c ∈ rest.head?, c ≠ '.') :
    dateTimeFields (v.text ++ rest) = .ok (v.asWritten, rest) := by
  have hday := hdate.day_lt
  have hleap := Time.nano_div_le htime
  have hnano : v.time.nano % nanosPerSecond < 10 ^ 9 := Nat.mod_lt _ (by decide)
  obtain ⟨hmonth, hmonth', hday₁, -⟩ := hdate
  obtain ⟨hhour, hminute, hsecond, -⟩ := htime
  simp only [DateTime.text, Date.text, Time.text, List.append_assoc, List.cons_append]
  rw [dateTimeFields, run_bind (signedYear_yearText hyear (noDigit_cons rfl)),
    run_bind (mark_cons (by decide) _), run_bind (looseField_padded hmonth hmonth' (by omega) _),
    run_bind (mark_cons (by decide) _), run_bind (looseField_padded hday₁ hday (by omega) _),
    run_bind (mark_cons (by decide) _),
    run_bind (looseField_padded (Nat.zero_le _) (by omega) (by omega) _),
    run_bind (mark_cons (by decide) _),
    run_bind (looseField_padded (Nat.zero_le _) (by omega) (by omega) _),
    run_bind (mark_cons (by decide) _),
    run_bind (looseField_padded (Nat.zero_le _) (by omega) (by omega) _),
    run_bind (nanoseconds_fraction hnano hrest hpoint)]
  rfl

/-! ### Stored dates and times -/

theorem decodeDateTime_text {v : DateTime} (hdate : v.date.IsValid) (htime : v.time.InRange) :
    decodeDateTime (encodeDateTime v) = .ok v.asWritten := by
  have hread : all dateTimeFields (encodeDateTime v) = .ok v.asWritten := by
    have hfields := run_dateTimeFields hdate.natAbs_year_lt hdate.isOnCalendar htime noDigit_nil nofun
    rw [List.append_nil] at hfields
    rw [all_eq_ok_iff, encodeDateTime, String.toList_ofList, hfields]
  show (all dateTimeFields (encodeDateTime v) >>= _) = _
  rw [hread]
  exact if_pos hdate

/-- **A stored date and time is read back**, whatever its year and its part of a second: as itself
unless it is a leap second inside a minute, and then as the second that its text says. -/
theorem decodeDateTime_encodeDateTime {v : DateTime} (hdate : v.date.IsValid)
    (htime : v.time.InRange) :
    decodeDateTime (encodeDateTime v) = .ok v.asWritten ∧
    (decodeDateTime (encodeDateTime v) = .ok v ↔ v.time.LeapEndsMinute) := by
  have hread := decodeDateTime_text hdate htime
  refine ⟨hread, ?_⟩
  rw [hread, Except.ok.injEq, DateTime.asWritten_eq_iff htime]

/-- A leap second before the year one, on a twenty-ninth of February. -/
def earlyLeap : DateTime := ⟨⟨-4, 2, 29⟩, ⟨23, 59, 59, 1500000000⟩⟩

theorem decodeDateTime_encodeDateTime_earlyLeap :
    earlyLeap.date.IsValid ∧ earlyLeap.time.InRange ∧
    decodeDateTime (encodeDateTime earlyLeap) = .ok earlyLeap := by
  have hdate : earlyLeap.date.IsValid := by decide
  have htime : earlyLeap.time.InRange := ⟨by decide, by decide, by decide, by decide⟩
  exact ⟨hdate, htime, (decodeDateTime_encodeDateTime hdate htime).2.mpr (by decide)⟩

/-- The leap second at the end of 2016 where clocks are 61 seconds behind. -/
def innerLeap : DateTime := ⟨⟨2016, 12, 31⟩, ⟨23, 58, 58, 1999999999⟩⟩

/-- A leap second that another clock's minute ends with is lost. -/
theorem decodeDateTime_encodeDateTime_innerLeap :
    innerLeap = DateTime.addSeconds ⟨⟨2016, 12, 31⟩, ⟨23, 59, 59, 1999999999⟩⟩ (-61) ∧
    decodeDateTime (encodeDateTime innerLeap) =
      .ok ⟨⟨2016, 12, 31⟩, ⟨23, 58, 59, 999999999⟩⟩ ∧
    decodeDateTime (encodeDateTime innerLeap) ≠ .ok innerLeap := by
  have hread : decodeDateTime (encodeDateTime innerLeap) = .ok innerLeap.asWritten :=
    decodeDateTime_text (by decide) ⟨by decide, by decide, by decide, by decide⟩
  rw [hread]
  exact ⟨by decide, rfl, fun h => absurd (Except.ok.inj h) (by decide)⟩

end EntityTable.Codec
