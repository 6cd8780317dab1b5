import EntityTable.Proofs.Codec.FloatText
import EntityTable.Proofs.Codec.ZonedDateTime

/-! # Equal values and equal texts

A column of texts is searched by text: a row is found if it holds the text of the key. So it matters
which values share a text. Dates and times do exactly if their texts say the same
(`encodeDateTime_eq_iff`), and that is the value itself unless it is a leap second inside a minute.
A text with an offset tells the offset as well as the instant, so one instant has a text for each
offset (`encodeZonedDateTime_eq_iff`). Floats share a text only if they have the same bits, so zero
has one text for each sign (`encodeFloat_eq_iff`). Main statement: `encode_eq_iff`. -/

namespace EntityTable.Codec

open TimeField

/-! ### Dates and times -/

theorem Time.text_asWritten (t : Time) : t.asWritten.text = t.text := by
  have hrest : (t.nano % nanosPerSecond + nanosPerSecond) % nanosPerSecond =
      t.nano % nanosPerSecond := by
    rw [Nat.add_mod_right, Nat.mod_mod]
  have hwhole : (t.nano % nanosPerSecond + nanosPerSecond) / nanosPerSecond = 1 := by
    rw [Nat.add_div_right _ (by decide), Nat.div_eq_of_lt (Nat.mod_lt _ (by decide))]
  unfold asWritten ofFields
  split_ifs with hsixty
  · simp only [Time.text, hrest, hwhole, hsixty]
  · simp only [Time.text, Nat.mod_mod, Nat.div_eq_of_lt (Nat.mod_lt _ (by decide : 0 < nanosPerSecond)),
      Nat.add_zero]

namespace DateTime

variable {v w : DateTime} {rest rest' : List Char}

theorem text_asWritten (v : DateTime) : v.asWritten.text = v.text :=
  congrArg (fun time => v.date.text ++ 'T' :: time) (Time.text_asWritten v.time)

/-- The date is a day of the calendar in a year of 32 bits, and the fields of the time are in their
ranges. -/
structure InRange (v : DateTime) : Prop where
  year : v.date.year.natAbs < 2 ^ 31
  date : v.date.IsOnCalendar
  time : v.time.InRange

/-- What follows a part of a second is no more of it. -/
def EndsFraction (rest : List Char) : Prop := NoDigit rest ∧ ∀ c ∈ rest.head?, c ≠ '.'

/-- **No text of a date and time begins another**: from a text that begins with one, that one and
the rest are known. -/
theorem text_append_inj (hv : v.InRange) (hw : w.InRange) (hrest : EndsFraction rest)
    (hrest' : EndsFraction rest') (h : v.text ++ rest = w.text ++ rest') :
    v.asWritten = w.asWritten ∧ rest = rest' := by
  have hreadv := run_dateTimeFields hv.year hv.date hv.time hrest.1 hrest.2
  have hreadw := run_dateTimeFields hw.year hw.date hw.time hrest'.1 hrest'.2
  rw [h, hreadw] at hreadv
  exact (Prod.mk.inj (Except.ok.inj hreadv)).imp Eq.symm Eq.symm

theorem text_append_eq_iff (hv : v.InRange) (hw : w.InRange) (hrest : EndsFraction rest)
    (hrest' : EndsFraction rest') :
    v.text ++ rest = w.text ++ rest' ↔ v.asWritten = w.asWritten ∧ rest = rest' := by
  refine ⟨text_append_inj hv hw hrest hrest', fun ⟨hwritten, hsame⟩ => ?_⟩
  rw [← text_asWritten v, ← text_asWritten w, hwritten, hsame]

/-- The value is one that a date and time can have. -/
def IsRepresentable (v : DateTime) : Prop := v.date.IsValid ∧ v.time.InRange

instance (v : DateTime) : Decidable v.IsRepresentable := inferInstanceAs (Decidable (_ ∧ _))

theorem IsRepresentable.inRange (h : v.IsRepresentable) : v.InRange :=
  ⟨h.1.natAbs_year_lt, h.1.isOnCalendar, h.2⟩

end DateTime

/-- **Dates and times share a text exactly if their texts say the same.** -/
theorem encodeDateTime_eq_iff {v w : DateTime} (hv : v.InRange) (hw : w.InRange) :
    encodeDateTime v = encodeDateTime w ↔ v.asWritten = w.asWritten := by
  have hend : DateTime.EndsFraction [] := ⟨noDigit_nil, nofun⟩
  have hiff := DateTime.text_append_eq_iff hv hw hend hend
  rw [List.append_nil, List.append_nil] at hiff
  rw [encodeDateTime, encodeDateTime, String.ofList_inj, hiff]
  exact and_iff_left rfl

/-! ### Offsets -/

/-- What the text of an offset says: whether it is negative, and its minutes. -/
def writtenOffset (offset : Int) : Bool × Nat := (decide (offset < 0), (offset.natAbs + 30) / 60)

theorem offsetText_eq (offset : Int) :
    offsetText offset = (if (writtenOffset offset).1 then '-' else '+') ::
      (padded 2 ((writtenOffset offset).2 / 60) ++ ':' ::
        padded 2 ((writtenOffset offset).2 % 60)) := by
  simp only [offsetText, writtenOffset, decide_eq_true_eq]

theorem padded_inj {width m n : Nat} (h : padded width m = padded width n) : m = n := by
  rw [← digitsValue_padded width m, h, digitsValue_padded]

theorem offsetText_eq_iff {a b : Int} (ha : a.natAbs < 86400) (hb : b.natAbs < 86400) :
    offsetText a = offsetText b ↔ writtenOffset a = writtenOffset b := by
  refine ⟨fun h => ?_, fun h => by rw [offsetText_eq, offsetText_eq, h]⟩
  have hhours {offset : Int} (hlt : offset.natAbs < 86400) :
      (padded 2 ((writtenOffset offset).2 / 60)).length = 2 := by
    refine length_padded ?_ (by decide)
    unfold writtenOffset
    omega
  rw [offsetText_eq, offsetText_eq, List.cons.injEq] at h
  obtain ⟨hsign, hdigits⟩ := h
  obtain ⟨hhour, hminute⟩ := List.append_inj hdigits ((hhours ha).trans (hhours hb).symm)
  have hdiv := padded_inj hhour
  have hmod := padded_inj (List.cons.inj hminute).2
  refine Prod.ext ?_ ?_
  · revert hsign
    cases (writtenOffset a).1 <;> cases (writtenOffset b).1 <;> decide
  · omega

theorem writtenOffset_eq_iff {a b : Int} (ha : 60 ∣ a) (hb : 60 ∣ b) :
    writtenOffset a = writtenOffset b ↔ a = b := by
  refine ⟨fun h => ?_, congrArg writtenOffset⟩
  obtain ⟨hsign, hminutes⟩ := Prod.mk.inj h
  rw [decide_eq_decide] at hsign
  omega

/-! ### Dates and times with an offset -/

namespace ZonedDateTime

variable {v w : ZonedDateTime}

/-- The value is one that a date and time with an offset can have: it is in its ranges, and in
universal time its date is in a year that dates may have. -/
def IsRepresentable (v : ZonedDateTime) : Prop := v.InRange ∧ v.universal.date.IsValid

instance (v : ZonedDateTime) : Decidable v.IsRepresentable := inferInstanceAs (Decidable (_ ∧ _))

/-- The local date is that of the universal time, the day before or the day after. -/
theorem IsRepresentable.localTime (h : v.IsRepresentable) : v.localTime.InRange := by
  obtain ⟨hrange, huniversal⟩ := h
  have hseconds := Time.seconds_lt hrange.time
  have hoffset := hrange.offset
  have hnear := Date.year_addDays v.localTime.date
    (show -1 ≤ (v.localTime.time.seconds + -v.offset) / 86400 by omega) (by omega)
  obtain ⟨hfirst, hlast, -⟩ := huniversal
  refine ⟨?_, hrange.date, hrange.time⟩
  have hlow : Date.firstYear ≤ v.localTime.date.year + 1 := hfirst.trans hnear.2
  have hhigh : v.localTime.date.year - 1 ≤ Date.lastYear := hnear.1.trans hlast
  unfold Date.firstYear at hlow
  unfold Date.lastYear at hhigh
  omega

/-- The text says the value itself: the offset is in whole minutes, and a leap second ends a
minute. -/
def IsExact (v : ZonedDateTime) : Prop := 60 ∣ v.offset ∧ v.localTime.time.LeapEndsMinute

instance (v : ZonedDateTime) : Decidable v.IsExact := inferInstanceAs (Decidable (_ ∧ _))

end ZonedDateTime

section Zoned

variable {v w : ZonedDateTime} (hv : v.IsRepresentable) (hw : w.IsRepresentable)
include hv hw

/-- **Dates and times with an offset share a text exactly if their texts say the same** local date
and time and the same offset. -/
theorem encodeZonedDateTime_eq_iff : encodeZonedDateTime v = encodeZonedDateTime w ↔
    v.localTime.asWritten = w.localTime.asWritten ∧
      writtenOffset v.offset = writtenOffset w.offset := by
  rw [encodeZonedDateTime, encodeZonedDateTime, String.ofList_inj,
    DateTime.text_append_eq_iff hv.localTime hw.localTime (noDigit_offsetText _)
      (noDigit_offsetText _), offsetText_eq_iff hv.1.offset hw.1.offset]

/-- **One instant has a text for each offset.** -/
theorem encodeZonedDateTime_eq_iff_of_isExact (hvexact : v.IsExact) (hwexact : w.IsExact) :
    encodeZonedDateTime v = encodeZonedDateTime w ↔
      v.universal = w.universal ∧ v.offset = w.offset := by
  have hvlocal := (DateTime.asWritten_eq_iff hv.1.time).mpr hvexact.2
  have hwlocal := (DateTime.asWritten_eq_iff hw.1.time).mpr hwexact.2
  rw [encodeZonedDateTime_eq_iff hv hw, hvlocal, hwlocal,
    writtenOffset_eq_iff hvexact.1 hwexact.1, ZonedDateTime.universal_eq_iff hv.1 hw.1,
    ← ZonedDateTime.eq_iff_instant hv.1 hw.1]
  obtain ⟨localTime, offset⟩ := v
  obtain ⟨localTime', offset'⟩ := w
  rw [ZonedDateTime.mk.injEq]

end Zoned

/-! ### Floats -/

section Float

variable {x y : UInt32}

/-- The number that a float denotes, in units; infinity counts as the next power of two. -/
def signedUnits (bits : UInt32) : Int :=
  if isNegative bits then -(FloatFormat.single.units (magnitude bits) : Int)
  else FloatFormat.single.units (magnitude bits)

theorem units_eq_zero_iff {p : Nat} : FloatFormat.single.units p = 0 ↔ p = 0 :=
  (FloatFormat.units_strictMono _).injective.eq_iff' (FloatFormat.units_zero _)

/-- **Floats denote one number if they have the same bits or are zero**, of whichever sign. -/
theorem signedUnits_eq_iff : signedUnits x = signedUnits y ↔
    magnitude x = magnitude y ∧ (isNegative x = isNegative y ∨ magnitude x = 0) := by
  have hinj : FloatFormat.single.units (magnitude x) = FloatFormat.single.units (magnitude y) ↔
      magnitude x = magnitude y := (FloatFormat.units_strictMono _).injective.eq_iff
  have hx := units_eq_zero_iff (p := magnitude x)
  have hy := units_eq_zero_iff (p := magnitude y)
  rw [← hinj, ← hx]
  unfold signedUnits
  cases isNegative x <;> cases isNegative y <;> simp <;> omega

theorem eq_iff_magnitude : x = y ↔ isNegative x = isNegative y ∧ magnitude x = magnitude y := by
  constructor
  · rintro rfl
    exact ⟨rfl, rfl⟩
  · rintro ⟨hsign, hmagnitude⟩
    rw [← UInt32.toNat_inj, toNat_eq_magnitude x, toNat_eq_magnitude y, hsign, hmagnitude]

variable (hx : isNaN x = false) (hy : isNaN y = false)
include hx hy

/-- **Floats share a text only if they have the same bits.** -/
theorem encodeFloat_eq_iff : encodeFloat x = encodeFloat y ↔ x = y := by
  refine ⟨fun h => ?_, congrArg encodeFloat⟩
  have hread {bits : UInt32} (hnumber : isNaN bits = false) :
      pattern? (magnitudeText (magnitude bits)) = some (magnitude bits) :=
    pattern?_magnitudeText (Nat.le_of_not_lt (of_decide_eq_false hnumber))
  rw [encodeFloat, encodeFloat, hx, hy, if_neg Bool.false_ne_true, if_neg Bool.false_ne_true,
    String.ofList_inj] at h
  have hsplit := congrArg splitSign h
  rw [splitSign_append _ (unsigned_magnitudeText _), splitSign_append _ (unsigned_magnitudeText _),
    Prod.mk.injEq] at hsplit
  obtain ⟨hsign, hbody⟩ := hsplit
  have hpattern := congrArg pattern? hbody
  rw [hread hx, hread hy] at hpattern
  exact eq_iff_magnitude.mpr ⟨hsign, Option.some.inj hpattern⟩

/-- **Floats share a text if they denote one number, and with the same sign.** -/
theorem encodeFloat_eq_iff_signedUnits : encodeFloat x = encodeFloat y ↔
    signedUnits x = signedUnits y ∧ isNegative x = isNegative y := by
  rw [encodeFloat_eq_iff hx hy, eq_iff_magnitude, signedUnits_eq_iff]
  tauto

end Float

/-! ### Texts that are searched for -/

/-- **Which values share a text.** Dates and times do if they are equal or their texts say the same
for a leap second inside a minute. Of dates and times with an offset in whole minutes those do that
are one instant at one offset. Numbers do if they are equal, except for the two zeros. -/
theorem encode_eq_iff (v w : DateTime) (v' w' : ZonedDateTime) (x y : UInt32) :
    (v.IsRepresentable → w.IsRepresentable →
      (encodeDateTime v = encodeDateTime w ↔ v.asWritten = w.asWritten) ∧
      (v.time.LeapEndsMinute → w.time.LeapEndsMinute →
        (encodeDateTime v = encodeDateTime w ↔ v = w))) ∧
    (v'.IsRepresentable → w'.IsRepresentable →
      (encodeZonedDateTime v' = encodeZonedDateTime w' ↔
        v'.localTime.asWritten = w'.localTime.asWritten ∧
          writtenOffset v'.offset = writtenOffset w'.offset) ∧
      (v'.IsExact → w'.IsExact → (encodeZonedDateTime v' = encodeZonedDateTime w' ↔
        v'.universal = w'.universal ∧ v'.offset = w'.offset))) ∧
    (isNaN x = false → isNaN y = false →
      (encodeFloat x = encodeFloat y ↔
        signedUnits x = signedUnits y ∧ isNegative x = isNegative y) ∧
      (signedUnits x = signedUnits y → encodeFloat x ≠ encodeFloat y →
        magnitude x = 0 ∧ magnitude y = 0)) := by
  refine ⟨fun hv hw => ⟨encodeDateTime_eq_iff hv.inRange hw.inRange, fun hvleap hwleap => ?_⟩,
    fun hv hw => ⟨encodeZonedDateTime_eq_iff hv hw, encodeZonedDateTime_eq_iff_of_isExact hv hw⟩,
    fun hx hy => ⟨encodeFloat_eq_iff_signedUnits hx hy, fun hsame hne => ?_⟩⟩
  · rw [encodeDateTime_eq_iff hv.inRange hw.inRange, (DateTime.asWritten_eq_iff hv.2).mpr hvleap,
      (DateTime.asWritten_eq_iff hw.2).mpr hwleap]
  · obtain ⟨hmagnitude, hsign | hzero⟩ := signedUnits_eq_iff.mp hsame
    · exact absurd (congrArg encodeFloat (eq_iff_magnitude.mpr ⟨hsign, hmagnitude⟩)) hne
    · exact ⟨hzero, hmagnitude ▸ hzero⟩

/-- Ten o'clock where clocks are two hours ahead. -/
def easternMorning : ZonedDateTime := ⟨⟨⟨2024, 6, 1⟩, ⟨10, 0, 0, 0⟩⟩, 7200⟩

/-- The same instant in universal time. -/
def universalMorning : ZonedDateTime := ⟨⟨⟨2024, 6, 1⟩, ⟨8, 0, 0, 0⟩⟩, 0⟩

theorem encode_eq_iff_morning :
    encodeDateTime earlyLeap ≠ encodeDateTime easternMorning.localTime ∧
    encodeZonedDateTime easternMorning ≠ encodeZonedDateTime universalMorning ∧
    encodeFloat 0x3F800000 ≠ encodeFloat 0xBF800000 := by
  obtain ⟨hdate, hzoned, hfloat⟩ := encode_eq_iff earlyLeap easternMorning.localTime
    easternMorning universalMorning 0x3F800000 0xBF800000
  have hlocal := (hdate (by decide) (by decide)).2 (by decide) (by decide)
  have hinstant := (hzoned (by decide) (by decide)).2 (by decide) (by decide)
  have hone := (hfloat (by decide) (by decide)).1
  refine ⟨fun h => ?_, fun h => ?_, fun h => ?_⟩
  · exact absurd (hlocal.mp h) (by decide)
  · exact absurd (hinstant.mp h).2 (by decide)
  · exact absurd (hone.mp h).2 (by decide)

/-- The same local time where clocks are twenty-nine seconds ahead. -/
def earlierMorning : ZonedDateTime := ⟨universalMorning.localTime, 29⟩

/-- An instant at two offsets and the two zeros are equal values with different texts; a leap second
inside a minute and an offset of less than half a minute are different values with one text. -/
theorem encode_eq_iff_fails :
    (easternMorning.IsRepresentable ∧ universalMorning.IsRepresentable ∧
      easternMorning.universal = universalMorning.universal ∧
      encodeZonedDateTime easternMorning ≠ encodeZonedDateTime universalMorning) ∧
    (isNaN 0x80000000 = false ∧ isNaN 0 = false ∧ signedUnits 0x80000000 = signedUnits 0 ∧
      encodeFloat 0x80000000 ≠ encodeFloat 0) ∧
    (innerLeap.IsRepresentable ∧ innerLeap.asWritten.IsRepresentable ∧
      innerLeap ≠ innerLeap.asWritten ∧
      encodeDateTime innerLeap = encodeDateTime innerLeap.asWritten) ∧
    (earlierMorning.IsRepresentable ∧ earlierMorning.universal ≠ universalMorning.universal ∧
      encodeZonedDateTime earlierMorning = encodeZonedDateTime universalMorning) := by
  decide

end EntityTable.Codec
