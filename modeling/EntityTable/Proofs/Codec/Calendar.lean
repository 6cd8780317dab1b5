import EntityTable.Codec.Calendar
import Mathlib.Order.Monotone.Basic
import Mathlib.Tactic.SplitIfs

/-! # Counting days

The days of the calendar are numbered without gaps: the day after has the next number
(`Date.number_next`) and the day before the previous one, over the ends of months and years and the
twenty-ninth of February. So going on by so many days adds so many to the number
(`Date.number_addDays`) and stays on the calendar, and no two days share a number
(`Date.eq_of_number_eq`). -/

namespace EntityTable.Codec

/-- The days of the first months of a year. -/
def daysOfMonths (year : Int) : Nat → Nat
  | 0 => 0
  | month + 1 => daysOfMonths year month + daysInMonth year (month + 1)

/-- The days between the first of January of the year one and that of another. -/
def daysBeforeYear (year : Int) : Int :=
  365 * (year - 1) + (year - 1) / 4 - (year - 1) / 100 + (year - 1) / 400

theorem daysOfMonths_twelve (year : Int) :
    daysOfMonths year 12 = if isLeapYear year then 366 else 365 := by
  simp only [daysOfMonths, daysInMonth]
  cases isLeapYear year <;> decide

theorem daysBeforeYear_succ (year : Int) :
    daysBeforeYear (year + 1) = daysBeforeYear year + daysOfMonths year 12 := by
  rw [daysOfMonths_twelve]
  unfold daysBeforeYear isLeapYear
  split_ifs with hleap
  · have := of_decide_eq_true hleap
    omega
  · have := of_decide_eq_false (Bool.not_eq_true _ ▸ hleap)
    omega

theorem daysBeforeYear_le {year later : Int} (h : year < later) :
    daysBeforeYear year + daysOfMonths year 12 ≤ daysBeforeYear later := by
  rw [← daysBeforeYear_succ]
  unfold daysBeforeYear
  omega

theorem daysOfMonths_mono (year : Int) : Monotone (daysOfMonths year) :=
  monotone_nat_of_le_succ fun _ => Nat.le_add_right ..

theorem daysInMonth_pos (year : Int) (month : Nat) : 1 ≤ daysInMonth year month := by
  unfold daysInMonth
  split_ifs <;> decide

namespace Date

variable {d : Date}

/-- The date is a day of the calendar, in whatever year. -/
structure IsOnCalendar (d : Date) : Prop where
  one_le_month : 1 ≤ d.month
  month_le : d.month ≤ 12
  one_le_day : 1 ≤ d.day
  day_le : d.day ≤ daysInMonth d.year d.month

instance (d : Date) : Decidable d.IsOnCalendar :=
  decidable_of_iff (1 ≤ d.month ∧ d.month ≤ 12 ∧ 1 ≤ d.day ∧ d.day ≤ daysInMonth d.year d.month)
    ⟨fun ⟨hmonth, hmonth', hday, hday'⟩ => ⟨hmonth, hmonth', hday, hday'⟩,
      fun ⟨hmonth, hmonth', hday, hday'⟩ => ⟨hmonth, hmonth', hday, hday'⟩⟩

theorem isValid_iff :
    d.IsValid ↔ (firstYear ≤ d.year ∧ d.year ≤ lastYear) ∧ d.IsOnCalendar :=
  ⟨fun ⟨hfirst, hlast, hmonth, hmonth', hday, hday'⟩ =>
      ⟨⟨hfirst, hlast⟩, ⟨hmonth, hmonth', hday, hday'⟩⟩,
    fun ⟨hyear, h⟩ => ⟨hyear.1, hyear.2, h.one_le_month, h.month_le, h.one_le_day, h.day_le⟩⟩

theorem IsValid.isOnCalendar (h : d.IsValid) : d.IsOnCalendar := (isValid_iff.mp h).2

/-- The number of a day, by which the first of January of the year one is day one. -/
def number (d : Date) : Int := daysBeforeYear d.year + daysOfMonths d.year (d.month - 1) + d.day

/-! ### One day on and one day back -/

theorem IsOnCalendar.next (h : d.IsOnCalendar) : d.next.IsOnCalendar := by
  obtain ⟨hmonth, hmonth', hday, hday'⟩ := h
  unfold Date.next
  split_ifs with hmore hlater
  · exact ⟨hmonth, hmonth', by show 1 ≤ d.day + 1; omega, hmore⟩
  · exact ⟨by show 1 ≤ d.month + 1; omega, hlater, Nat.le_refl 1, daysInMonth_pos _ _⟩
  · exact ⟨Nat.le_refl 1, (by decide : 1 ≤ 12), Nat.le_refl 1, daysInMonth_pos _ _⟩

theorem number_next (h : d.IsOnCalendar) : d.next.number = d.number + 1 := by
  obtain ⟨hmonth, hmonth', hday, hday'⟩ := h
  unfold Date.next number
  obtain ⟨month, hsucc⟩ : ∃ month, d.month = month + 1 := ⟨d.month - 1, by omega⟩
  rw [hsucc] at hday' hmonth' ⊢
  split_ifs with hmore hlater
  · show daysBeforeYear d.year + daysOfMonths d.year month + ((d.day + 1 : Nat) : Int) = _
    simp only [Nat.add_sub_cancel]
    omega
  · show daysBeforeYear d.year + ((daysOfMonths d.year month + daysInMonth d.year (month + 1) : Nat) :
      Int) + 1 = daysBeforeYear d.year + daysOfMonths d.year month + d.day + 1
    omega
  · obtain rfl : month = 11 := by omega
    have hyear := daysBeforeYear_succ d.year
    have htwelve : daysOfMonths d.year 12 = daysOfMonths d.year 11 + daysInMonth d.year (11 + 1) := rfl
    show daysBeforeYear (d.year + 1) + 0 + 1 =
      daysBeforeYear d.year + daysOfMonths d.year 11 + d.day + 1
    omega

theorem IsOnCalendar.previous (h : d.IsOnCalendar) : d.previous.IsOnCalendar := by
  obtain ⟨hmonth, hmonth', hday, hday'⟩ := h
  unfold Date.previous
  split_ifs with hmore hlater
  · exact ⟨hmonth, hmonth', by show 1 ≤ d.day - 1; omega, Nat.le_trans (Nat.sub_le ..) hday'⟩
  · exact ⟨by show 1 ≤ d.month - 1; omega, by show d.month - 1 ≤ 12; omega, daysInMonth_pos _ _,
      Nat.le_refl _⟩
  · exact ⟨(by decide : 1 ≤ 12), Nat.le_refl 12, (by decide : 1 ≤ 31), Nat.le_refl 31⟩

/-- The day before is the one after which the day is the next. -/
theorem next_previous (h : d.IsOnCalendar) : d.previous.next = d := by
  obtain ⟨hmonth, hmonth', hday, hday'⟩ := h
  obtain ⟨year, month, day⟩ := d
  dsimp only at hmonth hmonth' hday hday'
  unfold Date.previous
  split_ifs with hmore hlater <;> dsimp only at *
  · have hlt : day - 1 < daysInMonth year month := by omega
    simp only [Date.next, if_pos hlt, Nat.sub_add_cancel hday]
  · have hlt : month - 1 < 12 := by omega
    simp only [Date.next, Nat.lt_irrefl, if_false, if_pos hlt, Nat.sub_add_cancel hmonth]
    rw [show day = 1 by omega]
  · have hdecember : daysInMonth (year - 1) 12 = 31 := rfl
    simp only [Date.next, hdecember, Nat.lt_irrefl, if_false, Int.sub_add_cancel]
    rw [show day = 1 by omega, show month = 1 by omega]

theorem number_previous (h : d.IsOnCalendar) : d.previous.number = d.number - 1 := by
  have hnext := number_next h.previous
  rw [next_previous h] at hnext
  omega

/-! ### Many days -/

theorem IsOnCalendar.repeat {step : Date → Date}
    (hstep : ∀ d : Date, d.IsOnCalendar → (step d).IsOnCalendar) (h : d.IsOnCalendar) :
    ∀ n : Nat, (n.repeat step d).IsOnCalendar
  | 0 => h
  | n + 1 => hstep _ (IsOnCalendar.repeat hstep h n)

theorem IsOnCalendar.addDays (h : d.IsOnCalendar) (days : Int) : (d.addDays days).IsOnCalendar := by
  cases days with
  | ofNat n => exact h.repeat (fun _ hd => hd.next) n
  | negSucc n => exact h.repeat (fun _ hd => hd.previous) (n + 1)

/-- **Going on by so many days adds so many to the number**, back if they are negative. -/
theorem number_addDays (h : d.IsOnCalendar) (days : Int) :
    (d.addDays days).number = d.number + days := by
  cases days with
  | ofNat n =>
    show (n.repeat Date.next d).number = d.number + n
    induction n with
    | zero => exact (Int.add_zero _).symm
    | succ n ih =>
      show (n.repeat Date.next d).next.number = _
      rw [number_next (h.repeat (fun _ hd => hd.next) n), ih]
      omega
  | negSucc n =>
    show ((n + 1).repeat Date.previous d).number = d.number + Int.negSucc n
    induction n with
    | zero =>
      show d.previous.number = _
      rw [number_previous h]
      rfl
    | succ n ih =>
      show ((n + 1).repeat Date.previous d).previous.number = _
      rw [number_previous (h.repeat (fun _ hd => hd.previous) (n + 1)), ih]
      omega

/-! ### Days with one number -/

/-- The days of a year have the numbers from the first of January to the next. -/
theorem IsOnCalendar.number_le (h : d.IsOnCalendar) :
    daysBeforeYear d.year < d.number ∧ d.number ≤ daysBeforeYear d.year + daysOfMonths d.year 12 := by
  obtain ⟨hmonth, hmonth', hday, hday'⟩ := h
  have hmonths : daysOfMonths d.year (d.month - 1) + daysInMonth d.year d.month ≤
      daysOfMonths d.year 12 := by
    obtain ⟨month, hsucc⟩ : ∃ month, d.month = month + 1 := ⟨d.month - 1, by omega⟩
    rw [hsucc] at hmonth' ⊢
    exact daysOfMonths_mono d.year hmonth'
  unfold number
  omega

/-- Within a year the later month has the greater numbers. -/
theorem not_month_lt {e : Date} (hd : d.IsOnCalendar) (he : e.IsOnCalendar)
    (hyear : d.year = e.year) (h : d.number = e.number) : ¬ d.month < e.month := by
  intro hlt
  have hday := hd.day_le
  have hmonths : daysOfMonths d.year (d.month - 1) + daysInMonth d.year d.month ≤
      daysOfMonths d.year (e.month - 1) := by
    obtain ⟨month, hsucc⟩ : ∃ month, d.month = month + 1 := ⟨d.month - 1, by have := hd.1; omega⟩
    rw [hsucc] at hlt ⊢
    exact daysOfMonths_mono d.year (Nat.le_sub_one_of_lt hlt)
  have hone := he.one_le_day
  unfold number at h
  rw [← hyear] at h
  omega

/-- **No two days of the calendar have one number.** -/
theorem eq_of_number_eq {e : Date} (hd : d.IsOnCalendar) (he : e.IsOnCalendar)
    (h : d.number = e.number) : d = e := by
  have hyear : d.year = e.year := by
    have hdlt := hd.number_le
    have helt := he.number_le
    rcases Int.lt_trichotomy d.year e.year with hlt | heq | hgt
    · have := daysBeforeYear_le hlt
      omega
    · exact heq
    · have := daysBeforeYear_le hgt
      omega
  have hmonth : d.month = e.month :=
    Nat.le_antisymm (Nat.le_of_not_lt (not_month_lt he hd hyear.symm h.symm))
      (Nat.le_of_not_lt (not_month_lt hd he hyear h))
  have hday : d.day = e.day := by
    unfold number at h
    rw [hyear, hmonth] at h
    omega
  obtain ⟨year, month, day⟩ := d
  cases hyear
  cases hmonth
  cases hday
  rfl

/-- One day on or back is in the same year or in one next to it. -/
theorem year_addDays (d : Date) {days : Int} (hlow : -1 ≤ days) (hhigh : days ≤ 1) :
    d.year - 1 ≤ (d.addDays days).year ∧ (d.addDays days).year ≤ d.year + 1 := by
  obtain rfl | rfl | rfl : days = -1 ∨ days = 0 ∨ days = 1 := by omega
  · show d.year - 1 ≤ d.previous.year ∧ d.previous.year ≤ d.year + 1
    unfold Date.previous
    split_ifs <;> dsimp only <;> omega
  · show d.year - 1 ≤ d.year ∧ d.year ≤ d.year + 1
    omega
  · show d.year - 1 ≤ d.next.year ∧ d.next.year ≤ d.year + 1
    unfold Date.next
    split_ifs <;> dsimp only <;> omega

end Date

end EntityTable.Codec
