import EntityTable.Codec.FloatFormat
import Mathlib.Data.Rat.Cast.Order
import Mathlib.Order.Monotone.Basic
import Mathlib.Tactic.Linarith
import Mathlib.Tactic.Positivity
import Mathlib.Tactic.Ring

/-! # Rounding to a format

Within a binade the patterns count the steps of that binade (`units_eq`), and patterns are in the
order of the numbers they denote (`units_strictMono`). A pattern is closest to a number if the number
lies between the middles to the two neighbours, and on a middle only if the pattern is even
(`IsClosest`). Such patterns are in the order of the numbers (`IsClosest.le_of_le`), so a number has
one at most, and rounding finds it (`nearest_eq_iff`). -/

namespace EntityTable.Codec.FloatFormat

variable {f : FloatFormat} {p q : Nat} {x : ℚ}

/-! ### Patterns and numbers -/

/-- The pattern of so many steps of a binade; the last of them may be the first of the next. -/
theorem units_eq {exponent steps : Nat} (hlow : exponent = 0 ∨ 2 ^ f.fractionBits ≤ steps)
    (hhigh : steps ≤ 2 ^ (f.fractionBits + 1)) :
    f.units (exponent * 2 ^ f.fractionBits + steps) = steps * 2 ^ exponent := by
  have hpow : 0 < 2 ^ f.fractionBits := Nat.two_pow_pos _
  rw [Nat.pow_succ] at hhigh
  unfold units
  simp only [Nat.pow_eq]
  generalize 2 ^ f.fractionBits = width at *
  by_cases hsub : steps < width
  · obtain rfl : exponent = 0 := by omega
    rw [Nat.zero_mul, Nat.zero_add, Nat.div_eq_of_lt hsub, Nat.mod_eq_of_lt hsub, pow_zero,
      Nat.mul_one]
  · by_cases hlast : steps = width * 2
    · have hpattern : exponent * width + steps = (exponent + 1 + 1) * width := by
        rw [hlast]
        ring
      rw [hpattern, Nat.mul_div_cancel _ hpow, Nat.mul_mod_left, hlast]
      show (width + 0) * 2 ^ (exponent + 1) = width * 2 * 2 ^ exponent
      rw [Nat.pow_succ]
      ring
    · obtain ⟨fraction, rfl⟩ : ∃ fraction, steps = width + fraction := ⟨steps - width, by omega⟩
      have hfraction : fraction < width := by omega
      have hpattern : exponent * width + (width + fraction) = fraction + (exponent + 1) * width := by
        ring
      rw [hpattern, Nat.add_mul_div_right _ _ hpow, Nat.div_eq_of_lt hfraction, Nat.zero_add,
        Nat.add_mul_mod_self_right, Nat.mod_eq_of_lt hfraction]

/-- The pattern after that denotes one step more. -/
theorem units_succ_eq {exponent steps : Nat} (hlow : exponent = 0 ∨ 2 ^ f.fractionBits ≤ steps)
    (hhigh : steps < 2 ^ (f.fractionBits + 1)) :
    f.units (exponent * 2 ^ f.fractionBits + steps + 1) = (steps + 1) * 2 ^ exponent :=
  units_eq (hlow.imp_right (Nat.le_succ_of_le ·)) (Nat.succ_le_of_lt hhigh)

/-- Every pattern has a place in a binade, and the one after it is in the same. -/
theorem exists_binade (f : FloatFormat) (p : Nat) : ∃ exponent steps,
    p = exponent * 2 ^ f.fractionBits + steps ∧
    (exponent = 0 ∨ 2 ^ f.fractionBits ≤ steps) ∧ steps < 2 ^ (f.fractionBits + 1) := by
  have hpow : 0 < 2 ^ f.fractionBits := Nat.two_pow_pos _
  have hdiv := Nat.div_add_mod' p (2 ^ f.fractionBits)
  have hmod := Nat.mod_lt p hpow
  rw [Nat.pow_succ]
  generalize 2 ^ f.fractionBits = width at *
  generalize p % width = fraction at *
  cases hexponent : p / width with
  | zero =>
    rw [hexponent, Nat.zero_mul] at hdiv
    exact ⟨0, p, by omega, .inl rfl, by omega⟩
  | succ exponent =>
    rw [hexponent, Nat.succ_mul] at hdiv
    exact ⟨exponent, width + fraction, by omega, .inr (by omega), by omega⟩

theorem units_strictMono (f : FloatFormat) : StrictMono f.units := by
  refine strictMono_nat_of_lt_succ fun p => ?_
  obtain ⟨exponent, steps, rfl, hlow, hhigh⟩ := exists_binade f p
  rw [units_succ_eq hlow hhigh, units_eq hlow hhigh.le]
  exact Nat.mul_lt_mul_of_pos_right (Nat.lt_succ_self steps) (Nat.two_pow_pos _)

theorem units_lt (h : p < q) : (f.units p : ℚ) < f.units q := Nat.cast_lt.mpr (units_strictMono f h)

theorem units_le (h : p ≤ q) : (f.units p : ℚ) ≤ f.units q :=
  Nat.cast_le.mpr ((units_strictMono f).monotone h)

@[simp] theorem units_zero (f : FloatFormat) : f.units 0 = 0 := by
  simp [units]

/-! ### The closest pattern -/

/-- The pattern is closest to a number of units: the number lies between the middles to the two
neighbours of the pattern, and on a middle only if the pattern is even. -/
structure IsClosest (f : FloatFormat) (x : ℚ) (p : Nat) : Prop where
  low_le : (f.units (p - 1) + f.units p : ℚ) ≤ 2 * x
  le_high : 2 * x ≤ f.units p + f.units (p + 1)
  off_middle : p % 2 = 1 →
    (f.units (p - 1) + f.units p : ℚ) ≠ 2 * x ∧ 2 * x ≠ f.units p + f.units (p + 1)

theorem isClosest_iff_of_even (heven : p % 2 = 0) :
    f.IsClosest x p ↔ (f.units (p - 1) + f.units p : ℚ) ≤ 2 * x ∧
      2 * x ≤ f.units p + f.units (p + 1) := by
  refine ⟨fun h => ⟨h.low_le, h.le_high⟩, fun ⟨hlow, hhigh⟩ => ⟨hlow, hhigh, fun hodd => ?_⟩⟩
  rw [heven] at hodd
  cases hodd

theorem isClosest_iff_of_odd (hodd : p % 2 = 1) :
    f.IsClosest x p ↔ (f.units (p - 1) + f.units p : ℚ) < 2 * x ∧
      2 * x < f.units p + f.units (p + 1) := by
  refine ⟨fun h => ?_, fun ⟨hlow, hhigh⟩ => ⟨hlow.le, hhigh.le, fun _ => ⟨hlow.ne, hhigh.ne⟩⟩⟩
  obtain ⟨hlow, hhigh⟩ := h.off_middle hodd
  exact ⟨h.low_le.lt_of_ne hlow, h.le_high.lt_of_ne hhigh⟩

/-- The pattern closest to a number is not below the one closest to a lesser number. -/
theorem IsClosest.le_of_le {y : ℚ} (hp : f.IsClosest x p) (hq : f.IsClosest y q) (hxy : x ≤ y) :
    p ≤ q := by
  by_contra hlt
  rcases Nat.lt_or_ge (q + 1) p with hfar | hnear
  · -- Two patterns further apart have a third between them.
    have hlow := hp.low_le
    have hhigh := hq.le_high
    have hbetween : (f.units (q + 1) : ℚ) ≤ f.units (p - 1) := units_le (by omega)
    have hbelow : (f.units q : ℚ) < f.units (q + 1) := units_lt (Nat.lt_succ_self q)
    have habove : (f.units (q + 1) : ℚ) < f.units p := units_lt hfar
    linarith
  · -- Of two neighbours one is odd, and both numbers lie in their middle.
    obtain rfl : p = q + 1 := by omega
    have hlow := hp.low_le
    have hhigh := hq.le_high
    rw [Nat.add_sub_cancel] at hlow
    rcases Nat.mod_two_eq_zero_or_one q with heven | hodd
    · have hmiddle := (hp.off_middle (by omega)).1
      rw [Nat.add_sub_cancel] at hmiddle
      exact hmiddle (le_antisymm hlow (by linarith))
    · exact (hq.off_middle hodd).2 (le_antisymm hhigh (by linarith))

/-- **One pattern at most is closest to a number.** -/
theorem IsClosest.unique (hp : f.IsClosest x p) (hq : f.IsClosest x q) : p = q :=
  Nat.le_antisymm (hp.le_of_le hq le_rfl) (hq.le_of_le hp le_rfl)

/-- No pattern denotes a number at a lesser distance than the closest one. -/
theorem IsClosest.abs_sub_le (hp : f.IsClosest x p) (q : Nat) :
    |x - f.units p| ≤ |x - f.units q| := by
  have hlow := hp.low_le
  have hhigh := hp.le_high
  rcases Nat.lt_trichotomy q p with hlt | rfl | hgt
  · have hbelow : (f.units q : ℚ) ≤ f.units (p - 1) := units_le (by omega)
    have hle : (f.units q : ℚ) ≤ f.units p := units_le hlt.le
    exact le_trans (abs_le.mpr ⟨by linarith, by linarith⟩) (le_abs_self _)
  · exact le_rfl
  · have habove : (f.units (p + 1) : ℚ) ≤ f.units q := units_le hgt
    have hle : (f.units p : ℚ) ≤ f.units q := units_le hgt.le
    exact le_trans (abs_le.mpr ⟨by linarith, by linarith⟩) (neg_le_abs _)

/-- The lower of two neighbours is closest up to their middle. -/
theorem isClosest_of_le (hlow : (f.units p : ℚ) ≤ x)
    (hhigh : 2 * x ≤ f.units p + f.units (p + 1))
    (hmiddle : 2 * x = f.units p + f.units (p + 1) → p % 2 = 0) : f.IsClosest x p where
  low_le := by
    have hle : (f.units (p - 1) : ℚ) ≤ f.units p := units_le (Nat.sub_le p 1)
    linarith
  le_high := hhigh
  off_middle := fun hodd => by
    have hlt : (f.units (p - 1) : ℚ) < f.units p := units_lt (by omega)
    refine ⟨by intro h; linarith, fun h => ?_⟩
    rw [hmiddle h] at hodd
    cases hodd

/-- The upper of two neighbours is closest from their middle on. -/
theorem isClosest_of_ge (hlow : (f.units p + f.units (p + 1) : ℚ) ≤ 2 * x)
    (hhigh : x ≤ f.units (p + 1))
    (hmiddle : 2 * x = f.units p + f.units (p + 1) → p % 2 = 1) : f.IsClosest x (p + 1) where
  low_le := by rwa [Nat.add_sub_cancel]
  le_high := by
    have hlt : (f.units (p + 1) : ℚ) < f.units (p + 1 + 1) := units_lt (Nat.lt_succ_self _)
    linarith
  off_middle := fun hodd => by
    have hlt : (f.units (p + 1) : ℚ) < f.units (p + 1 + 1) := units_lt (Nat.lt_succ_self _)
    rw [Nat.add_sub_cancel]
    refine ⟨fun h => ?_, by intro h; linarith⟩
    have := hmiddle h.symm
    omega

/-! ### Numbers of the format, and numbers out of its range -/

/-- A number of the format is closest to itself. -/
theorem isClosest_units (f : FloatFormat) (p : Nat) : f.IsClosest (f.units p) p := by
  have hlt : (f.units p : ℚ) < f.units (p + 1) := units_lt (Nat.lt_succ_self p)
  refine isClosest_of_le le_rfl (by linarith) fun h => ?_
  linarith

/-- Infinity stands for a power of two. -/
theorem units_infinity (he : 2 ≤ f.exponentBits) :
    f.units f.infinity = 2 ^ 2 ^ (f.exponentBits - 1) * 2 ^ f.scale := by
  obtain ⟨n, hn⟩ : ∃ n, f.exponentBits = n + 1 := ⟨f.exponentBits - 1, by omega⟩
  have hlarge : 2 ≤ 2 ^ n := Nat.le_self_pow (by omega) 2
  have hinfinity : f.infinity = (2 ^ f.exponentBits - 2) * 2 ^ f.fractionBits + 2 ^ f.fractionBits := by
    unfold infinity
    simp only [Nat.pow_eq]
    rw [← Nat.succ_mul]
    congr 1
    rw [hn, Nat.pow_succ]
    omega
  rw [hinfinity, units_eq (.inr le_rfl) (Nat.pow_le_pow_right (by decide) (Nat.le_succ _)),
    ← Nat.pow_add, ← Nat.pow_add]
  congr 1
  unfold scale
  simp only [Nat.pow_eq]
  rw [hn, Nat.pow_succ, Nat.add_sub_cancel]
  omega

theorem isClosest_zero {x : ℚ} (hnonneg : 0 ≤ x) (hsmall : 2 * x < 1) : f.IsClosest x 0 := by
  have hone : (1 : ℚ) ≤ f.units 1 := by
    have := units_strictMono f Nat.zero_lt_one
    exact_mod_cast Nat.succ_le_of_lt (Nat.zero_lt_of_lt this)
  refine isClosest_of_le ?_ ?_ fun _ => rfl
  · rwa [units_zero, Nat.cast_zero]
  · rw [units_zero, Nat.cast_zero]
    linarith

theorem not_isClosest_of_large {x : ℚ} (hlarge : (f.units f.infinity : ℚ) < x)
    (hp : p < f.infinity) : ¬ f.IsClosest x p := by
  intro h
  have hhigh := h.le_high
  have hle : (f.units p : ℚ) ≤ f.units f.infinity := units_le hp.le
  have hnext : (f.units (p + 1) : ℚ) ≤ f.units f.infinity := units_le hp
  linarith

/-! ### Rounding a quotient -/

/-- Rounding a quotient of two numbers: the quotient is that of the steps below it and a part of a
step, which decides between them and one step more. -/
theorem roundQuotient_spec (a b : Nat) :
    (roundQuotient a b = a / b ∧ 2 * a ≤ (2 * (a / b) + 1) * b ∧
      (2 * a = (2 * (a / b) + 1) * b → a / b % 2 = 0)) ∨
    (roundQuotient a b = a / b + 1 ∧ (2 * (a / b) + 1) * b ≤ 2 * a ∧
      (2 * a = (2 * (a / b) + 1) * b → a / b % 2 = 1)) := by
  have hdiv := Nat.div_add_mod' a b
  have hsplit : (2 * (a / b) + 1) * b = 2 * (a / b * b) + b := by ring
  rw [hsplit]
  unfold roundQuotient
  dsimp only
  generalize a / b * b = floor at *
  generalize a / b = below at *
  generalize a % b = left at *
  split_ifs with h
  · exact .inl ⟨rfl, by omega, by omega⟩
  · exact .inr ⟨rfl, by omega, by omega⟩

/-- The binade of a quotient: it lies at a number of steps that has a pattern there. -/
theorem exists_steps (f : FloatFormat) (a b : Nat) :
    ∃ exponent, exponent = Nat.log2 (a / b) - f.fractionBits ∧
      (exponent = 0 ∨ 2 ^ f.fractionBits ≤ a / (b * 2 ^ exponent)) ∧
      a / (b * 2 ^ exponent) < 2 ^ (f.fractionBits + 1) := by
  refine ⟨_, rfl, ?_⟩
  set exponent := Nat.log2 (a / b) - f.fractionBits with hexponent
  rw [← Nat.div_div_eq_div_mul]
  constructor
  · rcases Nat.eq_zero_or_pos exponent with hzero | hpos
    · exact .inl hzero
    · refine .inr ((Nat.le_div_iff_mul_le (Nat.two_pow_pos _)).mpr ?_)
      have hsum : f.fractionBits + exponent = Nat.log2 (a / b) := by omega
      have hne : a / b ≠ 0 := by
        intro h
        rw [h] at hexponent
        simp at hexponent
        omega
      rw [← Nat.pow_add, hsum]
      exact Nat.log2_self_le hne
  · refine (Nat.div_lt_iff_lt_mul (Nat.two_pow_pos _)).mpr ?_
    rw [← Nat.pow_add]
    refine lt_of_lt_of_le Nat.lt_log2_self (Nat.pow_le_pow_right (by decide) ?_)
    omega

/-- A pattern is even if it stands at an even number of steps. -/
theorem pattern_mod_two (hf : 0 < f.fractionBits) (exponent steps : Nat) :
    (exponent * 2 ^ f.fractionBits + steps) % 2 = steps % 2 := by
  obtain ⟨n, hn⟩ := Nat.exists_eq_succ_of_ne_zero hf.ne'
  rw [hn, Nat.pow_succ, ← Nat.mul_assoc, Nat.mul_add_mod_self_right]

section Quotient

variable {a b : Nat} (hb : 0 < b)
include hb

theorem le_quotient_iff (a n exponent : Nat) :
    (n * 2 ^ exponent : ℚ) ≤ a / b ↔ n * (b * 2 ^ exponent) ≤ a := by
  rw [le_div_iff₀ (Nat.cast_pos.mpr hb), ← Nat.cast_le (α := ℚ)]
  push_cast
  rw [mul_assoc, mul_comm (2 ^ exponent : ℚ)]

theorem quotient_le_iff (a n exponent : Nat) :
    (a / b : ℚ) ≤ n * 2 ^ exponent ↔ a ≤ n * (b * 2 ^ exponent) := by
  rw [div_le_iff₀ (Nat.cast_pos.mpr hb), ← Nat.cast_le (α := ℚ)]
  push_cast
  rw [mul_assoc (n : ℚ), mul_comm (2 ^ exponent : ℚ)]

/-- In the binade of a quotient the closest pattern is the one of its rounded steps. -/
theorem isClosest_roundQuotient (hf : 0 < f.fractionBits) {exponent : Nat}
    (hlow : exponent = 0 ∨ 2 ^ f.fractionBits ≤ a / (b * 2 ^ exponent))
    (hhigh : a / (b * 2 ^ exponent) < 2 ^ (f.fractionBits + 1)) :
    f.IsClosest (a / b)
      (exponent * 2 ^ f.fractionBits + roundQuotient a (b * 2 ^ exponent)) := by
  have hspec := roundQuotient_spec a (b * 2 ^ exponent)
  have hfloor := Nat.div_mul_le_self a (b * 2 ^ exponent)
  have hceil := Nat.lt_mul_of_div_lt (Nat.lt_succ_self (a / (b * 2 ^ exponent)))
    (Nat.mul_pos hb (Nat.two_pow_pos exponent))
  have hunits := units_eq hlow hhigh.le
  have hunits' := units_succ_eq hlow hhigh
  have hparity := pattern_mod_two hf exponent (a / (b * 2 ^ exponent))
  generalize a / (b * 2 ^ exponent) = steps at *
  generalize hpattern : exponent * 2 ^ f.fractionBits + steps = p at *
  have hmiddle : (f.units p + f.units (p + 1) : ℚ) = (2 * steps + 1 : Nat) * 2 ^ exponent := by
    rw [hunits, hunits']
    push_cast
    ring
  have hdouble : (2 * (a / b) : ℚ) = (2 * a : Nat) / b := by
    rw [Nat.cast_mul, Nat.cast_ofNat, mul_div_assoc]
  have htie (h : (2 * (a / b) : ℚ) = f.units p + f.units (p + 1)) :
      2 * a = (2 * steps + 1) * (b * 2 ^ exponent) := by
    rw [hmiddle, hdouble] at h
    exact Nat.le_antisymm ((quotient_le_iff hb ..).mp h.le) ((le_quotient_iff hb ..).mp h.ge)
  rcases hspec with ⟨hround, hbelow, heq⟩ | ⟨hround, habove, heq⟩
  · rw [hround, hpattern]
    refine isClosest_of_le ?_ ?_ fun h => hparity.trans (heq (htie h))
    · rw [hunits]
      exact_mod_cast (le_quotient_iff hb ..).mpr hfloor
    · rw [hmiddle, hdouble, quotient_le_iff hb]
      exact hbelow
  · rw [hround, ← Nat.add_assoc, hpattern]
    refine isClosest_of_ge ?_ ?_ fun h => hparity.trans (heq (htie h))
    · rw [hmiddle, hdouble, le_quotient_iff hb]
      exact habove
    · rw [hunits']
      exact_mod_cast (quotient_le_iff hb ..).mpr hceil.le

/-- **Rounding finds the closest pattern.** -/
theorem isClosest_nearest (hf : 0 < f.fractionBits) : f.IsClosest (a / b) (f.nearest a b) := by
  obtain ⟨exponent, rfl, hlow, hhigh⟩ := exists_steps f a b
  exact isClosest_roundQuotient hb hf hlow hhigh

theorem nearest_eq_iff (hf : 0 < f.fractionBits) : f.nearest a b = p ↔ f.IsClosest (a / b) p :=
  ⟨fun h => h ▸ isClosest_nearest hb hf, (isClosest_nearest hb hf).unique⟩

end Quotient

end EntityTable.Codec.FloatFormat
