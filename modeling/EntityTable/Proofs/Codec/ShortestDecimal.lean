import EntityTable.Proofs.Codec.Decimal

/-! # The decimals that are written

The decimal that is written for a pattern lies in the rounding interval of the pattern
(`isClosest_shortestDecimal`), so it is rounded back to it (`round_shortestDecimal`). None that is
rounded to the pattern has fewer digits (`length_shortestDecimal_le`), and none with its last digit in
the same place lies nearer (`abs_shortestDecimal_sub_le`). -/

namespace EntityTable.Codec

open FloatFormat

variable {f : FloatFormat} {p : Nat} {d : Decimal}

/-! ### Points of the interval -/

namespace RoundingInterval

variable {i : RoundingInterval} {tie : TieRule}

theorem pow_mul_le_iff (scale n x : Nat) :
    5 ^ scale * n ≤ 2 * x ↔ (n : ℚ) ≤ 2 * (x / 5 ^ scale) := by
  rw [← mul_div_assoc, le_div_iff₀ (by positivity), mul_comm, ← Nat.cast_le (α := ℚ)]
  push_cast
  rfl

theorem le_pow_mul_iff (scale n x : Nat) :
    2 * x ≤ 5 ^ scale * n ↔ 2 * (x / 5 ^ scale : ℚ) ≤ n := by
  rw [← mul_div_assoc, div_le_iff₀ (by positivity), mul_comm (5 ^ scale), ← Nat.cast_le (α := ℚ)]
  push_cast
  rfl

/-- The interval of a pattern holds the numbers to which the pattern is closest. -/
theorem contains_ofPattern (f : FloatFormat) (p x : Nat) :
    (ofPattern f p).contains (2 * x) = true ↔ f.IsClosest (x / 5 ^ f.scale) p := by
  unfold contains
  split_ifs with hclosed
  · have heven : p % 2 = 0 := of_decide_eq_true hclosed
    rw [decide_eq_true_eq, isClosest_iff_of_even heven]
    refine and_congr ((pow_mul_le_iff ..).trans ?_) ((le_pow_mul_iff ..).trans ?_)
    · rw [Nat.cast_add]
    · rw [Nat.cast_add]
  · have hodd : p % 2 = 1 := by
      have := of_decide_eq_false (Bool.eq_false_iff.mpr hclosed)
      omega
    rw [decide_eq_true_eq, isClosest_iff_of_odd hodd]
    refine and_congr ((lt_iff_lt_of_le_iff_le (le_pow_mul_iff ..)).trans ?_)
      ((lt_iff_lt_of_le_iff_le (pow_mul_le_iff ..)).trans ?_)
    · rw [Nat.cast_add]
    · rw [Nat.cast_add]

/-- What lies between two numbers of the interval is one. -/
theorem contains_of_le {x y z : Nat} (hx : i.contains x = true) (hz : i.contains z = true)
    (hxy : x ≤ y) (hyz : y ≤ z) : i.contains y = true := by
  unfold contains at *
  split at hx
  · rename_i hclosed
    rw [if_pos hclosed] at hz ⊢
    rw [decide_eq_true_eq] at *
    omega
  · rename_i hopen
    rw [if_neg hopen] at hz ⊢
    rw [decide_eq_true_eq] at *
    omega

/-! ### Points of a grid -/

/-- A point that is taken from a grid lies in the interval, and it is the one below the value or the
one above. The other of these is not nearer, or it lies outside. -/
theorem gridPoint?_eq_some {step point : Nat} (h : i.gridPoint? tie step = some point) :
    i.contains (point * step) = true ∧
    ((point = i.value / step ∧
        (2 * (i.value % step) ≤ step ∨ i.contains ((i.value / step + 1) * step) = false)) ∨
      (point = i.value / step + 1 ∧
        (step ≤ 2 * (i.value % step) ∨ i.contains (i.value / step * step) = false))) := by
  unfold gridPoint? at h
  dsimp only at h
  split at h
  · rename_i hbelow habove
    split at h
    · cases h
      exact ⟨hbelow, .inl ⟨rfl, .inl (by omega)⟩⟩
    · split at h
      · cases h
        exact ⟨habove, .inr ⟨rfl, .inl (by omega)⟩⟩
      · cases tie with
        | upper =>
          cases h
          exact ⟨habove, .inr ⟨rfl, .inl (by omega)⟩⟩
        | even =>
          cases h
          rcases Nat.mod_two_eq_zero_or_one (i.value / step) with heven | hodd
          · rw [heven]
            exact ⟨hbelow, .inl ⟨rfl, .inl (by omega)⟩⟩
          · rw [hodd]
            exact ⟨habove, .inr ⟨rfl, .inl (by omega)⟩⟩
  · rename_i hbelow habove
    cases h
    exact ⟨hbelow, .inl ⟨rfl, .inr habove⟩⟩
  · rename_i hbelow habove
    cases h
    exact ⟨habove, .inr ⟨rfl, .inr hbelow⟩⟩
  · cases h

theorem gridPoint?_eq_none {step : Nat} (h : i.gridPoint? tie step = none) :
    i.contains (i.value / step * step) = false ∧
      i.contains ((i.value / step + 1) * step) = false := by
  unfold gridPoint? at h
  dsimp only at h
  split at h
  · split at h
    · cases h
    · split at h
      · cases h
      · cases tie <;> cases h
  · cases h
  · cases h
  · rename_i hbelow habove
    exact ⟨hbelow, habove⟩

/-- The point that is found lies in the interval, if the value itself does. -/
theorem contains_coarsest (tie : TieRule) (hvalue : i.contains i.value = true)
    (heven : 2 ∣ i.value) : ∀ grid,
      i.contains ((i.coarsest tie grid).1 * (2 * 10 ^ (i.coarsest tie grid).2)) = true
  | 0 => by
    show i.contains (i.value / 2 * (2 * 10 ^ 0)) = true
    rwa [pow_zero, Nat.mul_one, Nat.div_mul_cancel heven]
  | grid + 1 => by
    rw [coarsest]
    split
    · rename_i h
      exact (gridPoint?_eq_some h).1
    · exact contains_coarsest tie hvalue heven grid

/-- If a point of a grid lies in the interval, so does the one next to the value on its side. -/
theorem contains_around {step point : Nat} (hvalue : i.contains i.value = true) (hstep : 0 < step)
    (h : i.contains (point * step) = true) :
    (point * step ≤ i.value / step * step ∧ i.contains (i.value / step * step) = true) ∨
    ((i.value / step + 1) * step ≤ point * step ∧
      i.contains ((i.value / step + 1) * step) = true) := by
  have hfloor := Nat.div_mul_le_self i.value step
  have hceil := Nat.lt_mul_of_div_lt (Nat.lt_succ_self (i.value / step)) hstep
  rcases Nat.lt_or_ge (i.value / step) point with habove | hbelow
  · have hle : (i.value / step + 1) * step ≤ point * step := Nat.mul_le_mul_right _ habove
    exact .inr ⟨hle, contains_of_le hvalue h hceil.le hle⟩
  · have hle : point * step ≤ i.value / step * step := Nat.mul_le_mul_right _ hbelow
    exact .inl ⟨hle, contains_of_le h hvalue hle hfloor⟩

/-- If neither of the points around the value lies in the interval, no point of the grid does. -/
theorem not_contains_of_gridPoint? {step point : Nat} (hvalue : i.contains i.value = true)
    (hstep : 0 < step) (h : i.gridPoint? tie step = none) : i.contains (point * step) = false := by
  obtain ⟨hnobelow, hnoabove⟩ := gridPoint?_eq_none h
  by_contra hpoint
  rw [Bool.not_eq_false] at hpoint
  rcases contains_around hvalue hstep hpoint with ⟨-, hbelow⟩ | ⟨-, habove⟩
  · rw [hbelow] at hnobelow
    cases hnobelow
  · rw [habove] at hnoabove
    cases hnoabove

/-- Of the points of a grid that lie in the interval the one that is taken is nearest to the value. -/
theorem natAbs_gridPoint?_le {step point other : Nat} (hvalue : i.contains i.value = true)
    (hstep : 0 < step) (h : i.gridPoint? tie step = some point)
    (hother : i.contains (other * step) = true) :
    ((point * step : Nat) - i.value : Int).natAbs ≤
      ((other * step : Nat) - i.value : Int).natAbs := by
  have hrest := Nat.mod_lt i.value hstep
  have hfloor := Nat.div_add_mod' i.value step
  have hceil : (i.value / step + 1) * step = i.value / step * step + step := Nat.succ_mul ..
  have hbeyond := contains_around hvalue hstep hother
  obtain ⟨-, ⟨rfl, hhalf | hout⟩ | ⟨rfl, hhalf | hout⟩⟩ := gridPoint?_eq_some h
  · omega
  · rw [hout] at hbeyond
    have hbelow := hbeyond.resolve_right fun habove => Bool.false_ne_true habove.2
    omega
  · omega
  · rw [hout] at hbeyond
    have habove := hbeyond.resolve_left fun hbelow => Bool.false_ne_true hbelow.2
    omega

/-- The point that is found is nearest to the value among those of its grid. -/
theorem natAbs_coarsest_le (tie : TieRule) (hvalue : i.contains i.value = true)
    (heven : 2 ∣ i.value) {other : Nat} : ∀ grid,
      i.contains (other * (2 * 10 ^ (i.coarsest tie grid).2)) = true →
      (((i.coarsest tie grid).1 * (2 * 10 ^ (i.coarsest tie grid).2) : Nat) - i.value : Int).natAbs ≤
        ((other * (2 * 10 ^ (i.coarsest tie grid).2) : Nat) - i.value : Int).natAbs
  | 0 => by
    intro _
    show ((i.value / 2 * (2 * 10 ^ 0) : Nat) - i.value : Int).natAbs ≤ _
    rw [pow_zero, Nat.mul_one, Nat.div_mul_cancel heven, sub_self]
    exact Nat.zero_le _
  | grid + 1 => by
    intro hother
    rw [coarsest] at hother ⊢
    split at hother
    · rename_i h
      exact natAbs_gridPoint?_le hvalue (by positivity) h hother
    · exact natAbs_coarsest_le tie hvalue heven grid hother

/-- No coarser grid than the one that is found has a point in the interval. -/
theorem not_contains_of_coarsest (tie : TieRule) (hvalue : i.contains i.value = true)
    {finer point : Nat} : ∀ grid, (i.coarsest tie grid).2 < finer → finer ≤ grid →
      i.contains (point * (2 * 10 ^ finer)) = false
  | 0, hlt, hle => by omega
  | grid + 1, hlt, hle => by
    rw [coarsest] at hlt
    split at hlt
    · exact absurd hle (Nat.not_le_of_lt hlt)
    · rename_i hnone
      rcases hle.lt_or_eq with hfiner | rfl
      · exact not_contains_of_coarsest tie hvalue grid hlt (Nat.le_of_lt_succ hfiner)
      · exact not_contains_of_gridPoint? hvalue (by positivity) hnone

end RoundingInterval

/-! ### Points as decimals -/

/-- A point of a grid as a decimal. -/
theorem Decimal.value_gridPoint (point grid scale : Nat) :
    (⟨point, grid - scale⟩ : Decimal).value * 2 ^ scale =
      (point * 10 ^ grid : Nat) / (5 : ℚ) ^ scale := by
  have hten : (10 : ℚ) ^ scale = 5 ^ scale * 2 ^ scale := by rw [← mul_pow]; norm_num
  rw [Decimal.value, zpow_sub₀ (by norm_num), zpow_natCast, zpow_natCast, hten]
  push_cast
  field_simp

theorem RoundingInterval.two_dvd_value (f : FloatFormat) (p : Nat) : 2 ∣ (ofPattern f p).value :=
  ⟨5 ^ f.scale * f.units p, Nat.mul_left_comm ..⟩

theorem RoundingInterval.contains_value (f : FloatFormat) (p : Nat) :
    (ofPattern f p).contains (ofPattern f p).value = true := by
  have hself : (ofPattern f p).value = 2 * (5 ^ f.scale * f.units p) := Nat.mul_left_comm ..
  rw [hself, contains_ofPattern]
  push_cast
  rw [mul_div_cancel_left₀ _ (by positivity)]
  exact f.isClosest_units p

/-- A point of a grid lies in the interval of a pattern if the pattern is closest to it. -/
theorem RoundingInterval.contains_gridPoint_iff (f : FloatFormat) (p point grid : Nat) :
    (ofPattern f p).contains (point * (2 * 10 ^ grid)) = true ↔
      f.IsClosest ((⟨point, grid - f.scale⟩ : Decimal).value * 2 ^ f.scale) p := by
  rw [Nat.mul_left_comm, contains_ofPattern, Decimal.value_gridPoint]

/-- The distance of a point of a grid from a pattern, in units and in steps of the interval. -/
theorem RoundingInterval.abs_gridPoint_sub (f : FloatFormat) (p point grid : Nat) :
    |(⟨point, grid - f.scale⟩ : Decimal).value * 2 ^ f.scale - f.units p| * (2 * 5 ^ f.scale) =
      ((point * (2 * 10 ^ grid) : Nat) - (ofPattern f p).value : Int).natAbs := by
  have hpos : (0 : ℚ) < 2 * 5 ^ f.scale := by positivity
  have hvalue : (ofPattern f p).value = 5 ^ f.scale * (2 * f.units p) := rfl
  have hmul (x : ℚ) : |x| * (2 * 5 ^ f.scale) = |x * (2 * 5 ^ f.scale)| := by
    rw [abs_mul, abs_of_pos hpos]
  rw [Decimal.value_gridPoint, hvalue, Nat.cast_natAbs, Int.cast_abs, hmul]
  congr 1
  push_cast
  field_simp

/-! ### The decimal that is written -/

/-- **The decimal that is written lies in the rounding interval** of the pattern. -/
theorem isClosest_shortestDecimal (f : FloatFormat) (tie : TieRule) (p : Nat) :
    f.IsClosest ((shortestDecimal f tie p).value * 2 ^ f.scale) p := by
  rw [shortestDecimal, ← RoundingInterval.contains_gridPoint_iff]
  exact RoundingInterval.contains_coarsest tie (RoundingInterval.contains_value f p)
    (RoundingInterval.two_dvd_value f p) _

section Rounding

variable (hf : 0 < f.fractionBits) (he : 2 ≤ f.exponentBits) (hp : p < f.infinity)
include hf he hp

theorem round_shortestDecimal (tie : TieRule) : (shortestDecimal f tie p).round f = p :=
  (Decimal.round_eq_iff hf he hp).mpr (isClosest_shortestDecimal f tie p)

/-- **No decimal with a greater exponent is rounded to the pattern.** -/
theorem exponent_le_shortestDecimal (tie : TieRule) (hzero : p ≠ 0) (h : d.round f = p) :
    d.exponent ≤ (shortestDecimal f tie p).exponent := by
  have hclosest := (Decimal.round_eq_iff hf he hp).mp h
  have hdigits : d.digits ≠ 0 := Decimal.digits_ne_zero (h ▸ hzero)
  have htop : d.exponent < (Nat.pow 2 (f.exponentBits - 1) / 3 + 1 : Nat) :=
    Int.not_le.mp fun hlarge =>
      not_isClosest_of_large (Decimal.large_of_exponent he hdigits hlarge) hp hclosest
  by_contra hlt
  -- The decimal lies on a grid between the one that was found and the coarsest.
  obtain ⟨grid, hgrid⟩ : ∃ grid : Nat, d.exponent = grid - f.scale := by
    refine ⟨(d.exponent + f.scale).toNat, ?_⟩
    unfold shortestDecimal at hlt
    dsimp only at hlt
    omega
  have hinside := RoundingInterval.contains_gridPoint_iff f p d.digits grid
  rw [← hgrid] at hinside
  have houtside : (RoundingInterval.ofPattern f p).contains (d.digits * (2 * 10 ^ grid)) = false := by
    refine RoundingInterval.not_contains_of_coarsest tie (RoundingInterval.contains_value f p)
      (f.scale + Nat.pow 2 (f.exponentBits - 1) / 3 + 1) ?_ (by omega)
    rw [shortestDecimal, hgrid] at hlt
    dsimp only at hlt
    omega
  rw [hinside.mpr hclosest] at houtside
  cases houtside

/-- **No decimal with fewer digits is rounded to the pattern.** -/
theorem length_shortestDecimal_le (tie : TieRule) (hzero : p ≠ 0) (h : d.round f = p) :
    (digitsOf (shortestDecimal f tie p).digits).length ≤ (digitsOf d.digits).length := by
  have hcoarsest {e : Decimal} : e.round f = p → e.exponent ≤ (shortestDecimal f tie p).exponent :=
    exponent_le_shortestDecimal hf he hp tie hzero
  have hround := round_shortestDecimal hf he hp tie
  generalize shortestDecimal f tie p = shortest at hcoarsest hround ⊢
  by_contra hlt
  -- Between two decimals with their last digits in one place a power of ten has fewer digits.
  have hexponent := hcoarsest h
  have hlow : d.value ≤ 10 ^ shortest.leadingExponent := by
    refine (Decimal.value_bounds (Decimal.digits_ne_zero (h ▸ hzero))).2.le.trans ?_
    refine zpow_le_zpow_right₀ (by norm_num) ?_
    unfold Decimal.leadingExponent
    omega
  have hhigh := (Decimal.value_bounds (Decimal.digits_ne_zero (hround ▸ hzero))).1
  have hvalue : (⟨1, shortest.leadingExponent⟩ : Decimal).value = 10 ^ shortest.leadingExponent := by
    rw [Decimal.value, Nat.cast_one, one_mul]
  rw [← hvalue] at hlow hhigh
  have hpower : (⟨1, shortest.leadingExponent⟩ : Decimal).round f = p :=
    Nat.le_antisymm ((Decimal.round_mono hf he hhigh).trans_eq hround)
      (h.symm.trans_le (Decimal.round_mono hf he hlow))
  have hlast : shortest.leadingExponent ≤ shortest.exponent := hcoarsest hpower
  have hpos := length_digitsOf_pos d.digits
  unfold Decimal.leadingExponent at hlast
  omega

/-- **Of the decimals with the last digit in the same place none lies nearer** to the pattern. -/
theorem abs_shortestDecimal_sub_le (tie : TieRule) (h : d.round f = p)
    (hexponent : d.exponent = (shortestDecimal f tie p).exponent) :
    |(shortestDecimal f tie p).value * 2 ^ f.scale - f.units p| ≤
      |d.value * 2 ^ f.scale - f.units p| := by
  have hclosest := (Decimal.round_eq_iff hf he hp).mp h
  obtain ⟨digits, exponent⟩ := d
  obtain rfl : exponent = _ := hexponent
  rw [shortestDecimal] at hclosest ⊢
  rw [← RoundingInterval.contains_gridPoint_iff] at hclosest
  have hle := RoundingInterval.natAbs_coarsest_le tie (RoundingInterval.contains_value f p)
    (RoundingInterval.two_dvd_value f p) _ hclosest
  refine le_of_mul_le_mul_right ?_ (show (0 : ℚ) < 2 * 5 ^ f.scale by positivity)
  rw [RoundingInterval.abs_gridPoint_sub, RoundingInterval.abs_gridPoint_sub]
  exact_mod_cast hle

end Rounding

end EntityTable.Codec
