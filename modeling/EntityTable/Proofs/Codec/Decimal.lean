import EntityTable.Proofs.Codec.Digits
import EntityTable.Proofs.Codec.FloatFormat
import Mathlib.Algebra.Order.Field.Power
import Mathlib.Tactic.FieldSimp
import Mathlib.Tactic.NormNum

/-! # Rounding decimals

A decimal is rounded to the pattern that is closest to its value (`Decimal.round_eq_iff`) and no
other, or to infinity if that pattern is none of a number. So rounding depends on the value only
(`Decimal.round_congr`) and is monotone (`Decimal.round_mono`). -/

namespace EntityTable.Codec

open FloatFormat

variable {f : FloatFormat} {p : Nat} {d : Decimal}

namespace Decimal

/-- The number that a decimal writes. -/
def value (d : Decimal) : ℚ := d.digits * 10 ^ d.exponent

theorem value_nonneg (d : Decimal) : 0 ≤ d.value := by
  unfold value
  positivity

/-- The first digit of a decimal says between which powers of ten it lies. -/
theorem value_bounds (hd : d.digits ≠ 0) :
    (10 : ℚ) ^ d.leadingExponent ≤ d.value ∧ d.value < 10 ^ (d.leadingExponent + 1) := by
  have hpow : (0 : ℚ) < 10 ^ d.exponent := by positivity
  have hpos := length_digitsOf_pos d.digits
  have hfirst : d.leadingExponent = (((digitsOf d.digits).length - 1 : Nat) : Int) + d.exponent := by
    unfold leadingExponent
    omega
  have hnext : d.leadingExponent + 1 = ((digitsOf d.digits).length : Int) + d.exponent := by
    unfold leadingExponent
    omega
  rw [hnext, hfirst, zpow_add₀ (by decide), zpow_add₀ (by decide), zpow_natCast, zpow_natCast, value]
  constructor
  · refine mul_le_mul_of_nonneg_right ?_ hpow.le
    exact_mod_cast pow_length_digitsOf_le hd
  · refine mul_lt_mul_of_pos_right ?_ hpow
    exact_mod_cast lt_pow_length_digitsOf d.digits

theorem large_of_value (he : 2 ≤ f.exponentBits) (h : 2 ^ 2 ^ (f.exponentBits - 1) < d.value) :
    (f.units f.infinity : ℚ) < d.value * 2 ^ f.scale := by
  rw [units_infinity he, Nat.cast_mul, Nat.cast_pow, Nat.cast_pow, Nat.cast_ofNat]
  exact mul_lt_mul_of_pos_right h (by positivity)

theorem large_of_leadingExponent (he : 2 ≤ f.exponentBits) (hd : d.digits ≠ 0)
    (h : d.leadingExponent ≥ Nat.pow 2 (f.exponentBits - 1)) :
    (f.units f.infinity : ℚ) < d.value * 2 ^ f.scale := by
  refine large_of_value he ?_
  calc (2 : ℚ) ^ 2 ^ (f.exponentBits - 1)
      < 10 ^ 2 ^ (f.exponentBits - 1) :=
        pow_lt_pow_left₀ (by norm_num) (by norm_num) (Nat.two_pow_pos _).ne'
    _ = 10 ^ ((2 ^ (f.exponentBits - 1) : Nat) : Int) := (zpow_natCast _ _).symm
    _ ≤ 10 ^ d.leadingExponent := zpow_le_zpow_right₀ (by norm_num) h
    _ ≤ d.value := (value_bounds hd).1

/-- A decimal whose last digit already stands above all numbers of the format. -/
theorem large_of_exponent (he : 2 ≤ f.exponentBits) (hd : d.digits ≠ 0)
    (h : (Nat.pow 2 (f.exponentBits - 1) / 3 + 1 : Nat) ≤ d.exponent) :
    (f.units f.infinity : ℚ) < d.value * 2 ^ f.scale := by
  refine large_of_value he ?_
  have hdigits : (1 : ℚ) ≤ d.digits := Nat.one_le_cast.mpr (Nat.one_le_iff_ne_zero.mpr hd)
  have hpow : (10 : ℚ) ^ ((Nat.pow 2 (f.exponentBits - 1) / 3 + 1 : Nat) : Int) ≤ 10 ^ d.exponent :=
    zpow_le_zpow_right₀ (by norm_num) h
  rw [zpow_natCast] at hpow
  simp only [Nat.pow_eq] at hpow
  generalize 2 ^ (f.exponentBits - 1) = range at *
  calc (2 : ℚ) ^ range ≤ 2 ^ (3 * (range / 3 + 1)) := pow_le_pow_right₀ (by norm_num) (by omega)
    _ = 8 ^ (range / 3 + 1) := by rw [pow_mul]; norm_num
    _ < 10 ^ (range / 3 + 1) := pow_lt_pow_left₀ (by norm_num) (by norm_num) (Nat.succ_ne_zero _)
    _ ≤ 10 ^ d.exponent := hpow
    _ ≤ d.value := le_mul_of_one_le_left (by positivity) hdigits

theorem small_of_leadingExponent (hd : d.digits ≠ 0) (h : d.leadingExponent + 1 < -f.scale) :
    2 * (d.value * 2 ^ f.scale) < 1 := by
  have hvalue : d.value < 10 ^ (-((f.scale + 1 : Nat) : Int)) :=
    (value_bounds hd).2.trans_le (zpow_le_zpow_right₀ (by norm_num) (by omega))
  rw [zpow_neg, zpow_natCast] at hvalue
  have hpow : (2 : ℚ) ^ (f.scale + 1) ≤ 10 ^ (f.scale + 1) :=
    pow_le_pow_left₀ (by norm_num) (by norm_num) _
  calc 2 * (d.value * 2 ^ f.scale) = d.value * 2 ^ (f.scale + 1) := by ring
    _ < (10 ^ (f.scale + 1))⁻¹ * 2 ^ (f.scale + 1) :=
        mul_lt_mul_of_pos_right hvalue (by positivity)
    _ ≤ (10 ^ (f.scale + 1))⁻¹ * 10 ^ (f.scale + 1) :=
        mul_le_mul_of_nonneg_left hpow (by positivity)
    _ = 1 := inv_mul_cancel₀ (by positivity)

/-- A decimal is a quotient of units, and one that is neither far too large nor far too small is
rounded as that. -/
theorem exists_quotient (f : FloatFormat) (d : Decimal) : ∃ a b : Nat, 0 < b ∧
    (a / b : ℚ) = d.value * 2 ^ f.scale ∧
    (d.digits ≠ 0 → ¬ d.leadingExponent ≥ Nat.pow 2 (f.exponentBits - 1) →
      ¬ d.leadingExponent + 1 < -f.scale → d.round f = min f.infinity (f.nearest a b)) := by
  unfold value
  cases hexponent : d.exponent with
  | ofNat n =>
    refine ⟨d.digits * Nat.pow 10 n * Nat.pow 2 f.scale, 1, Nat.one_pos, ?_, fun hd hl hs => ?_⟩
    · simp only [Nat.pow_eq]
      push_cast
      rw [div_one, Int.ofNat_eq_natCast, zpow_natCast]
    · rw [round, if_neg hd, if_neg hl, if_neg hs, hexponent]
  | negSucc n =>
    refine ⟨d.digits * Nat.pow 2 f.scale, Nat.pow 10 (n + 1), Nat.pow_pos (by decide), ?_,
      fun hd hl hs => ?_⟩
    · simp only [Nat.pow_eq]
      push_cast
      rw [zpow_negSucc]
      field_simp
    · rw [round, if_neg hd, if_neg hl, if_neg hs, hexponent]

section Closest

variable (hf : 0 < f.fractionBits) (he : 2 ≤ f.exponentBits)
include hf he

/-- A decimal is rounded to the closest pattern, or to infinity if that is less. -/
theorem exists_isClosest (d : Decimal) :
    ∃ q, f.IsClosest (d.value * 2 ^ f.scale) q ∧ d.round f = min f.infinity q := by
  obtain ⟨a, b, hb, hquotient, hround⟩ := exists_quotient f d
  have hclosest : f.IsClosest (d.value * 2 ^ f.scale) (f.nearest a b) :=
    hquotient ▸ isClosest_nearest hb hf
  have hnonneg : 0 ≤ d.value * 2 ^ f.scale := mul_nonneg d.value_nonneg (by positivity)
  by_cases hdigits : d.digits = 0
  · refine ⟨0, isClosest_zero hnonneg ?_, ?_⟩
    · rw [value, hdigits, Nat.cast_zero, zero_mul, zero_mul, mul_zero]
      exact zero_lt_one
    · rw [round, if_pos hdigits, Nat.min_zero]
  · by_cases hlarge : d.leadingExponent ≥ Nat.pow 2 (f.exponentBits - 1)
    · refine ⟨_, hclosest, ?_⟩
      have hle : f.infinity ≤ f.nearest a b := Nat.le_of_not_lt fun hlt =>
        not_isClosest_of_large (large_of_leadingExponent he hdigits hlarge) hlt hclosest
      rw [round, if_neg hdigits, if_pos hlarge, Nat.min_eq_left hle]
    · by_cases hsmall : d.leadingExponent + 1 < -f.scale
      · refine ⟨0, isClosest_zero hnonneg (small_of_leadingExponent hdigits hsmall), ?_⟩
        rw [round, if_neg hdigits, if_neg hlarge, if_pos hsmall, Nat.min_zero]
      · exact ⟨_, hclosest, hround hdigits hlarge hsmall⟩

/-- **A decimal is rounded to the closest pattern**, if that is finite. -/
theorem round_eq_iff (hp : p < f.infinity) :
    d.round f = p ↔ f.IsClosest (d.value * 2 ^ f.scale) p := by
  obtain ⟨q, hclosest, hround⟩ := exists_isClosest hf he d
  rw [hround]
  constructor
  · intro h
    obtain rfl : q = p := by omega
    exact hclosest
  · intro h
    rw [hclosest.unique h, Nat.min_eq_right hp.le]

/-- **Rounding is monotone**: a greater decimal is not rounded to a lesser pattern. -/
theorem round_mono {d' : Decimal} (h : d.value ≤ d'.value) : d.round f ≤ d'.round f := by
  obtain ⟨q, hclosest, hround⟩ := exists_isClosest hf he d
  obtain ⟨q', hclosest', hround'⟩ := exists_isClosest hf he d'
  have hle : q ≤ q' :=
    hclosest.le_of_le hclosest' (mul_le_mul_of_nonneg_right h (by positivity))
  rw [hround, hround']
  omega

/-- How a decimal is rounded depends on its value only. -/
theorem round_congr {d' : Decimal} (h : d.value = d'.value) : d.round f = d'.round f :=
  Nat.le_antisymm (round_mono hf he h.le) (round_mono hf he h.ge)

end Closest

theorem digits_ne_zero (h : d.round f ≠ 0) : d.digits ≠ 0 := by
  intro hd
  rw [round, if_pos hd] at h
  exact h rfl

end Decimal

end EntityTable.Codec
