import EntityTable.Codec.Decimal
import Mathlib.Data.List.Induction
import Mathlib.Tactic.Ring

/-! # Digits

The digits of a number write that number (`digitsValue_digitsOf`), zeros in front of digits change
nothing and zeros behind them multiply (`digitsValue_replicate_append`,
`digitsValue_append_replicate`). So many digits write a number below that power of ten, and the
digits of a number are the fewest that write it (`length_digitsOf_le_iff`). -/

namespace EntityTable.Codec

variable {n : Nat} {c : Char} {cs ds rest : List Char}

/-! ### Digits of a number -/

theorem digitsValue_digitsOf (n : Nat) : digitsValue (digitsOf n) = n :=
  Nat.ofDigitChars_ten_toDigits

theorem isDigit_of_mem_digitsOf (h : c ∈ digitsOf n) : c.isDigit = true :=
  Nat.isDigit_of_mem_toDigits (by decide) (by decide) h

theorem length_digitsOf_pos (n : Nat) : 0 < (digitsOf n).length := Nat.length_toDigits_pos

theorem length_digitsOf_le_iff {k : Nat} (hk : 0 < k) : (digitsOf n).length ≤ k ↔ n < 10 ^ k :=
  Nat.length_toDigits_le_iff (by decide) hk

theorem lt_pow_length_digitsOf (n : Nat) : n < 10 ^ (digitsOf n).length :=
  (length_digitsOf_le_iff (length_digitsOf_pos n)).mp le_rfl

theorem pow_length_digitsOf_le (hn : n ≠ 0) : 10 ^ ((digitsOf n).length - 1) ≤ n := by
  rcases Nat.eq_zero_or_pos ((digitsOf n).length - 1) with hone | hmore
  · rw [hone]
    omega
  · by_contra hlt
    have hle := (length_digitsOf_le_iff hmore).mpr (Nat.lt_of_not_le hlt)
    omega

/-! ### Numbers that digits write -/

theorem digitsValue_append_singleton (cs : List Char) (c : Char) :
    digitsValue (cs ++ [c]) = 10 * digitsValue cs + digitValue c := by
  simp only [digitsValue, List.foldl_append, List.foldl_cons, List.foldl_nil]

theorem digitsValue_append (cs ds : List Char) :
    digitsValue (cs ++ ds) = digitsValue cs * 10 ^ ds.length + digitsValue ds := by
  induction ds using List.reverseRecOn with
  | nil => simp [digitsValue]
  | append_singleton ds d ih =>
    rw [← List.append_assoc, digitsValue_append_singleton, digitsValue_append_singleton, ih,
      List.length_append, List.length_singleton, pow_succ]
    ring

theorem isDigit_of_mem_replicate (k : Nat) : ∀ c ∈ List.replicate k '0', c.isDigit = true := by
  intro c hc
  rw [List.eq_of_mem_replicate hc]
  rfl

theorem digitsValue_replicate (k : Nat) : digitsValue (List.replicate k '0') = 0 := by
  induction k with
  | zero => rfl
  | succ k ih =>
    have hzero : digitsValue ['0'] = 0 := rfl
    rw [List.replicate_succ, ← List.singleton_append, digitsValue_append, ih, hzero, Nat.zero_mul]

theorem digitsValue_replicate_append (k : Nat) (cs : List Char) :
    digitsValue (List.replicate k '0' ++ cs) = digitsValue cs := by
  rw [digitsValue_append, digitsValue_replicate, Nat.zero_mul, Nat.zero_add]

theorem digitsValue_append_replicate (cs : List Char) (k : Nat) :
    digitsValue (cs ++ List.replicate k '0') = digitsValue cs * 10 ^ k := by
  rw [digitsValue_append, digitsValue_replicate, List.length_replicate, Nat.add_zero]

theorem digitValue_lt (h : c.isDigit = true) : digitValue c < 10 := by
  simp only [Char.isDigit, Bool.and_eq_true, decide_eq_true_eq, ge_iff_le] at h
  have hle : c.val.toNat ≤ '9'.val.toNat := UInt32.le_iff_toNat_le.mp h.2
  have hnine : '9'.val.toNat = 57 := rfl
  show c.val.toNat - 48 < 10
  omega

theorem digitsValue_lt (h : ∀ c ∈ cs, c.isDigit = true) : digitsValue cs < 10 ^ cs.length := by
  induction cs using List.reverseRecOn with
  | nil => exact Nat.one_pos
  | append_singleton cs c ih =>
    have hcs := ih fun d hd => h d (List.mem_append_left _ hd)
    have hc := digitValue_lt (h c (List.mem_append_right _ List.mem_cons_self))
    rw [digitsValue_append_singleton, List.length_append, List.length_singleton, pow_succ]
    omega

end EntityTable.Codec
