import EntityTable.Codec.FloatText
import EntityTable.Proofs.Codec.ShortestDecimal
import Mathlib.Data.List.TakeWhile

/-! # Floats that are read back

A decimal written without an exponent is read as a decimal of the same value
(`exists_decimal?_positional`), so it is rounded alike. The decimal that is written for a float is
rounded to that float, and with the names of the other values every text that stores a float is read
as that float again (`decodeFloat_encodeFloat`). -/

namespace EntityTable.Codec

open FloatFormat

variable {cs whole fraction body : List Char} {p : Nat} {bits : UInt32}

/-! ### Decimals without an exponent -/

theorem decimal?_digits (hne : cs ≠ []) (hcs : ∀ c ∈ cs, c.isDigit = true) :
    decimal? cs = some ⟨digitsValue cs, 0⟩ := by
  unfold decimal?
  simp only [List.takeWhile_eq_self_iff.mpr hcs, List.dropWhile_eq_nil_iff.mpr hcs, List.append_nil]
  rw [if_neg fun h => hne h.1]
  rfl

theorem decimal?_point (hne : whole ≠ []) (hwhole : ∀ c ∈ whole, c.isDigit = true)
    (hfraction : ∀ c ∈ fraction, c.isDigit = true) :
    decimal? (whole ++ '.' :: fraction) =
      some ⟨digitsValue (whole ++ fraction), -fraction.length⟩ := by
  have hbefore : (whole ++ '.' :: fraction).takeWhile Char.isDigit = whole := by
    rw [List.takeWhile_append_of_pos hwhole, List.takeWhile_cons_of_neg (by decide), List.append_nil]
  have hbehind : (whole ++ '.' :: fraction).dropWhile Char.isDigit = '.' :: fraction := by
    rw [List.dropWhile_append_of_pos hwhole, List.dropWhile_cons_of_neg (by decide)]
  unfold decimal?
  simp only [hbefore, hbehind, List.takeWhile_eq_self_iff.mpr hfraction,
    List.dropWhile_eq_nil_iff.mpr hfraction]
  rw [if_neg fun h => hne h.1]
  show some (⟨_, 0 - fraction.length⟩ : Decimal) = _
  rw [zero_sub]

theorem decimal?_positional_ofNat (n zeros : Nat) :
    decimal? (Decimal.mk n (.ofNat zeros)).positional = some ⟨n * 10 ^ zeros, 0⟩ := by
  have hdigits : ∀ c ∈ digitsOf n, c.isDigit = true := fun c hc => isDigit_of_mem_digitsOf hc
  have hne := List.ne_nil_of_length_pos (length_digitsOf_pos n)
  show decimal? (digitsOf n ++ List.replicate zeros '0') = _
  rw [decimal?_digits (List.append_ne_nil_of_left_ne_nil hne _)
    (List.forall_mem_append.mpr ⟨hdigits, isDigit_of_mem_replicate zeros⟩),
    digitsValue_append_replicate, digitsValue_digitsOf]

/-- With a point among the digits or before them the very same decimal is read. -/
theorem decimal?_positional_negSucc (n place : Nat) :
    decimal? (Decimal.mk n (.negSucc place)).positional = some ⟨n, .negSucc place⟩ := by
  have hdigits : ∀ c ∈ digitsOf n, c.isDigit = true := fun c hc => isDigit_of_mem_digitsOf hc
  unfold Decimal.positional
  dsimp only
  split_ifs with hinside
  · have hne : (digitsOf n).take ((digitsOf n).length - (place + 1)) ≠ [] := by
      refine List.ne_nil_of_length_pos ?_
      rw [List.length_take]
      omega
    have hlength : (digitsOf n).length - ((digitsOf n).length - (place + 1)) = place + 1 := by
      omega
    rw [decimal?_point hne (fun c hc => hdigits c (List.mem_of_mem_take hc))
      fun c hc => hdigits c (List.mem_of_mem_drop hc), List.take_append_drop, digitsValue_digitsOf,
      List.length_drop, hlength]
    rfl
  · generalize hzeros : place + 1 - (digitsOf n).length = zeros
    have hlength : zeros + (digitsOf n).length = place + 1 := by omega
    have hne : List.replicate 1 '0' ≠ [] := List.cons_ne_nil _ _
    show decimal? (List.replicate 1 '0' ++ '.' :: (List.replicate zeros '0' ++ digitsOf n)) = _
    rw [decimal?_point hne (isDigit_of_mem_replicate 1)
      (List.forall_mem_append.mpr ⟨isDigit_of_mem_replicate zeros, hdigits⟩),
      digitsValue_replicate_append, digitsValue_replicate_append, digitsValue_digitsOf,
      List.length_append, List.length_replicate, hlength]
    rfl

/-- **A decimal without an exponent is read as a decimal of the same value.** -/
theorem exists_decimal?_positional (d : Decimal) :
    ∃ d', decimal? d.positional = some d' ∧ d'.value = d.value := by
  obtain ⟨n, exponent⟩ := d
  cases exponent with
  | ofNat zeros =>
    refine ⟨_, decimal?_positional_ofNat n zeros, ?_⟩
    rw [Decimal.value, Decimal.value]
    push_cast
    rw [mul_one, Int.ofNat_eq_natCast, zpow_natCast]
  | negSucc place => exact ⟨_, decimal?_positional_negSucc n place, rfl⟩

theorem pattern?_positional (d : Decimal) : pattern? d.positional = some (d.round .single) := by
  obtain ⟨d', hread, hvalue⟩ := exists_decimal?_positional d
  rw [pattern?, hread]
  exact congrArg some (Decimal.round_congr (by decide) (by decide) hvalue)

/-! ### Magnitudes -/

/-- **The text of a magnitude is read as that magnitude**, infinity included. -/
theorem pattern?_magnitudeText (hp : p ≤ FloatFormat.single.infinity) :
    pattern? (magnitudeText p) = some p := by
  unfold magnitudeText
  split_ifs with hinfinity hzero
  · rw [hinfinity]
    rfl
  · rw [hzero]
    rfl
  · rw [pattern?_positional]
    refine congrArg some (round_shortestDecimal (by decide) (by decide) ?_ .upper)
    exact hp.lt_of_ne hinfinity

/-- The text has no sign of its own. -/
def Unsigned (cs : List Char) : Prop := splitSign cs = (false, cs)

theorem unsigned_cons_of_isDigit {c : Char} (h : c.isDigit = true) (rest : List Char) :
    Unsigned (c :: rest) := by
  unfold Unsigned splitSign
  split
  · cases ‹_ :: _ = _›
    cases h
  · cases ‹_ :: _ = _›
    cases h
  · rfl

theorem Decimal.unsigned_positional (d : Decimal) : Unsigned d.positional := by
  obtain ⟨first, rest, hcons⟩ := List.exists_cons_of_length_pos (length_digitsOf_pos d.digits)
  have hfirst : first.isDigit = true := by
    refine isDigit_of_mem_digitsOf (n := d.digits) ?_
    rw [hcons]
    exact List.mem_cons_self
  unfold Decimal.positional
  dsimp only
  split
  · rw [hcons]
    exact unsigned_cons_of_isDigit hfirst _
  · split_ifs with hinside
    · obtain ⟨k, hk⟩ := Nat.exists_eq_succ_of_ne_zero (Nat.sub_ne_zero_of_lt hinside)
      rw [hk, hcons]
      exact unsigned_cons_of_isDigit hfirst _
    · exact unsigned_cons_of_isDigit rfl _

theorem unsigned_magnitudeText (p : Nat) : Unsigned (magnitudeText p) := by
  unfold magnitudeText
  split_ifs
  · rfl
  · rfl
  · exact Decimal.unsigned_positional _

/-! ### Signs -/

theorem splitSign_append (negative : Bool) (hbody : Unsigned body) :
    splitSign ((if negative then ['-'] else []) ++ body) = (negative, body) := by
  cases negative
  · exact hbody
  · rfl

/-- A text without a sign, read behind a sign or behind none. -/
theorem decodeFloat_sign (negative : Bool) (hbody : Unsigned body) (h : pattern? body = some p) :
    decodeFloat (String.ofList ((if negative then ['-'] else []) ++ body)) =
      .ok (UInt32.ofNat (if negative then FloatFormat.single.signBit + p else p)) := by
  unfold decodeFloat
  rw [String.toList_ofList]
  split
  · rename_i hnil
    rw [List.append_eq_nil_iff.mp hnil |>.2] at h
    cases h
  · simp only [splitSign_append negative hbody, h]

theorem toNat_eq_magnitude (bits : UInt32) :
    bits.toNat = if isNegative bits then FloatFormat.single.signBit + magnitude bits
      else magnitude bits := by
  have hlt := bits.toNat_lt
  have hbit : FloatFormat.single.signBit = 2 ^ 31 := rfl
  unfold isNegative magnitude
  rw [hbit]
  split_ifs with h
  · have := of_decide_eq_true h
    omega
  · have := of_decide_eq_false (Bool.eq_false_iff.mpr h)
    omega

/-- **A float is read back bit by bit**, and what denotes no number as something that denotes none. -/
theorem decodeFloat_encodeFloat (bits : UInt32) :
    (isNaN bits = false → decodeFloat (encodeFloat bits) = .ok bits) ∧
    (isNaN bits = true → ∃ read, decodeFloat (encodeFloat bits) = .ok read ∧ isNaN read = true) := by
  constructor
  · intro hnumber
    have hmagnitude : magnitude bits ≤ FloatFormat.single.infinity :=
      Nat.le_of_not_lt (of_decide_eq_false hnumber)
    rw [encodeFloat, hnumber, if_neg Bool.false_ne_true, decodeFloat_sign _ (unsigned_magnitudeText _)
      (pattern?_magnitudeText hmagnitude), ← toNat_eq_magnitude, UInt32.ofNat_toNat]
  · intro hnan
    rw [encodeFloat, if_pos hnan]
    exact ⟨UInt32.ofNat nanPattern, by decide, by decide⟩

/-- Negative zero, the least subnormal number and the greatest number are read back, and the absence
of a number with a sign and a payload is read as one without. -/
theorem decodeFloat_encodeFloat_extremes :
    decodeFloat (encodeFloat 0x80000000) = .ok 0x80000000 ∧
    decodeFloat (encodeFloat 1) = .ok 1 ∧
    decodeFloat (encodeFloat 0xFF7FFFFF) = .ok 0xFF7FFFFF ∧
    ∃ read, decodeFloat (encodeFloat 0xFF812345) = .ok read ∧ isNaN read = true :=
  ⟨(decodeFloat_encodeFloat _).1 (by decide), (decodeFloat_encodeFloat _).1 (by decide),
    (decodeFloat_encodeFloat _).1 (by decide), (decodeFloat_encodeFloat _).2 (by decide)⟩

end EntityTable.Codec
