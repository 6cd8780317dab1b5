import EntityTable.Codec.TimeField
import EntityTable.Proofs.Codec.Digits
import EntityTable.Proofs.Outcome
import Mathlib.Data.List.TakeWhile
import Mathlib.Tactic.IntervalCases

/-! # Fields that are read back

Each field of a date and time is written so that reading it takes exactly what was written: a number
padded to its width ends by its width (`number_padded_width`), and a part of a second ends where no digit
follows (`nanoseconds_fraction`). Readers are run one after another (`run_bind`), and what a whole
reader yields its parts have yielded (`exists_of_run_bind`). -/

namespace EntityTable.Codec.TimeField

variable {α β : Type} {cs digits rest final : List Char} {n width : Nat}

/-! ### Readers one after another -/

section Bind

variable {reader : FieldReader α} {next : α → FieldReader β} {a : α} {b : β}

theorem run_bind (h : reader cs = .ok (a, rest)) : (reader >>= next) cs = next a rest := by
  show (reader cs >>= fun r => next r.1 r.2) = _
  rw [h]
  rfl

theorem exists_of_run_bind (h : (reader >>= next) cs = .ok (b, final)) :
    ∃ a rest, reader cs = .ok (a, rest) ∧ next a rest = .ok (b, final) := by
  obtain ⟨⟨a, rest⟩, hfirst, hnext⟩ := bind_eq_ok.mp h
  exact ⟨a, rest, hfirst, hnext⟩

/-- A reader of a whole text succeeds only if nothing is left. -/
theorem all_eq_ok_iff {text : String} : all reader text = .ok a ↔ reader text.toList = .ok (a, []) := by
  unfold all
  split
  · rename_i h
    rw [h]
    exact ⟨fun heq => by cases heq; rfl, fun heq => by cases heq; rfl⟩
  · rename_i value hleft h
    exact ⟨nofun, fun heq => absurd (h.symm.trans heq) fun hsame => hleft a (Except.ok.inj hsame)⟩
  · rename_i h
    rw [h]
    exact ⟨nofun, nofun⟩

end Bind

theorem mark_cons {accepted : List Char} {c : Char} (h : c ∈ accepted) (rest : List Char) :
    mark accepted (c :: rest) = .ok (c, rest) := if_pos h

/-! ### Numbers -/

/-- No digit follows. -/
def NoDigit (rest : List Char) : Prop := ∀ c ∈ rest.head?, c.isDigit = false

theorem noDigit_nil : NoDigit [] := nofun

theorem noDigit_cons {c : Char} (h : c.isDigit = false) : NoDigit (c :: rest) := by
  rintro d ⟨⟩
  exact h

theorem takeWhile_of_noDigit (h : NoDigit rest) : rest.takeWhile Char.isDigit = [] := by
  cases rest with
  | nil => rfl
  | cons c rest => exact List.takeWhile_cons_of_neg (by rw [h c rfl]; exact Bool.false_ne_true)

theorem dropWhile_of_noDigit (h : NoDigit rest) : rest.dropWhile Char.isDigit = rest := by
  cases rest with
  | nil => rfl
  | cons c rest => exact List.dropWhile_cons_of_neg (by rw [h c rfl]; exact Bool.false_ne_true)

theorem NoDigit.take (h : NoDigit rest) (k : Nat) : NoDigit (rest.take k) := by
  cases k with
  | zero => exact noDigit_nil
  | succ k =>
    cases rest with
    | nil => exact noDigit_nil
    | cons c rest => exact noDigit_cons (h c rfl)

theorem length_le_byteCount (cs : List Char) : cs.length ≤ byteCount cs := by
  induction cs with
  | nil => exact Nat.le_refl 0
  | cons c cs ih =>
    rw [List.length_cons, byteCount]
    have := Char.utf8Size_pos c
    omega

variable {least : Nat} {most : Option Nat}

/-- A number ends where no more digits are asked for, or where none follows. -/
theorem number_append (hdigits : ∀ c ∈ digits, c.isDigit = true) (hleast : least ≤ digits.length)
    (hmost : ∀ m ∈ most, digits.length ≤ m) (hend : digits.length ∈ most ∨ NoDigit rest)
    (hvalue : digitsValue digits ≤ greatest) :
    number least most (digits ++ rest) = .ok (digitsValue digits, rest) := by
  have hbytes : ¬ byteCount (digits ++ rest) < least := by
    have := length_le_byteCount (digits ++ rest)
    rw [List.length_append] at this
    omega
  have htaken : ((digits ++ rest).take (most.getD (digits ++ rest).length)).takeWhile Char.isDigit =
      digits := by
    have hle : digits.length ≤ most.getD (digits ++ rest).length := by
      cases most with
      | none => simp
      | some m => exact hmost m rfl
    rw [List.take_append, List.take_of_length_le hle, List.takeWhile_append_of_pos hdigits]
    have hstop : NoDigit (rest.take (most.getD (digits ++ rest).length - digits.length)) := by
      rcases hend with hmem | hrest
      · rw [Option.mem_def.mp hmem, Option.getD_some, Nat.sub_self]
        exact noDigit_nil
      · exact hrest.take _
    rw [takeWhile_of_noDigit hstop, List.append_nil]
  simp only [number, htaken, if_neg hbytes, if_neg (Nat.not_lt.mpr hleast),
    if_neg (Nat.not_lt.mpr hvalue), List.drop_left]

/-- What is read as a number has no more digits than are asked for. -/
theorem number_lt {m : Nat} (h : number least (some m) cs = .ok (n, rest)) : n < 10 ^ m := by
  unfold number at h
  split at h
  · cases h
  · dsimp only at h
    split at h
    · cases h
    · split at h
      · cases h
      · cases h
        refine lt_of_lt_of_le (digitsValue_lt fun c hc => List.mem_takeWhile_imp hc) ?_
        refine Nat.pow_le_pow_right (by decide) ((List.takeWhile_prefix _).length_le.trans ?_)
        rw [List.length_take, Option.getD_some]
        exact Nat.min_le_left ..

theorem bounded_of_run {low high : Nat} {reader : FieldReader Nat}
    (h : bounded low high reader cs = .ok (n, rest)) : low ≤ n ∧ n ≤ high := by
  obtain ⟨m, middle, -, hchecked⟩ := exists_of_run_bind h
  split at hchecked
  · rename_i hbounds
    cases hchecked
    exact hbounds
  · cases hchecked

theorem run_bounded {low high : Nat} {reader : FieldReader Nat} (h : reader cs = .ok (n, rest))
    (hlow : low ≤ n) (hhigh : n ≤ high) : bounded low high reader cs = .ok (n, rest) := by
  rw [bounded, run_bind h, if_pos ⟨hlow, hhigh⟩]
  rfl

/-! ### Padded numbers -/

theorem isDigit_of_mem_padded {c : Char} (h : c ∈ padded width n) : c.isDigit = true := by
  rcases List.mem_append.mp h with h | h
  · exact isDigit_of_mem_replicate _ c h
  · exact isDigit_of_mem_digitsOf h

theorem digitsValue_padded (width n : Nat) : digitsValue (padded width n) = n := by
  rw [padded, digitsValue_replicate_append, digitsValue_digitsOf]

theorem length_padded (hn : n < 10 ^ width) (hwidth : 0 < width) : (padded width n).length = width := by
  rw [padded, List.length_append, List.length_replicate]
  have := (length_digitsOf_le_iff hwidth).mpr hn
  omega

theorem length_padded_pos (width n : Nat) : 0 < (padded width n).length := by
  rw [padded, List.length_append]
  have := length_digitsOf_pos n
  omega

theorem number_padded (hleast : least ≤ (padded width n).length)
    (hmost : ∀ m ∈ most, (padded width n).length ≤ m)
    (hend : (padded width n).length ∈ most ∨ NoDigit rest) (hvalue : n ≤ greatest) :
    number least most (padded width n ++ rest) = .ok (n, rest) := by
  have h : number least most (padded width n ++ rest) =
      .ok (digitsValue (padded width n), rest) :=
    number_append (fun c hc => isDigit_of_mem_padded hc) hleast hmost hend
      (by rwa [digitsValue_padded])
  rwa [digitsValue_padded] at h

/-- A number that fills the width it is read in, whatever follows. -/
theorem number_padded_width (hn : n < 10 ^ width) (hwidth : 0 < width) (hleast : least ≤ width)
    (hvalue : n ≤ greatest) (rest : List Char) :
    number least (some width) (padded width n ++ rest) = .ok (n, rest) := by
  have hlength := length_padded hn hwidth
  refine number_padded (by omega) ?_ (.inl (congrArg some hlength.symm)) hvalue
  rintro m ⟨⟩
  omega

/-- A number of however many digits, behind which something else follows. -/
theorem number_padded_unbounded (hvalue : n ≤ greatest) (hrest : NoDigit rest) :
    number 1 none (padded width n ++ rest) = .ok (n, rest) :=
  number_padded (length_padded_pos width n) nofun (.inr hrest) hvalue

/-! ### Parts of a second -/

theorem nanoDigits_padded (hn : n < 10 ^ width) (hpos : 0 < width) (hwidth : width ≤ 9)
    (hrest : NoDigit rest) :
    nanoDigits (padded width n ++ rest) = .ok (n * 10 ^ (9 - width), rest) := by
  have hlength := length_padded hn hpos
  have hvalue : n ≤ greatest := by
    have hpow : 10 ^ width ≤ 10 ^ 9 := Nat.pow_le_pow_right (by decide) hwidth
    have hgreatest : 10 ^ 9 ≤ greatest := by decide
    exact (hn.le.trans hpow).trans hgreatest
  have hnumber : number 1 (some 9) (padded width n ++ rest) = .ok (n, rest) := by
    refine number_padded (by omega) ?_ (.inr hrest) hvalue
    rintro m ⟨⟩
    omega
  show (number 1 (some 9) (padded width n ++ rest) >>= _) = _
  rw [hnumber]
  show Except.ok (n * 10 ^ (9 - ((padded width n ++ rest).length - rest.length)),
    rest.dropWhile Char.isDigit) = _
  rw [dropWhile_of_noDigit hrest, List.length_append, Nat.add_sub_cancel, hlength]

/-- **A part of a second is read back**, in whichever of its forms it is written. -/
theorem nanoseconds_fraction (hn : n < 10 ^ 9) (hrest : NoDigit rest)
    (hpoint : ∀ c ∈ rest.head?, c ≠ '.') :
    nanoseconds (fraction n ++ rest) = .ok (n, rest) := by
  unfold fraction
  split
  · rename_i hzero
    rw [List.nil_append, hzero]
    cases rest with
    | nil => rfl
    | cons c rest =>
      unfold nanoseconds
      split
      · rename_i heq
        cases heq
        exact absurd rfl (hpoint _ rfl)
      · rfl
  · split
    · rename_i hmillis
      show nanoDigits (padded 3 (n / 1000000) ++ rest) = _
      rw [nanoDigits_padded (by omega) (by decide) (by decide) hrest]
      show Except.ok (n / 1000000 * 1000000, rest) = _
      rw [Nat.div_mul_cancel (Nat.dvd_of_mod_eq_zero hmillis)]
    · split
      · rename_i hmicros
        show nanoDigits (padded 6 (n / 1000) ++ rest) = _
        rw [nanoDigits_padded (by omega) (by decide) (by decide) hrest]
        show Except.ok (n / 1000 * 1000, rest) = _
        rw [Nat.div_mul_cancel (Nat.dvd_of_mod_eq_zero hmicros)]
      · show nanoDigits (padded 9 n ++ rest) = _
        rw [nanoDigits_padded hn (by decide) (by decide) hrest, Nat.sub_self, pow_zero, Nat.mul_one]

/-! ### Blanks before a field -/

theorem isBlank_of_isDigit {c : Char} (h : c.isDigit = true) : Text.isBlank c = false := by
  simp only [Char.isDigit, Bool.and_eq_true, decide_eq_true_eq, ge_iff_le] at h
  have hlow : '0'.val.toNat ≤ c.val.toNat := UInt32.le_iff_toNat_le.mp h.1
  have hhigh : c.val.toNat ≤ '9'.val.toNat := UInt32.le_iff_toNat_le.mp h.2
  have hcode : 48 ≤ c.toNat ∧ c.toNat ≤ 57 := ⟨hlow, hhigh⟩
  unfold Text.isBlank Text.CodePointSet.contains
  generalize c.toNat = code at hcode
  obtain ⟨hlow, hhigh⟩ := hcode
  interval_cases code <;> rfl

theorem trimStart_cons {c : Char} (h : Text.isBlank c = false) (rest : List Char) :
    Text.trimStart (c :: rest) = c :: rest :=
  List.dropWhile_cons_of_neg (by rw [h]; exact Bool.false_ne_true)

theorem trimStart_padded (width n : Nat) (rest : List Char) :
    Text.trimStart (padded width n ++ rest) = padded width n ++ rest := by
  obtain ⟨c, cs, hcons⟩ := List.exists_cons_of_length_pos (length_padded_pos width n)
  have hc : c ∈ padded width n := by
    rw [hcons]
    exact List.mem_cons_self
  rw [hcons]
  exact trimStart_cons (isBlank_of_isDigit (isDigit_of_mem_padded hc)) _

end EntityTable.Codec.TimeField
