import EntityTable.Codec.Json.Scalar
import EntityTable.Proofs.Codec.TimeField

/-! # Scalars that are read back

A scalar is read from the front of a text whatever follows, as long as it is nothing that would go
on with a number: `ReadsScalar`. Digits are read up to the first character that is none
(`boundedDigits_append`), every character of a string is read back from its escape
(`stringBody_escapeChar`), and so the text of a scalar without a float is read as that scalar. -/

namespace EntityTable.Codec.Json

open TimeField (NoDigit noDigit_nil noDigit_cons)

variable {cs rest text : List Char} {c : Char} {s : Scalar}

/-! ### What stands around values -/

/-- The characters that end a value inside a list or an object. -/
def endMarks : List Char := [',', ']', '\x7d']

/-- The characters that stand before and behind values and are no part of them. -/
def surroundings : List Char := [' ', '\n', '\t', '\r', ':'] ++ endMarks

/-- Nothing follows, or something that ends a value. -/
def Delimited (rest : List Char) : Prop := ∀ c ∈ rest.head?, c ∈ endMarks

theorem delimited_nil : Delimited [] := nofun

theorem delimited_cons (h : c ∈ endMarks) : Delimited (c :: rest) := by
  rintro d ⟨⟩
  exact h

theorem notMem_of_isDigit (h : c.isDigit = true) {marks : List Char}
    (hmarks : marks.any Char.isDigit = false) : c ∉ marks := fun hc =>
  List.any_eq_false.mp hmarks c hc h

theorem Delimited.noDigit (h : Delimited rest) : NoDigit rest := by
  intro c hc
  by_contra hdigit
  exact notMem_of_isDigit (Bool.not_eq_false _ ▸ hdigit) (by decide) (h c hc)

theorem Delimited.head?_ne (h : Delimited rest) (hc : c ∉ endMarks) : rest.head? ≠ some c :=
  fun heq => hc (h c heq)

theorem ne_of_notMem {marks : List Char} (h : c ∉ marks) {d : Char} (hd : d ∈ marks) : c ≠ d :=
  fun heq => h (heq ▸ hd)

theorem skipBlanks_cons (h : c ∉ surroundings) (cs : List Char) :
    skipBlanks (c :: cs) = c :: cs := by
  refine List.dropWhile_cons_of_neg ?_
  have hspace : c ≠ ' ' := ne_of_notMem h (by decide)
  have hline : c ≠ '\n' := ne_of_notMem h (by decide)
  have htab : c ≠ '\t' := ne_of_notMem h (by decide)
  have hreturn : c ≠ '\r' := ne_of_notMem h (by decide)
  simp only [Bool.or_eq_true, beq_iff_eq, not_or]
  exact ⟨⟨⟨hspace, hline⟩, htab⟩, hreturn⟩

/-- The text is read as a scalar, and it does not begin like a list or an object. -/
structure ReadsScalar (text : List Char) (s : Scalar) : Prop where
  starts : ∃ c cs, text = c :: cs ∧ c ∉ '[' :: '\x7b' :: surroundings
  read : ∀ rest, Delimited rest → scalar (text ++ rest) = .ok (s, rest)

theorem ReadsScalar.exists_cons (h : ReadsScalar text s) :
    ∃ c cs, text = c :: cs ∧ c ∉ surroundings ∧ c ≠ '[' ∧ c ≠ '\x7b' := by
  obtain ⟨c, cs, htext, hc⟩ := h.starts
  exact ⟨c, cs, htext, fun hmem => hc (by simp [hmem]), ne_of_notMem hc (by decide),
    ne_of_notMem hc (by decide)⟩

/-! ### Words -/

theorem readsScalar_null : ReadsScalar (Json.text .null) .null :=
  ⟨⟨'n', _, rfl, by decide⟩, fun _ _ => rfl⟩

theorem readsScalar_bool (value : Bool) : ReadsScalar (Json.text (.bool value)) (.bool value) := by
  cases value
  · exact ⟨⟨'f', _, rfl, by decide⟩, fun _ _ => rfl⟩
  · exact ⟨⟨'t', _, rfl, by decide⟩, fun _ _ => rfl⟩

/-! ### Numbers -/

theorem le_foldl_digits (ds : List Char) (n : Nat) :
    n ≤ ds.foldl (fun n c => 10 * n + digitValue c) n := by
  induction ds generalizing n with
  | nil => exact le_rfl
  | cons d ds ih => exact le_trans (by omega) (ih (10 * n + digitValue d))

/-- **Digits are read up to the first character that is none**, if the number passes no limit. -/
theorem boundedDigits_append {limit : Nat} : ∀ {ds : List Char} {n : Nat},
    (∀ d ∈ ds, d.isDigit = true) → ds.foldl (fun n c => 10 * n + digitValue c) n ≤ limit →
      NoDigit rest → boundedDigits limit n (ds ++ rest) =
        (ds.foldl (fun n c => 10 * n + digitValue c) n, rest)
  | [], n, _, _, hrest => by
    cases rest with
    | nil => rfl
    | cons c rest =>
      have hc : ¬ (c.isDigit = true ∧ 10 * n + digitValue c ≤ limit) := by
        rw [hrest c rfl]
        exact fun h => Bool.false_ne_true h.1
      exact if_neg hc
  | d :: ds, n, hdigits, hlimit, hrest => by
    have hd : d.isDigit = true ∧ 10 * n + digitValue d ≤ limit :=
      ⟨hdigits d List.mem_cons_self, (le_foldl_digits ds _).trans hlimit⟩
    rw [List.cons_append, boundedDigits, if_pos hd,
      boundedDigits_append (fun e he => hdigits e (List.mem_cons_of_mem _ he)) hlimit hrest]
    rfl

theorem boundedDigits_digitsOf {limit n : Nat} (hn : n ≤ limit) (hrest : NoDigit rest) :
    boundedDigits limit 0 (digitsOf n ++ rest) = (n, rest) := by
  have hvalue : (digitsOf n).foldl (fun n c => 10 * n + digitValue c) 0 = n :=
    digitsValue_digitsOf n
  rw [boundedDigits_append (fun d hd => isDigit_of_mem_digitsOf hd) (hvalue.le.trans hn) hrest,
    hvalue]

/-- The digits of a positive number do not begin with a zero. -/
theorem digitsOf_cons_ne_zero {n : Nat} (hn : n ≠ 0) (h : digitsOf n = c :: cs) : c ≠ '0' := by
  rintro rfl
  have hvalue : digitsValue cs = n := by
    rw [← digitsValue_digitsOf n, h]
    exact (digitsValue_replicate_append 1 cs).symm
  have hle := pow_length_digitsOf_le hn
  have hdigits : ∀ d ∈ cs, d.isDigit = true := by
    intro d hd
    refine isDigit_of_mem_digitsOf (n := n) ?_
    rw [h]
    exact List.mem_cons_of_mem _ hd
  have hlt := digitsValue_lt hdigits
  rw [h, List.length_cons, Nat.add_sub_cancel] at hle
  omega

theorem numberEnd_whole (negative : Bool) (n : Nat) (hrest : Delimited rest) :
    numberEnd negative n 0 rest = .ok (wholeScalar negative n, rest) := by
  unfold numberEnd
  split
  · exact absurd rfl (hrest.head?_ne (c := '.') (by decide))
  · exact if_pos ⟨rfl, hrest.head?_ne (by decide), hrest.head?_ne (by decide)⟩

theorem startsWithDigit_eq_false (h : NoDigit rest) : startsWithDigit rest = false := by
  cases rest with
  | nil => rfl
  | cons c rest => exact h c rfl

/-- **A number written in digits is read back** if it fits in 64 bits. -/
theorem number_digitsOf (negative : Bool) {n : Nat} (hn : n ≤ greatestSignificand)
    (hrest : Delimited rest) :
    number negative (digitsOf n ++ rest) = .ok (wholeScalar negative n, rest) := by
  by_cases hzero : n = 0
  · subst hzero
    show number negative ('0' :: rest) = _
    rw [number, if_pos rfl, startsWithDigit_eq_false hrest.noDigit, if_neg Bool.false_ne_true,
      numberEnd_whole _ _ hrest]
  · have hread := boundedDigits_digitsOf hn hrest.noDigit
    obtain ⟨c, cs, hcons⟩ := List.exists_cons_of_length_pos (length_digitsOf_pos n)
    have hc : c.isDigit = true := isDigit_of_mem_digitsOf (n := n) (hcons ▸ List.mem_cons_self)
    rw [hcons, List.cons_append] at hread ⊢
    rw [number, if_neg (digitsOf_cons_ne_zero hzero hcons), if_pos hc, hread]
    show numberEnd negative n (rest.takeWhile Char.isDigit).length (rest.dropWhile Char.isDigit) = _
    rw [TimeField.takeWhile_of_noDigit hrest.noDigit, TimeField.dropWhile_of_noDigit hrest.noDigit]
    exact numberEnd_whole _ _ hrest

theorem scalar_cons_of_isDigit (hc : c.isDigit = true) (cs : List Char) :
    scalar (c :: cs) = number false (c :: cs) := by
  have hc' : c ∉ ['n', 't', 'f', '-'] := notMem_of_isDigit hc (by decide)
  rw [scalar, if_neg (ne_of_notMem hc' (by decide)), if_neg (ne_of_notMem hc' (by decide)),
    if_neg (ne_of_notMem hc' (by decide)), if_neg (ne_of_notMem hc' (by decide)), if_pos hc]

/-- The whole numbers that fit in 64 bits, with a sign or without. -/
def Fits (value : Int) : Prop := -Int.pow 2 63 ≤ value ∧ value < Int.pow 2 64

instance (value : Int) : Decidable (Fits value) := inferInstanceAs (Decidable (_ ∧ _))

theorem fits_iff {value : Int} :
    Fits value ↔ -9223372036854775808 ≤ value ∧ value < 18446744073709551616 := Iff.rfl

theorem readsScalar_int {value : Int} (h : Fits value) :
    ReadsScalar (intText value) (.int value) := by
  have hgreatest : greatestSignificand = 18446744073709551615 := rfl
  have hleast : Nat.pow 2 63 = 9223372036854775808 := rfl
  rw [fits_iff] at h
  have hfits : value.natAbs ≤ greatestSignificand := by omega
  unfold intText
  split_ifs with hnegative
  · refine ⟨⟨'-', _, rfl, by decide⟩, fun rest hrest => ?_⟩
    show number true (digitsOf value.natAbs ++ rest) = _
    rw [number_digitsOf true hfits hrest, wholeScalar, if_pos rfl, if_pos (by omega),
      Int.ofNat_natAbs_of_nonpos hnegative.le, Int.neg_neg]
  · obtain ⟨c, cs, hcons⟩ := List.exists_cons_of_length_pos (length_digitsOf_pos value.natAbs)
    have hc : c.isDigit = true :=
      isDigit_of_mem_digitsOf (n := value.natAbs) (hcons ▸ List.mem_cons_self)
    refine ⟨⟨c, cs, hcons, notMem_of_isDigit hc (by decide)⟩, fun rest hrest => ?_⟩
    have hread := number_digitsOf false hfits hrest
    rw [hcons, List.cons_append] at hread ⊢
    rw [scalar_cons_of_isDigit hc, hread, wholeScalar, if_neg Bool.false_ne_true,
      Int.natAbs_of_nonneg (Int.not_lt.mp hnegative)]

/-! ### Strings -/

theorem hexValue?_hexDigit : ∀ n < 16, hexValue? (hexDigit n) = some n := by decide

/-- A control character is read back from the escape by its number. -/
theorem unicodeEscape_control (hc : c.toNat < 0x20) (rest : List Char) :
    unicodeEscape ('0' :: '0' :: hexDigit (c.toNat / 16) :: hexDigit (c.toNat % 16) :: rest) =
      .ok (c, rest) := by
  have hunit : codeUnit ('0' :: '0' :: hexDigit (c.toNat / 16) :: hexDigit (c.toNat % 16) :: rest) =
      .ok (c.toNat, rest) := by
    have hhigh := hexValue?_hexDigit (c.toNat / 16) (by omega)
    have hlow := hexValue?_hexDigit (c.toNat % 16) (by omega)
    have hvalue : ((0 * 16 + 0) * 16 + c.toNat / 16) * 16 + c.toNat % 16 = c.toNat := by omega
    have hzero : hexValue? '0' = some 0 := rfl
    rw [codeUnit, fourHexDigits?, hzero, hhigh, hlow]
    show Except.ok (((0 * 16 + 0) * 16 + c.toNat / 16) * 16 + c.toNat % 16, rest) = _
    rw [hvalue]
  have htrailing : isTrailingUnit c.toNat = false := decide_eq_false (by omega)
  have hleading : isLeadingUnit c.toNat = false := decide_eq_false (by omega)
  rw [unicodeEscape, hunit]
  show (if isTrailingUnit c.toNat = true then _ else _) = _
  rw [htrailing, if_neg Bool.false_ne_true, hleading]
  show Except.ok (Char.ofNat c.toNat, rest) = _
  rw [Char.ofNat_toNat]

theorem namedEscape?_escapeLetter {letter : Char} (h : escapeLetter? c = some letter) :
    letter ≠ 'u' ∧ namedEscape? letter = some c := by
  unfold escapeLetter? at h
  split_ifs at h <;> cases h <;> subst c <;> exact ⟨by decide, rfl⟩

/-- A character of a string that is not escaped. -/
theorem stringBody_plain (hquote : c ≠ '\x22') (hbackslash : c ≠ '\x5c') (hc : 0x20 ≤ c.toNat)
    (fuel : Nat) (cs : List Char) : stringBody (fuel + 1) (c :: cs) =
      (fun (more, rest) => (c :: more, rest)) <$> stringBody fuel cs := by
  rw [stringBody, if_neg hquote, if_neg hbackslash, if_neg (Nat.not_lt.mpr hc)]
  rfl

/-- A character of a string that an escape yields. -/
theorem stringBody_escape (h : escape cs = .ok (c, rest)) (fuel : Nat) :
    stringBody (fuel + 1) ('\x5c' :: cs) =
      (fun (more, rest) => (c :: more, rest)) <$> stringBody fuel rest := by
  rw [stringBody, if_neg (by decide), if_pos rfl, h]
  rfl

/-- **Every character is read back from inside a string.** -/
theorem stringBody_escapeChar (fuel : Nat) (c : Char) (cs : List Char) :
    stringBody (fuel + 1) (escapeChar c ++ cs) =
      (fun (more, rest) => (c :: more, rest)) <$> stringBody fuel cs := by
  unfold escapeChar
  split_ifs with hmark hplain
  · refine stringBody_escape ?_ fuel
    rcases hmark with rfl | rfl <;> rfl
  · obtain ⟨hquote, hbackslash⟩ := not_or.mp hmark
    exact stringBody_plain hquote hbackslash hplain fuel cs
  · split
    · rename_i letter hletter
      obtain ⟨hu, hnamed⟩ := namedEscape?_escapeLetter hletter
      refine stringBody_escape ?_ fuel
      show escape (letter :: cs) = _
      rw [escape, if_neg hu, hnamed]
    · refine stringBody_escape ?_ fuel
      show unicodeEscape _ = _
      exact unicodeEscape_control (Nat.lt_of_not_le hplain) cs

theorem stringBody_append : ∀ {cs : List Char} {fuel : Nat}, cs.length < fuel →
    stringBody fuel (cs.flatMap escapeChar ++ '\x22' :: rest) = .ok (cs, rest)
  | [], fuel + 1, _ => rfl
  | c :: cs, fuel + 1, h => by
    rw [List.flatMap_cons, List.append_assoc, stringBody_escapeChar,
      stringBody_append (Nat.lt_of_succ_lt_succ h)]
    rfl

theorem length_le_flatMap_escapeChar : ∀ cs : List Char,
    cs.length ≤ (cs.flatMap escapeChar).length
  | [] => le_rfl
  | c :: cs => by
    have ih := length_le_flatMap_escapeChar cs
    have hpos : 1 ≤ (escapeChar c).length := by
      unfold escapeChar
      split_ifs
      · exact Nat.le_add_left 1 1
      · exact le_rfl
      · split <;> exact Nat.le_add_left 1 _
    rw [List.flatMap_cons, List.length_append, List.length_cons]
    omega

/-- **A string is read back**, whatever its characters. -/
theorem stringAfterQuote_append (value : String) (rest : List Char) :
    stringAfterQuote (value.toList.flatMap escapeChar ++ '\x22' :: rest) = .ok (value, rest) := by
  have hlength := length_le_flatMap_escapeChar value.toList
  have hbody : stringBody ((value.toList.flatMap escapeChar ++ '\x22' :: rest).length + 1)
      (value.toList.flatMap escapeChar ++ '\x22' :: rest) = .ok (value.toList, rest) := by
    refine stringBody_append ?_
    rw [List.length_append]
    omega
  rw [stringAfterQuote, hbody]
  show Except.ok (String.ofList value.toList, rest) = _
  rw [String.ofList_toList]

theorem stringText_append (value : String) (rest : List Char) : stringText value ++ rest =
    '\x22' :: (value.toList.flatMap escapeChar ++ '\x22' :: rest) := by
  rw [stringText, List.cons_append, List.cons_append, List.append_assoc, List.singleton_append]

theorem readsScalar_string (value : String) : ReadsScalar (stringText value) (.string value) := by
  refine ⟨⟨'\x22', _, rfl, by decide⟩, fun rest _ => ?_⟩
  rw [stringText_append]
  show (stringAfterQuote (value.toList.flatMap escapeChar ++ '\x22' :: rest) >>= _) = _
  rw [stringAfterQuote_append]
  rfl

end EntityTable.Codec.Json
