import EntityTable.Proofs.Source.Scanning

/-! # What literals denote

A literal denotes the text that its escapes are undone to. Every text is written as a literal that
denotes it (`value?_quote`): each character is read back by the escape that it is written by, a code
point from its digits, and the zero character is never followed by a digit that would be taken for a
part of its escape. -/

namespace EntityTable.Source.Literal

open Lexer (hexValue?_digitChar length_le_escape)

variable {c : Char} {rest : List Char} {n value fuel : Nat}

/-! ### Code points -/

/-- A digit that is read changes the value read so far. -/
theorem codePoint?_digitChar {d : Nat} (hd : d < 16) :
    codePoint? value (Nat.digitChar d :: rest) = codePoint? (value * 16 + d) rest := by
  obtain ⟨hvalue, hline, hclose⟩ := hexValue?_digitChar d hd
  rw [codePoint?.eq_def]
  split
  · rename_i heq; cases heq
  · rename_i heq; exact absurd (List.cons.inj heq).1 hclose
  · rename_i heq; exact absurd (List.cons.inj heq).1 hline
  · rename_i heq
    obtain ⟨rfl, rfl⟩ := List.cons.inj heq
    rw [hvalue]
    rfl

/-- The digits of a number are read as the number. -/
theorem codePoint?_hexDigits (n : Nat) (rest : List Char) :
    codePoint? 0 (hexDigits n ++ rest) = codePoint? n rest := by
  induction n using Nat.strong_induction_on generalizing rest with
  | h n ih =>
    unfold hexDigits at *
    rcases Nat.lt_or_ge n 16 with hn | hn
    · rw [Nat.toDigits_of_lt_base hn, List.singleton_append, codePoint?_digitChar hn, Nat.zero_mul,
        Nat.zero_add]
    · rw [Nat.toDigits_of_base_le (by decide) hn, List.append_assoc, ih (n / 16) (by omega),
        List.singleton_append, codePoint?_digitChar (Nat.mod_lt _ (by decide)), Nat.div_add_mod']

theorem codePoint?_char (c : Char) (rest : List Char) :
    codePoint? 0 (hexDigits c.toNat ++ '\x7d' :: rest) = some (c, rest) := by
  rw [codePoint?_hexDigits, codePoint?, Char.ofNat_toNat]

/-! ### Characters -/

/-- A character is read back from its escape. -/
theorem unescape_escapeChar (fuel : Nat) (c : Char) (rest : List Char) :
    unescape (fuel + 1) (escapeChar c ++ rest) = (unescape fuel rest).map (c :: ·) := by
  have hsome (d : Char) : ((unescape fuel rest).bind fun cs => some (d :: cs)) =
      (unescape fuel rest).map (d :: ·) := by
    cases unescape fuel rest <;> rfl
  unfold escapeChar
  split
  · rename_i hc
    rcases hc with rfl | rfl <;> exact hsome _
  split
  · rename_i hc
    subst hc
    exact hsome _
  split
  · rename_i hc
    subst hc
    exact hsome _
  split
  · rename_i hc
    subst hc
    exact hsome _
  split
  · have hcode : escapeCode c ++ rest =
        '\x5c' :: 'u' :: '\x7b' :: (hexDigits c.toNat ++ '\x7d' :: rest) := by
      simp [escapeCode]
    rw [hcode]
    show ((codePoint? 0 _).bind fun read =>
      (unescape fuel read.2).bind fun cs => some (read.1 :: cs)) = _
    rw [codePoint?_char]
    exact hsome c
  · -- The character stands for itself: it is neither a quote nor a backslash nor a return.
    rename_i hquote _ hreturn _ _
    rw [not_or] at hquote
    rw [List.singleton_append, unescape.eq_def]
    split <;> simp_all

/-- The zero character is read back from each of its escapes. -/
theorem unescape_zero (fuel : Nat) (isLong : Bool) (rest : List Char) :
    unescape (fuel + 1) ((if isLong then ['\x5c', 'x', '0', '0'] else ['\x5c', '0']) ++ rest) =
      (unescape fuel rest).map (Char.ofNat 0 :: ·) := by
  cases isLong with
  | true =>
    show ((unescape fuel rest).bind fun cs => some (Char.ofNat 0 :: cs)) = _
    cases unescape fuel rest <;> rfl
  | false =>
    show ((unescape fuel rest).bind fun cs => some (Char.ofNat 0 :: cs)) = _
    cases unescape fuel rest <;> rfl

theorem unescape_escape : ∀ {cs rest : List Char} {fuel : Nat}, cs.length < fuel →
    unescape fuel (escape cs ++ '\x22' :: rest) = some cs
  | [], _, fuel + 1, _ => rfl
  | c :: cs, rest, fuel + 1, hfuel => by
    have hrest : unescape fuel (escape cs ++ '\x22' :: rest) = some cs :=
      unescape_escape (Nat.lt_of_succ_lt_succ hfuel)
    rw [escape, List.append_assoc]
    split
    · rename_i hzero
      rw [unescape_zero, hrest, Option.map_some, ← hzero, Char.ofNat_toNat]
    · rw [unescape_escapeChar, hrest, Option.map_some]

/-! ### Texts -/

/-- **Every text is written as a literal that denotes it.** -/
theorem value?_quote (text : String) : value? (quote text) = some text := by
  have htext : (quote text).toList = '\x22' :: (escape text.toList ++ ['\x22']) := by
    simp [quote]
  have hlength := length_le_escape text.toList
  have hbody : unescape ((escape text.toList ++ ['\x22']).length + 1)
      (escape text.toList ++ ['\x22']) = some text.toList :=
    unescape_escape (by simp only [List.length_append]; omega)
  rw [value?, htext]
  show (unescape _ _).map String.ofList = _
  rw [hbody, Option.map_some, String.ofList_toList]

end EntityTable.Source.Literal
