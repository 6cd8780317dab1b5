import EntityTable.Proofs.Source.Gaps
import EntityTable.Proofs.Source.Spelling

/-! # Texts that are identifiers

A text is an identifier if one word stands between its gaps, and that word is then the name. A raw
word at the very start of the text is refused, but not one that a gap precedes. Main statement:
`identifier?_eq_some_iff`. -/

namespace EntityTable.Source

open Lexer Text

namespace Lexer

/-- The text that may stand before the first token. -/
inductive IsFirstGap : List Char → Prop
  | gap {text : List Char} (h : IsGap text) : IsFirstGap text
  | mark {text : List Char} (h : IsGap text) : IsFirstGap ('\ufeff' :: text)

variable {c : Char} {cs rest final front back gap w : List Char} {name : String} {fuel : Nat}
  {tokens : List Token}

/-! ### The ends of words -/

theorem of_isSeparator (hc : isSeparator c = true) :
    Identifier.isContinue c = false ∧ c ∉ literalMarks := by
  have hspans : ∀ p ∈ CodePointSet.spans blankTable.changes, ∀ n < p.2 - p.1,
      Identifier.isContinue (Char.ofNat (p.1 + n)) = false ∧
        Char.ofNat (p.1 + n) ∉ literalMarks := by decide +kernel
  have hmarks : ∀ n ∈ [0x200e, 0x200f], Identifier.isContinue (Char.ofNat n) = false ∧
      Char.ofNat n ∉ literalMarks := by decide +kernel
  rw [isSeparator, Bool.or_eq_true, Bool.or_eq_true, beq_iff_eq, beq_iff_eq, or_assoc] at hc
  rcases hc with hblank | hmark
  · obtain ⟨p, hp, hfirst, hlast⟩ :=
      CodePointSet.exists_span_of_contains (by decide) (by decide) hblank
    have hp := hspans p hp (c.toNat - p.1) (by omega)
    rwa [Nat.add_sub_cancel' hfirst, Char.ofNat_toNat] at hp
  · have hmem : c.toNat ∈ [0x200e, 0x200f] := by simpa using hmark
    have hc := hmarks c.toNat hmem
    rwa [Char.ofNat_toNat] at hc

theorem IsGap.endsWord_append (h : IsGap gap) (hrest : EndsWord rest) : EndsWord (gap ++ rest) := by
  cases h with
  | nil => exact hrest
  | blank hc _ => rintro _ ⟨⟩; exact of_isSeparator hc
  | line _ _ => rintro _ ⟨⟩; decide
  | block _ _ => rintro _ ⟨⟩; decide

/-- No word goes on into a gap. -/
theorem IsLastGap.endsWord (h : IsLastGap back) : EndsWord back := by
  cases h with
  | gap h =>
    have hends : EndsWord (back ++ []) := h.endsWord_append (by rintro _ ⟨⟩)
    rwa [List.append_nil] at hends
  | line h _ => exact h.endsWord_append (by rintro _ ⟨⟩; decide)

/-! ### Reading gaps and words -/

theorem sequence_congr (h : skip cs = skip rest) (fuel : Nat) :
    sequence fuel cs = sequence fuel rest := by
  cases fuel with
  | zero => rfl
  | succ fuel => rw [sequence, sequence, h]

theorem Reads.afterGap (hgap : IsGap gap) (h : Reads rest tokens final) :
    Reads (gap ++ rest) tokens final := by
  have hlength := h.1
  refine ⟨?_, fun fuel hfuel => ?_⟩
  · rw [List.length_append]
    omega
  · rw [List.length_append] at hfuel
    rw [sequence_congr (skip_gap hgap rest), h.2 fuel (by omega)]

theorem reads_lastGap (h : IsLastGap back) : Reads back [] [] := by
  refine ⟨Nat.zero_le _, fun fuel hfuel => ?_⟩
  have hsame : sequence fuel back = sequence fuel [] := sequence_congr h.skip fuel
  rw [hsame, reads_nil.2 fuel (by rw [List.length_nil]; omega)]

theorem Reads.wordAndGap (hw : IsWord w) (h : IsLastGap back) :
    Reads (w ++ back) [.word (String.ofList w)] [] := by
  have hleaf := leaf?_word hw h.endsWord
  obtain ⟨c, cs, rfl, hstart⟩ := hw.exists_cons
  exact Reads.leaf _ (startsLeaf_of_isStart hstart) hleaf (reads_lastGap h)

/-- **A word between gaps is the only token.** -/
theorem ofText?_of_word {text : String} (htext : text.toList = front ++ (w ++ back))
    (hfront : IsFirstGap front) (hw : IsWord w) (hback : IsLastGap back) :
    Token.ofText? text = some [.word (String.ofList w)] := by
  have hword := Reads.wordAndGap hw hback
  cases hfront with
  | gap h => exact ofText?_of_reads (htext ▸ hword.afterGap h)
  | @mark gap h =>
    have htokens := (hword.afterGap h).2 (text.length + 1) (by
      rw [← String.length_toList, htext, List.cons_append, List.length_cons]
      omega)
    have hmark : dropByteOrderMark text.toList = gap ++ (w ++ back) := by
      rw [htext]
      rfl
    rw [Token.ofText?, hmark, htokens]

/-! ### What is read -/

theorem eq_append_of_word? (h : word? cs = some (w, rest)) : cs = w ++ rest := by
  unfold word? at h
  split at h
  · split at h
    · cases h
      rw [List.cons_append, List.takeWhile_append_dropWhile]
    · cases h
  · cases h

theorem eq_append_of_identifier? (h : identifier? cs = some (name, rest)) :
    cs = name.toList ++ rest := by
  unfold identifier? anyWord? at h
  split at h
  · cases h
  · split at h
    · obtain ⟨⟨w, after⟩, hword, h⟩ := Option.bind_eq_some_iff.mp h
      dsimp only at h
      split at h
      · cases h
      · cases h
        rw [eq_append_of_word? hword]
        simp
    · obtain ⟨⟨w, after⟩, hword, h⟩ := Option.map_eq_some_iff.mp h
      cases h
      rw [eq_append_of_word? hword, String.toList_ofList]

/-- A documentation comment starts with a mark. -/
theorem exists_of_doc? {doc : List Token} (h : doc? cs = some (doc, rest)) :
    ∃ more, doc = .punct '#' false :: more := by
  unfold doc? at h
  split at h
  · split at h
    · cases h
    · cases h
      exact ⟨_, rfl⟩
  · cases h

/-- The tokens of a text: none if it is a gap, or else the first is no word, or it is a token that
is no group and the others are those of what is left. -/
theorem cases_of_sequence (h : sequence (fuel + 1) cs = some (tokens, [])) :
    (skip cs = [] ∧ tokens = []) ∨
    (∃ token more, tokens = token :: more ∧ ∀ name, token ≠ .word name) ∨
    ∃ token more rest, tokens = token :: more ∧ skip cs ≠ [] ∧
      leaf? (skip cs) = some (token, rest) ∧ sequence fuel rest = some (more, []) := by
  rw [sequence] at h
  split at h
  · rename_i doc rest hdoc
    obtain ⟨⟨more, after⟩, -, heq⟩ := Option.bind_eq_some_iff.mp h
    obtain ⟨others, rfl⟩ := exists_of_doc? hdoc
    cases heq
    exact .inr (.inl ⟨_, _, rfl, fun _ heq => by cases heq⟩)
  · split at h
    · rename_i hskip
      cases h
      exact .inl ⟨hskip, rfl⟩
    · rename_i c rest hskip
      rw [hskip] at h ⊢
      split at h
      · obtain ⟨⟨body, after⟩, -, heq⟩ := Option.bind_eq_some_iff.mp h
        dsimp only at heq
        split at heq
        · split at heq
          · obtain ⟨⟨more, last⟩, -, heq⟩ := Option.bind_eq_some_iff.mp heq
            cases heq
            exact .inr (.inl ⟨_, _, rfl, fun _ heq => by cases heq⟩)
          · cases heq
        · cases heq
      · split at h
        · cases h
        · obtain ⟨⟨token, after⟩, hleaf, heq⟩ := Option.bind_eq_some_iff.mp h
          obtain ⟨⟨more, last⟩, hmore, heq⟩ := Option.bind_eq_some_iff.mp heq
          cases heq
          exact .inr (.inr ⟨token, more, after, rfl, List.cons_ne_nil _ _, hleaf, hmore⟩)

/-- A text without tokens is a gap. -/
theorem isLastGap_of_sequence (h : sequence fuel cs = some ([], [])) : IsLastGap cs := by
  cases fuel with
  | zero => cases h
  | succ fuel =>
    rcases cases_of_sequence h with ⟨hskip, -⟩ | ⟨_, _, heq, -⟩ | ⟨_, _, _, heq, -⟩
    · exact skip_eq_nil_iff.mp hskip
    · cases heq
    · cases heq

/-- A text of one word is that word between gaps. -/
theorem exists_of_sequence_word (h : sequence fuel cs = some ([.word name], [])) :
    ∃ gap back, cs = gap ++ (name.toList ++ back) ∧ IsGap gap ∧ IsWord name.toList ∧
      IsLastGap back := by
  cases fuel with
  | zero => cases h
  | succ fuel =>
    rcases cases_of_sequence h with ⟨-, heq⟩ | ⟨token, more, heq, hne⟩ |
      ⟨token, more, back, heq, hne, hleaf, hmore⟩
    · cases heq
    · cases heq
      exact absurd rfl (hne name)
    · cases heq
      have hname := leaf?_eq_word hleaf
      obtain ⟨gap, hgap, hcs⟩ := exists_gap_of_skip rfl hne
      rw [eq_append_of_identifier? hname] at hcs
      exact ⟨gap, back, hcs, hgap, isWord_of_identifier? hname, isLastGap_of_sequence hmore⟩

/-- **The tokens of a text are one word exactly if that word stands between gaps.** -/
theorem ofText?_eq_word_iff {text : String} : Token.ofText? text = some [.word name] ↔
    IsWord name.toList ∧ ∃ front back, text.toList = front ++ (name.toList ++ back) ∧
      IsFirstGap front ∧ IsLastGap back := by
  constructor
  · intro h
    unfold Token.ofText? at h
    split at h
    · rename_i hsequence
      cases h
      obtain ⟨gap, back, heq, hgap, hword, hback⟩ := exists_of_sequence_word hsequence
      refine ⟨hword, ?_⟩
      unfold dropByteOrderMark at heq
      split at heq
      · rename_i hmark
        exact ⟨'\ufeff' :: gap, back, by rw [hmark, heq]; rfl, .mark hgap, hback⟩
      · exact ⟨gap, back, heq, .gap hgap, hback⟩
    · cases h
  · rintro ⟨hword, front, back, htext, hfront, hback⟩
    rw [ofText?_of_word htext hfront hword hback, String.ofList_toList]

theorem IsFirstGap.head (h : IsFirstGap front) : ∀ c ∈ front.head?, c ≠ 'r' := by
  have hgap {gap : List Char} (h : IsGap gap) : ∀ c ∈ gap.head?, c ≠ 'r' := by
    cases h with
    | nil => nofun
    | blank hc _ =>
      rintro _ ⟨⟩ rfl
      exact absurd hc (by decide)
    | line _ _ => rintro _ ⟨⟩; decide
    | block _ _ => rintro _ ⟨⟩; decide
  cases h with
  | gap h => exact hgap h
  | mark h => rintro _ ⟨⟩; decide

end Lexer

/-! ### Identifiers -/

/-- The name is a raw identifier. -/
def IsRaw (name : String) : Prop := ['r', '#'] <+: name.toList

theorem identOfText_eq_ok_iff {text name : String} : identOfText text = .ok name ↔
    Token.ofText? text = some [.word name] ∧ keywords.contains name = false := by
  unfold identOfText Parser.runText
  cases htokens : Token.ofText? text with
  | none => simp
  | some tokens =>
    dsimp only
    rw [Option.some.injEq]
    constructor
    · exact eq_word_of_ident
    · rintro ⟨rfl, hkeyword⟩
      exact (Parser.yields_ident hkeyword []).runAll

theorem not_isRaw_of_isPlainWord {name : String} (h : isPlainWord name.toList = true) :
    ¬ IsRaw name := by
  rintro ⟨rest, heq⟩
  rw [← heq] at h
  exact absurd h (by simp [isPlainWord, show Identifier.isContinue '#' = false by decide])

theorem isPlainWord_of_not_isRaw {name : String} (hword : IsWord name.toList) (h : ¬ IsRaw name) :
    isPlainWord name.toList = true := by
  generalize hname : name.toList = w at hword
  cases hword with
  | plain hstart hrest => simpa [isPlainWord, hstart] using hrest
  | raw _ _ _ => exact absurd ⟨_, hname.symm⟩ h

/-- A text starts like a raw word if such a word is at its very start. -/
theorem isPrefix_iff {name : String} {front back : List Char} (hword : IsWord name.toList)
    (hfront : IsFirstGap front) (hback : IsLastGap back) :
    ['r', '#'] <+: front ++ (name.toList ++ back) ↔ IsRaw name ∧ front = [] := by
  constructor
  · intro h
    cases front with
    | cons c front =>
      rw [List.cons_append, List.cons_prefix_cons] at h
      exact absurd h.1.symm (hfront.head c rfl)
    | nil =>
      rw [List.nil_append] at h
      refine ⟨?_, rfl⟩
      by_contra hraw
      have hplain := isPlainWord_of_not_isRaw hword hraw
      cases hname : name.toList with
      | nil => rw [hname] at hplain; cases hplain
      | cons c cs =>
        rw [hname] at hplain h
        obtain ⟨-, hrest⟩ := Bool.and_eq_true_iff.mp hplain
        have htail : WordTail (cs ++ back) :=
          ⟨cs, back, rfl, List.all_eq_true.mp hrest, hback.endsWord⟩
        have hmark := htail.not_isPrefixOf (d := '#') (by decide) []
        rw [List.cons_append, List.cons_prefix_cons, ← List.isPrefixOf_iff_prefix, hmark] at h
        cases h.2
  · rintro ⟨hraw, rfl⟩
    exact hraw.trans (List.prefix_append ..)

/-- **A text is an identifier exactly if one word that is no keyword stands between gaps**, and the
name is that word. It may be a raw one, unless it is at the very start of the text. -/
theorem identifier?_eq_some_iff {text name : String} : identifier? text = some name ↔
    IsNameText name.toList ∧ ∃ front back, text.toList = front ++ (name.toList ++ back) ∧
      IsFirstGap front ∧ IsLastGap back ∧ (IsRaw name → front ≠ []) := by
  have hiff : identifier? text = some name ↔
      ¬ ['r', '#'] <+: text.toList ∧ identOfText text = .ok name := by
    unfold identifier?
    rw [← toOption_eq_some, ← List.isPrefixOf_iff_prefix]
    split <;> simp [*]
  rw [hiff, identOfText_eq_ok_iff, ofText?_eq_word_iff]
  constructor
  · rintro ⟨hstarts, ⟨hword, front, back, htext, hfront, hback⟩, hkeyword⟩
    refine ⟨⟨hword, by rwa [String.ofList_toList]⟩, front, back, htext, hfront, hback, ?_⟩
    rintro hraw rfl
    rw [htext] at hstarts
    exact hstarts ((isPrefix_iff hword hfront hback).mpr ⟨hraw, rfl⟩)
  · rintro ⟨⟨hword, hkeyword⟩, front, back, htext, hfront, hback, hraw⟩
    rw [String.ofList_toList] at hkeyword
    refine ⟨?_, ⟨hword, front, back, htext, hfront, hback⟩, hkeyword⟩
    rw [htext, isPrefix_iff hword hfront hback]
    rintro ⟨h, hnil⟩
    exact hraw h hnil

end EntityTable.Source
