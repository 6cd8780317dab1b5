import EntityTable.Proofs.Text.Words
import EntityTable.Text.Identifier
import Mathlib.Data.List.Chain

/-! # Upper case in identifiers

What may stand in an identifier may also stand there in upper case. The tables are compared by their
intervals: the images of a run of case mappings lie in one interval of the characters of
identifiers, or each in some interval, unless the run has no such character at all
(`isContinue_of_mem_upperOf`). In upper snake case a name has just its characters in upper case, and
low lines (`mem_of_mem_upperSnakeCase`). -/

namespace EntityTable.Text

open Identifier (isContinue isStart continueTable startTable)

/-- The code point that one of the run is mapped to. -/
def CaseRun.image (r : CaseRun) (n : Nat) : Nat := (n + r.distance).toNat

/-- The code point may stand in an identifier, as its interval or its place in ASCII tells. -/
def isWordPoint (n : Nat) : Bool :=
  continueTable.covers n n || (Nat.blt n 0x80 && isContinue (Char.ofNat n))

/-- The images of the run may stand in identifiers, or its code points may not. -/
def CaseRun.keepsWords (r : CaseRun) : Bool :=
  continueTable.covers (r.image r.first) (r.image r.last) ||
  (List.range ((r.last - r.first) / r.step + 1)).all
    (fun k => isWordPoint (r.image (r.first + r.step * k))) ||
  continueTable.avoids r.first r.last

/-- What is evaluated on the tables of identifiers. -/
theorem identifierTables_ordered :
    continueTable.changes.IsChain (· < ·) ∧ continueTable.changes.length % 2 = 0 ∧
    startTable.changes.length % 2 = 0 ∧
    (∀ p ∈ CodePointSet.spans continueTable.changes, p.1 ≤ p.2 ∧ 0x80 ≤ p.1 ∧
      (p.2 ≤ 0xd800 ∨ (0xe000 ≤ p.1 ∧ p.2 ≤ 0x110000))) ∧
    (∀ p ∈ CodePointSet.spans startTable.changes, p.1 ≤ p.2) ∧
    CodePointSet.spansWithin (CodePointSet.spans continueTable.changes)
      (CodePointSet.spans startTable.changes) = true ∧
    ∀ n < 0x80, isStart (Char.ofNat n) = true → isContinue (Char.ofNat n) = true := by
  decide +kernel

theorem isContinue_of_mem_spans {c : Char} {p : Nat × Nat} (hascii : ¬ c.toNat < 0x80)
    (hp : p ∈ CodePointSet.spans continueTable.changes) (hfirst : p.1 ≤ c.toNat)
    (hlast : c.toNat < p.2) : isContinue c = true := by
  rw [isContinue, if_neg hascii]
  exact CodePointSet.contains_of_mem_spans
    (List.isChain_iff_pairwise.mp identifierTables_ordered.1) hp hfirst hlast

theorem isContinue_of_covers {first last n : Nat} (h : continueTable.covers first last = true)
    (hfirst : first ≤ n) (hlast : n ≤ last) : isContinue (Char.ofNat n) = true := by
  obtain ⟨-, -, -, hspans, -⟩ := identifierTables_ordered
  obtain ⟨p, hp, hpfirst, hplast⟩ := CodePointSet.exists_span_of_covers h
  obtain ⟨-, hascii, hvalid⟩ := hspans p hp
  have hvalue : (Char.ofNat n).toNat = n := by
    have hn : n.isValidChar := by
      unfold Nat.isValidChar
      omega
    rw [Char.ofNat, dif_pos hn]
    rfl
  exact isContinue_of_mem_spans (by omega) hp (by omega) (by omega)

theorem isContinue_of_isWordPoint {n : Nat} (h : isWordPoint n = true) :
    isContinue (Char.ofNat n) = true := by
  rcases Bool.or_eq_true_iff.mp h with h | h
  · exact isContinue_of_covers h (Nat.le_refl n) (Nat.le_refl n)
  · exact (Bool.and_eq_true_iff.mp h).2

variable {c d : Char}

theorem exists_span_of_isContinue (hc : isContinue c = true) (hascii : ¬ c.toNat < 0x80) :
    ∃ p ∈ CodePointSet.spans continueTable.changes, p.1 ≤ c.toNat ∧ c.toNat < p.2 := by
  obtain ⟨-, heven, -, hspans, -⟩ := identifierTables_ordered
  rw [isContinue, if_neg hascii] at hc
  exact CodePointSet.exists_span_of_contains heven (fun p hp => (hspans p hp).1) hc

theorem isContinue_of_isStart (h : isStart c = true) : isContinue c = true := by
  obtain ⟨-, -, heven, -, hordered, hwithin, hstart⟩ := identifierTables_ordered
  by_cases hascii : c.toNat < 0x80
  · have hc := hstart c.toNat hascii
    rw [Char.ofNat_toNat] at hc
    exact hc h
  · rw [isStart, if_neg hascii] at h
    obtain ⟨q, hq, hfirst, hlast⟩ := CodePointSet.exists_span_of_contains heven hordered h
    obtain ⟨p, hp, hpfirst, hplast⟩ := CodePointSet.exists_span_of_spansWithin hwithin hq
    exact isContinue_of_mem_spans hascii hp (by omega) (by omega)

theorem CaseRun.isContinue_map? {r : CaseRun} (hr : r.keepsWords = true) {n : Nat}
    (hc : isContinue c = true) (hascii : ¬ c.toNat < 0x80) (h : r.map? c.toNat = some n) :
    isContinue (Char.ofNat n) = true := by
  unfold CaseRun.map? at h
  split_ifs at h with hrun
  obtain ⟨hfirst, hlast, hstep⟩ := hrun
  have hn : n = r.image c.toNat := (Option.some.inj h).symm
  rw [keepsWords, Bool.or_eq_true, Bool.or_eq_true] at hr
  rcases hr with (hcovers | hall) | havoids
  · have hbelow : r.image r.first ≤ n ∧ n ≤ r.image r.last := by
      rw [hn]
      unfold image
      omega
    exact isContinue_of_covers hcovers hbelow.1 hbelow.2
  · have hk : c.toNat = r.first + r.step * ((c.toNat - r.first) / r.step) := by
      have hdiv := Nat.div_add_mod (c.toNat - r.first) r.step
      omega
    have hbound : (c.toNat - r.first) / r.step ≤ (r.last - r.first) / r.step :=
      Nat.div_le_div_right (by omega)
    have hpoint := List.all_eq_true.mp hall _ (List.mem_range.mpr (Nat.lt_succ_of_le hbound))
    rw [← hk, ← hn] at hpoint
    exact isContinue_of_isWordPoint hpoint
  · obtain ⟨p, hp, hpfirst, hplast⟩ := exists_span_of_isContinue hc hascii
    have hout := CodePointSet.outside_of_avoids havoids hp
    omega

/-- What is evaluated on the case mappings. -/
theorem upperTables_keepWords : upperRuns.all CaseRun.keepsWords = true ∧
    (∀ p ∈ upperSequences, ∀ n ∈ p.2, isWordPoint n = true) ∧
    ∀ n < 0x80, isContinue (Char.ofNat n) = true → isContinue (Char.ofNat n).toUpper = true := by
  decide +kernel

/-- **What may stand in an identifier may stand there in upper case.** -/
theorem isContinue_of_mem_upperOf (hc : isContinue c = true) (hd : d ∈ upperOf c) :
    isContinue d = true := by
  obtain ⟨hruns, hsequences, hupper⟩ := upperTables_keepWords
  unfold upperOf at hd
  split_ifs at hd with hascii
  · have himage := hupper c.toNat hascii
    rw [Char.ofNat_toNat] at himage
    rw [List.mem_singleton.mp hd]
    exact himage hc
  · rcases exists_image_of_mem_mapCase hd with rfl | ⟨p, hp, n, hn, rfl⟩ | ⟨r, hr, n, hmap, rfl⟩
    · exact hc
    · exact isContinue_of_isWordPoint (hsequences p hp n hn)
    · exact CaseRun.isContinue_map? (List.all_eq_true.mp hruns r hr) hc hascii hmap

/-! ### Names in upper snake case -/

variable {name : String} {signed : List (List Char × WordSign)} {cluster : List Char}

/-- Cutting into words drops the separators and nothing else. -/
theorem flatten_wordsOf : ∀ signed : List (List Char × WordSign), (wordsOf signed).flatten =
    (signed.filter fun p => decide (p.2 ≠ .separator)).flatMap Prod.fst
  | [] => rfl
  | (cluster, sign) :: rest => by
    have ih := flatten_wordsOf rest
    have hne := wordsOf_ne_nil rest
    unfold wordsOf
    split_ifs with hseparator hends
    · simp [ih, hseparator]
    · simp [ih, hseparator]
    · dsimp only
      split
      · rename_i word more hwords
        rw [hwords] at ih
        rw [List.filter_cons_of_pos (by simpa using hseparator), List.flatMap_cons, ← ih]
        simp
      · exact absurd ‹_› hne

/-- The characters that separate words. -/
def wordSeparators : List Char := ['_', '-', ' ']

theorem of_eq_separator (h : WordSign.of cluster = .separator) :
    ∃ c ∈ wordSeparators, cluster = [c] := by
  unfold WordSign.of at h
  split at h
  · exact ⟨'_', by decide, rfl⟩
  · exact ⟨'-', by decide, rfl⟩
  · exact ⟨' ', by decide, rfl⟩
  · dsimp only at h
    split_ifs at h

theorem mem_words {word : List Char} (hword : word ∈ words name) (hc : c ∈ word) :
    c ∈ name.toList := by
  have hmem : c ∈ (words name).flatten := List.mem_flatten.mpr ⟨word, hword, hc⟩
  rw [words, flatten_wordsOf] at hmem
  obtain ⟨p, hp, hc⟩ := List.mem_flatMap.mp hmem
  obtain ⟨cluster, hcluster, rfl⟩ := List.mem_map.mp (List.mem_filter.mp hp).1
  rw [← flatten_clusters name.toList]
  exact List.mem_flatten.mpr ⟨cluster, hcluster, hc⟩

theorem exists_word_of_mem (hc : c ∈ name.toList) (hseparator : c ∉ wordSeparators) :
    ∃ word ∈ words name, c ∈ word := by
  rw [← flatten_clusters name.toList] at hc
  obtain ⟨cluster, hcluster, hmem⟩ := List.mem_flatten.mp hc
  have hsign : WordSign.of cluster ≠ .separator := by
    intro h
    obtain ⟨d, hd, rfl⟩ := of_eq_separator h
    rw [List.mem_singleton.mp hmem] at hseparator
    exact hseparator hd
  have hflat : c ∈ (words name).flatten := by
    rw [words, flatten_wordsOf]
    exact List.mem_flatMap.mpr ⟨(cluster, .of cluster), List.mem_filter.mpr
      ⟨List.mem_map.mpr ⟨cluster, hcluster, rfl⟩, by simpa using hsign⟩, hmem⟩
  exact List.mem_flatten.mp hflat

theorem mem_intercalate_of_mem {sep : List Char} : ∀ {texts : List (List Char)} {text : List Char},
    text ∈ texts → c ∈ text → c ∈ sep.intercalate texts
  | [_], _, h, hc => by
    cases List.mem_singleton.mp h
    rwa [List.intercalate_singleton]
  | first :: second :: more, text, h, hc => by
    rw [List.intercalate_cons_cons]
    rcases List.mem_cons.mp h with rfl | h
    · exact List.mem_append_left _ (List.mem_append_left _ hc)
    · exact List.mem_append_right _ (mem_intercalate_of_mem h hc)

theorem mem_of_mem_intercalate {sep : List Char} : ∀ {texts : List (List Char)},
    c ∈ sep.intercalate texts → c ∈ sep ∨ ∃ text ∈ texts, c ∈ text
  | [], h => by cases h
  | [text], h => by
    rw [List.intercalate_singleton] at h
    exact .inr ⟨text, List.mem_singleton_self text, h⟩
  | first :: second :: more, h => by
    rw [List.intercalate_cons_cons] at h
    rcases List.mem_append.mp h with h | h
    · rcases List.mem_append.mp h with h | h
      · exact .inr ⟨first, List.mem_cons_self, h⟩
      · exact .inl h
    · rcases mem_of_mem_intercalate h with h | ⟨text, htext, hc⟩
      · exact .inl h
      · exact .inr ⟨text, List.mem_cons_of_mem _ htext, hc⟩

/-- What stands in a name in upper snake case. -/
theorem mem_of_mem_upperSnakeCase (hd : d ∈ (upperSnakeCase name).toList) :
    d = '_' ∨ ∃ c ∈ name.toList, d ∈ upperOf c := by
  rw [upperSnakeCase, String.toList_ofList] at hd
  rcases mem_of_mem_intercalate hd with hd | ⟨text, htext, hd⟩
  · exact .inl (List.mem_singleton.mp hd)
  · obtain ⟨word, hword, rfl⟩ := List.mem_map.mp htext
    obtain ⟨c, hc, hd⟩ := List.mem_flatMap.mp hd
    exact .inr ⟨c, mem_words hword hc, hd⟩

theorem mem_upperSnakeCase (hc : c ∈ name.toList) (hseparator : c ∉ wordSeparators)
    (hd : d ∈ upperOf c) : d ∈ (upperSnakeCase name).toList := by
  obtain ⟨word, hword, hmem⟩ := exists_word_of_mem hc hseparator
  rw [upperSnakeCase, String.toList_ofList]
  exact mem_intercalate_of_mem (List.mem_map_of_mem hword) (List.mem_flatMap.mpr ⟨c, hmem, hd⟩)

end EntityTable.Text
