import EntityTable.Proofs.Text.Letters

/-! # Words of plain characters

A plain character has one upper and one lower form and stands alone in its cluster, so that a name
of such characters is cut character by character (`words_eq`), and its words are mapped character by
character (`lower_eq_map`). All of ASCII is plain. No digit stands behind a letter in a word
(`isChain_of_mem_words`). -/

namespace EntityTable.Text

variable {c d u l : Char} {cs word : List Char} {name : String}

/-! ### Plain characters -/

/-- An upper and a lower form that the case mappings turn into each other. A character without case
is both. -/
structure IsCasePair (u l : Char) : Prop where
  upper_upper : upperOf u = [u]
  lower_upper : lowerOf u = [l]
  upper_lower : upperOf l = [u]
  lower_lower : lowerOf l = [l]

instance (u l : Char) : Decidable (IsCasePair u l) :=
  decidable_of_iff (upperOf u = [u] ∧ lowerOf u = [l] ∧ upperOf l = [u] ∧ lowerOf l = [l])
    ⟨fun ⟨h₁, h₂, h₃, h₄⟩ => ⟨h₁, h₂, h₃, h₄⟩, fun ⟨h₁, h₂, h₃, h₄⟩ => ⟨h₁, h₂, h₃, h₄⟩⟩

/-- A character that has one upper and one lower form and stands alone in its cluster. The capital
sigma has two lower forms. -/
structure IsPlain (c : Char) : Prop where
  alone : extendsCluster c = false
  unambiguous : c.toNat ≠ 0x3a3
  paired : ∃ u l, IsCasePair u l ∧ (c = u ∨ c = l)

/-- All characters of the text are plain. -/
def ArePlain (cs : List Char) : Prop := ∀ c ∈ cs, IsPlain c

theorem isCasePair_of_ascii (h : c.toNat < 0x80) : IsCasePair c.toUpper c.toLower ∧
    (c = c.toUpper ∨ c = c.toLower) ∧ (c.isDigit = true → isCased c = false) := by
  have hascii : ∀ n < 0x80, IsCasePair (Char.ofNat n).toUpper (Char.ofNat n).toLower ∧
      (Char.ofNat n = (Char.ofNat n).toUpper ∨ Char.ofNat n = (Char.ofNat n).toLower) ∧
      ((Char.ofNat n).isDigit = true → isCased (Char.ofNat n) = false) := by decide +kernel
  have hc := hascii c.toNat h
  rwa [Char.ofNat_toNat] at hc

/-- All characters of ASCII are plain. -/
theorem isPlain_of_ascii (h : c.toNat < 0x80) : IsPlain c := by
  obtain ⟨hpair, heq, -⟩ := isCasePair_of_ascii h
  exact ⟨by rw [extendsCluster, if_pos h], by omega, _, _, hpair, heq⟩

theorem arePlain_of_ascii (h : cs.all (fun c => c.toNat < 0x80) = true) : ArePlain cs :=
  fun c hc => isPlain_of_ascii (of_decide_eq_true (List.all_eq_true.mp h c hc))

/-- The upper form of a plain character. -/
def capital (c : Char) : Char := (upperOf c).headD c

/-- The lower form of a plain character. -/
def small (c : Char) : Char := (lowerOf c).headD c

/-- A plain character in its lower form. -/
def IsSmall (c : Char) : Prop := IsCasePair (capital c) c

theorem IsPlain.isCasePair (h : IsPlain c) : IsCasePair (capital c) (small c) ∧
    upperOf c = [capital c] ∧ lowerOf c = [small c] := by
  obtain ⟨u, l, hpair, rfl | rfl⟩ := h.paired
  · rw [capital, small, hpair.upper_upper, hpair.lower_upper]
    exact ⟨hpair, rfl, rfl⟩
  · rw [capital, small, hpair.upper_lower, hpair.lower_lower]
    exact ⟨hpair, rfl, rfl⟩

theorem IsPlain.capital_small (h : IsPlain c) : capital (small c) = capital c := by
  rw [capital, h.isCasePair.1.upper_lower]
  rfl

theorem IsPlain.isSmall (h : IsPlain c) : IsSmall (small c) := by
  rw [IsSmall, h.capital_small]
  exact h.isCasePair.1

theorem IsSmall.small_eq (h : IsSmall c) : small c = c := by
  rw [small, h.lower_lower]
  rfl

theorem IsSmall.small_capital (h : IsSmall c) : small (capital c) = c := by
  rw [small, h.lower_upper]
  rfl

/-! ### Letters and digits -/

theorem isCased_of_isDigit (h : c.isDigit = true) : isCased c = false := by
  have hascii : c.toNat < 0x80 := by
    have hbounds : 48 ≤ c.toNat ∧ c.toNat ≤ 57 := by
      simpa [Char.isDigit, UInt32.le_iff_toNat_le] using h
    omega
  exact (isCasePair_of_ascii hascii).2.2 h

theorem IsCasePair.isCased_eq (h : IsCasePair u l) : isCased u = isCased l := by
  rw [isCased, isCased, h.upper_upper, h.lower_upper, h.upper_lower, h.lower_lower]

theorem IsCasePair.isDigit_eq (h : IsCasePair u l) : u.isDigit = l.isDigit := by
  by_cases heq : u = l
  · rw [heq]
  · have hcased : isCased l = true := by
      rw [isCased, h.upper_lower, h.lower_lower]
      simpa using heq
    have hdigit {c : Char} (hc : isCased c = true) : c.isDigit = false := by
      by_contra hdigit
      rw [isCased_of_isDigit (Bool.eq_true_of_not_eq_false hdigit)] at hc
      cases hc
    rw [hdigit hcased, hdigit (h.isCased_eq.trans hcased)]

theorem IsPlain.isCased_small (h : IsPlain c) : isCased (small c) = isCased c := by
  obtain ⟨u, l, hpair, rfl | rfl⟩ := h.paired
  · rw [small, hpair.lower_upper]
    exact hpair.isCased_eq.symm
  · rw [small, hpair.lower_lower]
    rfl

theorem IsPlain.isDigit_small (h : IsPlain c) : (small c).isDigit = c.isDigit := by
  obtain ⟨u, l, hpair, rfl | rfl⟩ := h.paired
  · rw [small, hpair.lower_upper]
    exact hpair.isDigit_eq.symm
  · rw [small, hpair.lower_lower]
    rfl

/-- A letter in its upper form. -/
def isCapital (c : Char) : Bool := isCased c && upperOf c == [c]

theorem IsSmall.isCapital_eq (h : IsSmall c) : isCapital c = false := by
  rw [isCapital, isCased, h.upper_lower, h.lower_lower]
  by_cases heq : capital c = c <;> simp [heq]

theorem IsSmall.isCapital_capital (h : IsSmall c) : isCapital (capital c) = isCased c := by
  rw [isCapital, h.isCased_eq, h.upper_upper]
  simp

/-- A character without case is its own capital. -/
theorem IsSmall.capital_eq (h : IsSmall c) (hcased : isCased c = false) : capital c = c := by
  rw [isCased, h.upper_lower, h.lower_lower] at hcased
  simpa using hcased

/-! ### The words of a plain name -/

/-- The words of a name in lower case. -/
def smallWords (name : String) : List (List Char) := (words name).map lower

/-- A word in lower case with its first character in upper case. -/
def capitalFirst : List Char → List Char
  | [] => []
  | c :: cs => capital c :: cs

theorem lowerAfter_eq_map : ∀ {cs : List Char}, ArePlain cs →
    ∀ before, lowerAfter before cs = cs.map small
  | [], _, _ => rfl
  | c :: cs, h, before => by
    have hc := h c List.mem_cons_self
    rw [lowerAfter, if_neg hc.unambiguous, hc.isCasePair.2.2,
      lowerAfter_eq_map fun d hd => h d (List.mem_cons_of_mem c hd)]
    rfl

theorem lower_eq_map (h : ArePlain cs) : lower cs = cs.map small :=
  lowerAfter_eq_map h []

theorem IsPlain.lower_singleton (hc : IsPlain c) : lower [c] = lowerOf c := by
  have hall : ArePlain [c] := fun d hd => List.mem_singleton.mp hd ▸ hc
  rw [lower_eq_map hall, hc.isCasePair.2.2]
  rfl

theorem clusters_eq_map : ∀ {cs : List Char}, ArePlain cs → clusters cs = cs.map ([·])
  | [], _ => rfl
  | [c], _ => rfl
  | c :: d :: cs, h => by
    have ih := clusters_eq_map fun d hd => h d (List.mem_cons_of_mem c hd)
    have halone : extendsCluster d = false := (h d (by simp)).alone
    unfold clusters
    split
    · rename_i hrest hclusters
      obtain ⟨rfl, rfl⟩ := List.cons.inj hrest
      rw [ih] at hclusters
      rw [halone, if_neg Bool.false_ne_true, ← hclusters]
      rfl
    · rename_i hnone
      exact absurd ih (hnone d cs [d] (cs.map ([·])) rfl)

/-- Upper case forgets the case of a word. -/
theorem upper_lower (h : ArePlain cs) : upper (lower cs) = upper cs := by
  rw [lower_eq_map h, upper, upper, List.flatMap_map]
  refine List.flatMap_congr fun c hc => ?_
  obtain ⟨hpair, hupper, -⟩ := (h c hc).isCasePair
  rw [hpair.upper_lower, hupper]

theorem capitalize_eq (h : ArePlain cs) : capitalize cs = capitalFirst (lower cs) := by
  cases cs with
  | nil => rfl
  | cons c cs =>
    have hc := h c List.mem_cons_self
    have hcs : ArePlain cs := fun d hd => h d (List.mem_cons_of_mem c hd)
    rw [capitalize, clusters_eq_map h, lower_eq_map h, List.map_cons, List.map_cons]
    simp only [capitalFirst]
    rw [← clusters_eq_map hcs, flatten_clusters, lower_eq_map hcs, upper, List.flatMap_singleton,
      hc.isCasePair.2.1, hc.capital_small]
    rfl

section Plain
variable (h : ArePlain name.toList)
include h

theorem arePlain_of_mem_words (hword : word ∈ words name) : ArePlain word :=
  fun c hc => h c (mem_words hword hc)

theorem pascalCase_eq :
    pascalCase name = String.ofList ((smallWords name).map capitalFirst).flatten := by
  rw [pascalCase, smallWords, List.map_map]
  congr 2
  exact List.map_congr_left fun word hword => capitalize_eq (arePlain_of_mem_words h hword)

theorem upperSnakeCase_eq :
    upperSnakeCase name = String.ofList (['_'].intercalate ((smallWords name).map upper)) := by
  rw [upperSnakeCase, smallWords, List.map_map]
  congr 2
  exact List.map_congr_left fun word hword => (upper_lower (arePlain_of_mem_words h hword)).symm

theorem isSmall_of_mem_smallWords (hword : word ∈ smallWords name) : ∀ c ∈ word, IsSmall c := by
  obtain ⟨given, hgiven, rfl⟩ := List.mem_map.mp hword
  have hplain := arePlain_of_mem_words h hgiven
  rw [lower_eq_map hplain]
  intro c hc
  obtain ⟨d, hd, rfl⟩ := List.mem_map.mp hc
  exact (hplain d hd).isSmall

end Plain

/-! ### Where words are cut -/

theorem of_mem_wordSeparators (h : c ∈ wordSeparators) :
    WordSign.of [c] = .separator ∧ isCased c = false ∧ c.isDigit = false := by
  simp only [wordSeparators, List.mem_cons, List.not_mem_nil, or_false] at h
  rcases h with rfl | rfl | rfl <;> decide

theorem of_eq_separator_iff : WordSign.of [c] = .separator ↔ c ∈ wordSeparators := by
  refine ⟨fun h => ?_, fun h => (of_mem_wordSeparators h).1⟩
  obtain ⟨d, hd, heq⟩ := of_eq_separator h
  exact (List.cons.inj heq).1 ▸ hd

theorem of_singleton (h : c ∉ wordSeparators) : WordSign.of [c] =
    if c.isDigit then .digit
    else if upperOf c = lower [c] then .other
    else if [c] = upperOf c then .upper
    else if [c] = lower [c] then .lower
    else .other := by
  unfold WordSign.of
  split
  · rename_i heq
    cases heq
    exact absurd (by decide) h
  · rename_i heq
    cases heq
    exact absurd (by decide) h
  · rename_i heq
    cases heq
    exact absurd (by decide) h
  · simp [upper]

theorem of_isDigit (h : d.isDigit = true) : WordSign.of [d] = .digit := by
  have hd : d ∉ wordSeparators := fun hd => by
    rw [(of_mem_wordSeparators hd).2.2] at h
    cases h
  rw [of_singleton hd, if_pos h]

theorem IsPlain.of_isCased (hc : IsPlain c) (h : isCased c = true) :
    WordSign.of [c] = .upper ∨ WordSign.of [c] = .lower := by
  have hc' : c ∉ wordSeparators := fun hmem => by
    rw [(of_mem_wordSeparators hmem).2.1] at h
    cases h
  have hdigit : ¬ c.isDigit = true := fun hdigit => by
    rw [isCased_of_isDigit hdigit] at h
    cases h
  have hforms : ¬ upperOf c = lowerOf c := by simpa [isCased] using h
  obtain ⟨u, l, hpair, rfl | rfl⟩ := hc.paired
  · exact .inl (by rw [of_singleton hc', if_neg hdigit, hc.lower_singleton, if_neg hforms,
      if_pos hpair.upper_upper.symm])
  · have hupper : ¬ [c] = upperOf c := fun hupper =>
      hforms (hupper.symm.trans hpair.lower_lower.symm)
    exact .inr (by rw [of_singleton hc', if_neg hdigit, hc.lower_singleton, if_neg hforms,
      if_neg hupper, if_pos hpair.lower_lower.symm])

theorem isDigit_of (h : WordSign.of [c] = .digit) : c.isDigit = true := by
  by_cases hc : c ∈ wordSeparators
  · rw [of_eq_separator_iff.mpr hc] at h
    cases h
  · rw [of_singleton hc] at h
    split_ifs at h with hdigit
    exact hdigit

theorem IsPlain.isCased_of (hc : IsPlain c)
    (h : WordSign.of [c] = .upper ∨ WordSign.of [c] = .lower) : isCased c = true := by
  have hseparator : c ∉ wordSeparators := fun hmem => by
    rw [of_eq_separator_iff.mpr hmem] at h
    simp at h
  rw [of_singleton hseparator, hc.lower_singleton] at h
  by_contra hcased
  have hforms : upperOf c = lowerOf c := by simpa [isCased] using hcased
  split_ifs at h <;> simp at h

/-- The words of characters that stand alone. -/
def wordsOfChars (cs : List Char) : List (List Char) :=
  wordsOf (cs.map fun c => ([c], WordSign.of [c]))

theorem wordsOfChars_ne_nil (cs : List Char) : wordsOfChars cs ≠ [] := wordsOf_ne_nil _

theorem words_eq (h : ArePlain name.toList) : words name = wordsOfChars name.toList := by
  rw [words, clusters_eq_map h, List.map_map]
  rfl

theorem wordsOfChars_cons (c : Char) (cs : List Char) : wordsOfChars (c :: cs) =
    if c ∈ wordSeparators then [] :: wordsOfChars cs
    else if (WordSign.of [c]).endsWord (cs.map fun d => WordSign.of [d]) then [c] :: wordsOfChars cs
    else (wordsOfChars cs).modifyHead (c :: ·) := by
  obtain ⟨first, more, hwords⟩ := List.exists_cons_of_ne_nil (wordsOfChars_ne_nil cs)
  have hsigns : (cs.map fun d => ([d], WordSign.of [d])).map Prod.snd =
      cs.map fun d => WordSign.of [d] := List.map_map
  rw [hwords]
  unfold wordsOfChars at hwords ⊢
  rw [List.map_cons, wordsOf, hwords, hsigns]
  simp only [of_eq_separator_iff]
  rfl

/-- The first word begins with the first character. -/
theorem exists_cons_of_wordsOfChars {tail : List Char} {more : List (List Char)}
    (h : wordsOfChars cs = (d :: tail) :: more) : ∃ ds, cs = d :: ds := by
  cases cs with
  | nil => cases h
  | cons c cs =>
    obtain ⟨first, rest, hwords⟩ := List.exists_cons_of_ne_nil (wordsOfChars_ne_nil cs)
    rw [wordsOfChars_cons, hwords] at h
    refine ⟨cs, ?_⟩
    split_ifs at h
    · cases h
    · cases h
      rfl
    · cases h
      rfl

theorem exists_wordsOfChars_cons (h : c ∉ wordSeparators) (cs : List Char) :
    ∃ tail more, wordsOfChars (c :: cs) = (c :: tail) :: more := by
  obtain ⟨first, more, hwords⟩ := List.exists_cons_of_ne_nil (wordsOfChars_ne_nil cs)
  rw [wordsOfChars_cons, if_neg h, hwords]
  split_ifs
  · exact ⟨[], first :: more, rfl⟩
  · exact ⟨first, more, rfl⟩

/-- **No digit stands behind a letter in a word**, since a word ends there. -/
theorem isChain_of_mem_wordsOfChars : ∀ {cs : List Char}, ArePlain cs →
    ∀ word ∈ wordsOfChars cs, word.IsChain fun c d => (isCased c && d.isDigit) = false
  | [], _, word, hword => by
    rw [List.mem_singleton.mp hword]
    exact .nil
  | c :: cs, h, word, hword => by
    have ih := isChain_of_mem_wordsOfChars fun d hd => h d (List.mem_cons_of_mem c hd)
    rw [wordsOfChars_cons] at hword
    split_ifs at hword with hseparator hends
    · rcases List.mem_cons.mp hword with rfl | hword
      · exact .nil
      · exact ih word hword
    · rcases List.mem_cons.mp hword with rfl | hword
      · exact .singleton c
      · exact ih word hword
    · obtain ⟨first, more, hwords⟩ := List.exists_cons_of_ne_nil (wordsOfChars_ne_nil cs)
      rw [hwords] at hword ih
      rcases List.mem_cons.mp hword with rfl | hword
      · refine List.isChain_cons.mpr ⟨fun d hd => ?_, ih first List.mem_cons_self⟩
        by_contra hcut
        obtain ⟨hcased, hdigit⟩ := Bool.and_eq_true_iff.mp (Bool.eq_true_of_not_eq_false hcut)
        obtain ⟨tail, rfl⟩ : ∃ tail, first = d :: tail := List.head?_eq_some_iff.mp hd
        obtain ⟨ds, rfl⟩ := exists_cons_of_wordsOfChars hwords
        rw [List.map_cons, of_isDigit hdigit] at hends
        rcases (h c List.mem_cons_self).of_isCased hcased with hsign | hsign
        · exact hends (by rw [hsign]; rfl)
        · exact hends (by rw [hsign]; rfl)
      · exact ih word (List.mem_cons_of_mem first hword)

end EntityTable.Text
