import EntityTable.Proofs.Text.CodePointSet
import EntityTable.Text.Blank
import EntityTable.Text.Words
import Mathlib.Data.String.Basic

/-! # Words of a name

Cutting a name into words drops low lines, hyphens and spaces, and a name may consist of nothing
else. What is dropped stands between two words, which may be empty, so the low line that joins them
stands for it. All other characters are kept, and none of them becomes a blank in lower case. So a
name that is not blank is not blank in snake case (`isBlankText_snakeCase`). -/

namespace EntityTable.Text

variable {c d : Char} {cs : List Char}

/-- The text has a character besides blanks. -/
def IsInked (cs : List Char) : Prop := ∃ c ∈ cs, isBlank c = false

theorem isBlankText_eq_false_iff {s : String} : isBlankText s = false ↔ IsInked s.toList := by
  rw [isBlankText, List.all_eq_false]
  simp only [Bool.not_eq_true, IsInked]

theorem IsInked.append_left (h : IsInked cs) (rest : List Char) : IsInked (cs ++ rest) := by
  obtain ⟨c, hc, hink⟩ := h
  exact ⟨c, List.mem_append_left _ hc, hink⟩

theorem IsInked.append_right (h : IsInked cs) (front : List Char) : IsInked (front ++ cs) := by
  obtain ⟨c, hc, hink⟩ := h
  exact ⟨c, List.mem_append_right _ hc, hink⟩

/-! ### Characters in lower case -/

/-- A code point that is no character stands for the character zero. -/
theorem toNat_ofNat_or (n : Nat) : (Char.ofNat n).toNat = n ∨ (Char.ofNat n).toNat = 0 := by
  by_cases h : n.isValidChar
  · rw [Char.ofNat, dif_pos h]
    exact .inl rfl
  · rw [Char.ofNat, dif_neg h]
    exact .inr rfl

/-- No image of a run of case mappings is a blank. -/
def CaseRun.AvoidsBlanks (r : CaseRun) : Prop :=
  ∀ p ∈ CodePointSet.spans blankTable.changes,
    (r.last + r.distance).toNat < p.1 ∨ p.2 ≤ (r.first + r.distance).toNat

instance (r : CaseRun) : Decidable r.AvoidsBlanks :=
  inferInstanceAs (Decidable (∀ p ∈ _, _ ∨ _))

theorem CaseRun.AvoidsBlanks.isBlank_map? {r : CaseRun} (hr : r.AvoidsBlanks) {n image : Nat}
    (h : r.map? n = some image) : isBlank (Char.ofNat image) = false := by
  have hpositive : ∀ p ∈ CodePointSet.spans blankTable.changes, 0 < p.1 := by decide
  unfold CaseRun.map? at h
  split_ifs at h with hrun
  cases h
  by_contra hblank
  obtain ⟨p, hp, hfirst, hlast⟩ : ∃ p ∈ CodePointSet.spans blankTable.changes, p.1 ≤ _ ∧ _ < p.2 :=
    CodePointSet.exists_span_of_contains (by decide) (by decide) (Bool.not_eq_false _ ▸ hblank)
  have hzero := hpositive p hp
  have hapart := hr p hp
  rcases toNat_ofNat_or (n + r.distance).toNat with heq | heq
  · omega
  · omega

theorem exists_image_of_mem_mapCase {runs : List CaseRun} {sequences : List (Nat × List Nat)}
    (hd : d ∈ mapCase runs sequences c) : d = c ∨ (∃ p ∈ sequences, ∃ n ∈ p.2, Char.ofNat n = d) ∨
      ∃ r ∈ runs, ∃ n, r.map? c.toNat = some n ∧ Char.ofNat n = d := by
  unfold mapCase at hd
  split at hd
  · rename_i ns hlookup
    obtain ⟨before, after, heq, -⟩ := List.lookup_eq_some_iff.mp hlookup
    obtain ⟨n, hn, rfl⟩ := List.mem_map.mp hd
    exact .inr (.inl ⟨_, heq ▸ List.mem_append_right _ List.mem_cons_self, n, hn, rfl⟩)
  · split at hd
    · rename_i n hn
      obtain ⟨r, hr, hmap⟩ := List.exists_of_findSome?_eq_some hn
      exact .inr (.inr ⟨r, hr, n, hmap, (List.mem_singleton.mp hd).symm⟩)
    · exact .inl (List.mem_singleton.mp hd)

/-- **No character becomes a blank in lower case** that is none. -/
theorem isBlank_of_mem_lowerOf (hc : isBlank c = false) (hd : d ∈ lowerOf c) :
    isBlank d = false := by
  unfold lowerOf at hd
  split_ifs at hd with hascii
  · have hlower : ∀ n < 0x80, isBlank (Char.ofNat n) = false →
        isBlank (Char.ofNat n).toLower = false := by decide +kernel
    have himage := hlower c.toNat hascii
    rw [Char.ofNat_toNat] at himage
    rw [List.mem_singleton.mp hd]
    exact himage hc
  · have hsequences : ∀ p ∈ lowerSequences, ∀ n ∈ p.2, isBlank (Char.ofNat n) = false := by decide
    have hruns : ∀ r ∈ lowerRuns, r.AvoidsBlanks := by decide +kernel
    rcases exists_image_of_mem_mapCase hd with rfl | ⟨p, hp, n, hn, rfl⟩ | ⟨r, hr, n, hmap, rfl⟩
    · exact hc
    · exact hsequences p hp n hn
    · exact (hruns r hr).isBlank_map? hmap

theorem lowerOf_ne_nil (c : Char) : lowerOf c ≠ [] := by
  have hsequences : ∀ p ∈ lowerSequences, p.2.map Char.ofNat ≠ [] := by decide
  unfold lowerOf mapCase
  split_ifs
  · exact List.cons_ne_nil _ _
  · split
    · rename_i ns hlookup
      obtain ⟨before, after, heq, -⟩ := List.lookup_eq_some_iff.mp hlookup
      exact hsequences (_, ns) (heq ▸ List.mem_append_right _ List.mem_cons_self)
    · split <;> exact List.cons_ne_nil _ _

theorem isInked_lowerOf (hc : isBlank c = false) : IsInked (lowerOf c) := by
  obtain ⟨d, hd⟩ := List.exists_mem_of_ne_nil _ (lowerOf_ne_nil c)
  exact ⟨d, hd, isBlank_of_mem_lowerOf hc hd⟩

theorem isInked_lowerAfter (h : IsInked cs) : ∀ before, IsInked (lowerAfter before cs) := by
  have hsigma : isBlank (Char.ofNat 0x3c2) = false ∧ isBlank (Char.ofNat 0x3c3) = false := by decide
  induction cs with
  | nil =>
    obtain ⟨c, hc, -⟩ := h
    cases hc
  | cons c cs ih =>
    intro before
    obtain ⟨d, hd, hink⟩ := h
    rw [lowerAfter]
    rcases List.mem_cons.mp hd with rfl | hd
    · refine IsInked.append_left ?_ _
      split_ifs
      · exact ⟨_, List.mem_singleton_self _, hsigma.1⟩
      · exact ⟨_, List.mem_singleton_self _, hsigma.2⟩
      · exact isInked_lowerOf hink
    · exact (ih ⟨d, hd, hink⟩ _).append_right _

/-- **A text that is not blank is not blank in lower case.** -/
theorem IsInked.lower (h : IsInked cs) : IsInked (lower cs) := isInked_lowerAfter h []

/-! ### Words and what they are cut from -/

theorem flatten_clusters : ∀ cs : List Char, (clusters cs).flatten = cs
  | [] => rfl
  | c :: rest => by
    have ih := flatten_clusters rest
    unfold clusters
    split
    · rename_i heq
      rw [heq] at ih
      split_ifs
      · exact congrArg (c :: ·) ih
      · exact congrArg (c :: ·) ih
    · exact congrArg (c :: ·) ih

variable {signed : List (List Char × WordSign)}

theorem wordsOf_ne_nil (signed : List (List Char × WordSign)) : wordsOf signed ≠ [] := by
  cases signed with
  | nil => exact List.cons_ne_nil _ _
  | cons p rest =>
    obtain ⟨cluster, sign⟩ := p
    unfold wordsOf
    split_ifs
    · exact List.cons_ne_nil _ _
    · exact List.cons_ne_nil _ _
    · dsimp only
      split <;> exact List.cons_ne_nil _ _

/-- Nothing is dropped from a name of one word. -/
theorem eq_flatten_of_wordsOf {word : List Char} (h : wordsOf signed = [word]) :
    word = (signed.map Prod.fst).flatten := by
  induction signed generalizing word with
  | nil => exact (List.cons.inj h).1.symm
  | cons p rest ih =>
    obtain ⟨cluster, sign⟩ := p
    have hrest := wordsOf_ne_nil rest
    unfold wordsOf at h
    split_ifs at h
    · exact absurd (List.cons.inj h).2 hrest
    · exact absurd (List.cons.inj h).2 hrest
    · dsimp only at h
      split at h
      · rename_i first more hwords
        obtain ⟨rfl, rfl⟩ := List.cons.inj h
        rw [ih hwords]
        rfl
      · exact absurd ‹_› hrest

theorem words_ne_nil (name : String) : words name ≠ [] := wordsOf_ne_nil _

theorem eq_toList_of_words {name : String} {word : List Char} (h : words name = [word]) :
    word = name.toList := by
  rw [eq_flatten_of_wordsOf h, List.map_map]
  exact (congrArg List.flatten (List.map_id _)).trans (flatten_clusters _)

/-- **A name that is not blank is not blank in snake case.** -/
theorem isBlankText_snakeCase {name : String} (h : isBlankText name = false) :
    isBlankText (snakeCase name) = false := by
  rw [isBlankText_eq_false_iff] at h ⊢
  rw [snakeCase, String.toList_ofList]
  match hwords : words name with
  | [] => exact absurd hwords (words_ne_nil name)
  | [word] =>
    rw [List.map_singleton, List.intercalate_singleton, eq_toList_of_words hwords]
    exact h.lower
  | first :: second :: more =>
    have hline : IsInked ['_'] := ⟨'_', List.mem_singleton_self _, by decide⟩
    rw [List.map_cons, List.map_cons, List.intercalate_cons_cons]
    exact (hline.append_right _).append_left _

end EntityTable.Text
