import EntityTable.Proofs.Text.Plain
import Mathlib.Data.List.SplitBy

/-! # Names in Pascal case

In Pascal case nothing stands between the words of a name. A boundary still shows before a capital,
and before a digit that follows a letter, since no word has such a place inside. It does not show
between the digits of `x8_64`, and no empty word shows, as in `_title`. So names agree in Pascal
case exactly if their words agree up to case once hidden boundaries are taken away
(`pascalCase_eq_iff`). A name hides nothing if its low lines stand where boundaries show, and then
upper snake case tells no more than Pascal case does (`upperSnakeCase_eq_of_pascalCase_eq`). Both
are for characters with one upper and one lower form: `ß` becomes two capitals. -/

namespace EntityTable.Text

variable {c d : Char} {cs word next : List Char} {name other : String}

/-! ### Where boundaries show -/

/-- No boundary shows between the characters: the second is no capital, and no digit behind a
letter. -/
def flows (c d : Char) : Bool := !(isCapital d || (isCased c && d.isDigit))

theorem IsSmall.flows_eq (h : IsSmall d) : flows c d = !(isCased c && d.isDigit) := by
  rw [flows, h.isCapital_eq, Bool.false_or]

/-- Texts in lower case inside which no boundary shows. -/
structure AreUnbroken (texts : List (List Char)) : Prop where
  small : ∀ text ∈ texts, ∀ c ∈ text, IsSmall c
  flowing : ∀ text ∈ texts, text.IsChain (flows · ·)

theorem AreUnbroken.tail {text : List Char} {texts : List (List Char)}
    (h : AreUnbroken (text :: texts)) : AreUnbroken texts :=
  ⟨(List.forall_mem_cons.mp h.small).2, (List.forall_mem_cons.mp h.flowing).2⟩

theorem AreUnbroken.cons {text : List Char} {texts : List (List Char)} (h : AreUnbroken texts)
    (hsmall : ∀ c ∈ text, IsSmall c) (hflowing : text.IsChain (flows · ·)) :
    AreUnbroken (text :: texts) :=
  ⟨List.forall_mem_cons.mpr ⟨hsmall, h.small⟩, List.forall_mem_cons.mpr ⟨hflowing, h.flowing⟩⟩

theorem areUnbroken_smallWords (h : ArePlain name.toList) : AreUnbroken (smallWords name) := by
  refine ⟨fun word hword => isSmall_of_mem_smallWords h hword, fun word hword => ?_⟩
  obtain ⟨given, hgiven, rfl⟩ := List.mem_map.mp hword
  have hplain := arePlain_of_mem_words h hgiven
  rw [words_eq h] at hgiven
  have hchain := isChain_of_mem_wordsOfChars h given hgiven
  rw [lower_eq_map hplain, List.isChain_map]
  refine hchain.imp_of_mem_imp fun c d hc hd hcd => ?_
  rw [(hplain d hd).isSmall.flows_eq, (hplain c hc).isCased_small, (hplain d hd).isDigit_small,
    hcd]
  rfl

/-! ### Hidden boundaries -/

/-- The boundary between two words shows in Pascal case: a letter follows, or a digit follows a
letter. -/
def showsBoundary (word next : List Char) : Bool :=
  next.head?.any fun d => isCased d || (d.isDigit && word.getLast?.any isCased)

/-- A word before others, joined to the next if the boundary is hidden. -/
def joinFirst (word : List Char) : List (List Char) → List (List Char)
  | [] => [word]
  | next :: more =>
    if showsBoundary word next then word :: next :: more else (word ++ next) :: more

/-- The words without hidden boundaries and empty words. -/
def joinHidden : List (List Char) → List (List Char)
  | [] => []
  | word :: rest => if word.isEmpty then joinHidden rest else joinFirst word (joinHidden rest)

/-- Unbroken texts between which all boundaries show. -/
structure AreJoined (texts : List (List Char)) : Prop extends AreUnbroken texts where
  inhabited : [] ∉ texts
  shown : texts.IsChain (showsBoundary · ·)

variable {texts : List (List Char)}

theorem showsBoundary_append (hne : next ≠ []) (word more : List Char) :
    showsBoundary (word ++ next) more = showsBoundary next more := by
  rw [showsBoundary, showsBoundary, List.getLast?_append_of_ne_nil _ hne]

theorem flows_of_hidden (hsmall : ∀ c ∈ next, IsSmall c) (h : ¬ showsBoundary word next = true) :
    ∀ c ∈ word.getLast?, ∀ d ∈ next.head?, flows c d = true := by
  intro c hc d hd
  rw [showsBoundary, hc, hd, Option.any_some, Option.any_some, Bool.not_eq_true,
    Bool.or_eq_false_iff] at h
  rw [(hsmall d (List.mem_of_mem_head? hd)).flows_eq, Bool.and_comm, h.2]
  rfl

theorem AreJoined.joinFirst (h : AreJoined texts) (hne : word ≠ [])
    (hsmall : ∀ c ∈ word, IsSmall c) (hflowing : word.IsChain (flows · ·)) :
    AreJoined (joinFirst word texts) := by
  cases texts with
  | nil =>
    refine ⟨h.toAreUnbroken.cons hsmall hflowing, ?_, .singleton word⟩
    simpa [Text.joinFirst] using hne
  | cons next more =>
    have hnext : next ≠ [] := fun heq => h.inhabited (heq ▸ List.mem_cons_self)
    have hmore : [] ∉ more := fun hmem => h.inhabited (List.mem_cons_of_mem next hmem)
    have hnextSmall := h.small next List.mem_cons_self
    have hnextFlowing := h.flowing next List.mem_cons_self
    rw [Text.joinFirst]
    split_ifs with hshown
    · exact ⟨h.toAreUnbroken.cons hsmall hflowing,
        List.not_mem_cons_of_ne_of_not_mem hne.symm h.inhabited,
        List.isChain_cons_cons.mpr ⟨hshown, h.shown⟩⟩
    · refine ⟨h.toAreUnbroken.tail.cons ?_ ?_, List.not_mem_cons_of_ne_of_not_mem ?_ hmore,
        List.isChain_cons.mpr ⟨fun text htext => ?_, h.shown.tail⟩⟩
      · exact fun c hc => (List.mem_append.mp hc).elim (hsmall c) (hnextSmall c)
      · exact hflowing.append hnextFlowing (flows_of_hidden hnextSmall hshown)
      · exact fun heq => hne (List.append_eq_nil_iff.mp heq.symm).1
      · rw [showsBoundary_append hnext]
        exact h.shown.rel_head? htext

theorem areJoined_joinHidden : ∀ {texts : List (List Char)}, AreUnbroken texts →
    AreJoined (joinHidden texts)
  | [], h => ⟨h, List.not_mem_nil, .nil⟩
  | word :: rest, h => by
    have ih := areJoined_joinHidden h.tail
    rw [joinHidden]
    split_ifs with hempty
    · exact ih
    · exact ih.joinFirst (by simpa using hempty) (h.small word List.mem_cons_self)
        (h.flowing word List.mem_cons_self)

/-! ### Capitals show where the texts begin -/

theorem capitalFirst_append (hne : word ≠ []) (hsmall : ∀ c ∈ next, IsSmall c)
    (h : ¬ showsBoundary word next = true) :
    capitalFirst (word ++ next) = capitalFirst word ++ capitalFirst next := by
  obtain ⟨c, cs, rfl⟩ := List.exists_cons_of_ne_nil hne
  cases next with
  | nil => simp [capitalFirst]
  | cons d ds =>
    rw [showsBoundary, List.head?_cons, Option.any_some, Bool.not_eq_true,
      Bool.or_eq_false_iff] at h
    have hd : capital d = d := (hsmall d List.mem_cons_self).capital_eq h.1
    rw [List.cons_append, capitalFirst, capitalFirst, capitalFirst, hd, List.cons_append]

theorem flatten_joinFirst (h : AreJoined texts) (hne : word ≠ []) :
    ((joinFirst word texts).map capitalFirst).flatten =
      capitalFirst word ++ (texts.map capitalFirst).flatten := by
  cases texts with
  | nil => simp [joinFirst]
  | cons next more =>
    rw [joinFirst]
    split_ifs with hshown
    · rfl
    · rw [List.map_cons, List.flatten_cons, List.map_cons, List.flatten_cons,
        capitalFirst_append hne (h.small next List.mem_cons_self) hshown, List.append_assoc]

/-- Joining words at hidden boundaries does not change their Pascal case. -/
theorem flatten_joinHidden : ∀ {texts : List (List Char)}, AreUnbroken texts →
    ((joinHidden texts).map capitalFirst).flatten = (texts.map capitalFirst).flatten
  | [], _ => rfl
  | word :: rest, h => by
    have ih := flatten_joinHidden h.tail
    rw [joinHidden]
    split_ifs with hempty
    · rw [ih, List.isEmpty_iff.mp hempty]
      rfl
    · rw [flatten_joinFirst (areJoined_joinHidden h.tail) (by simpa using hempty), ih]
      rfl

theorem isChain_capitalFirst (hsmall : ∀ c ∈ word, IsSmall c) (h : word.IsChain (flows · ·)) :
    (capitalFirst word).IsChain (flows · ·) := by
  cases word with
  | nil => exact .nil
  | cons c cs =>
    have hcased := (hsmall c List.mem_cons_self).isCased_eq
    obtain ⟨hfirst, hrest⟩ := List.isChain_cons.mp h
    refine List.isChain_cons.mpr ⟨fun d hd => ?_, hrest⟩
    rw [flows, hcased]
    exact hfirst d hd

theorem isCased_getLast (hsmall : ∀ c ∈ word, IsSmall c) (hne : capitalFirst word ≠ []) :
    isCased ((capitalFirst word).getLast hne) = word.getLast?.any isCased := by
  match word with
  | [] => exact absurd rfl hne
  | [c] => exact (hsmall c List.mem_cons_self).isCased_eq
  | c :: d :: cs =>
    simp only [capitalFirst, List.getLast_cons_cons]
    rw [List.getLast?_cons_cons, List.getLast?_eq_some_getLast (List.cons_ne_nil d cs),
      Option.any_some]

/-- Where a boundary shows, what flows together ends. -/
theorem flows_eq_false (hsmall : ∀ c ∈ word, IsSmall c) (hnext : ∀ c ∈ next, IsSmall c)
    (hne : word ≠ []) (h : showsBoundary word next = true) :
    ∃ ha hb, flows ((capitalFirst word).getLast ha) ((capitalFirst next).head hb) = false := by
  cases next with
  | nil => cases h
  | cons d ds =>
    have hd := hnext d List.mem_cons_self
    have hword : capitalFirst word ≠ [] := by
      obtain ⟨c, cs, rfl⟩ := List.exists_cons_of_ne_nil hne
      exact List.cons_ne_nil _ _
    refine ⟨hword, List.cons_ne_nil _ _, ?_⟩
    rw [showsBoundary, List.head?_cons, Option.any_some] at h
    rw [flows, isCased_getLast hsmall]
    simp only [capitalFirst, List.head_cons]
    rw [hd.isCapital_capital, hd.isDigit_eq, Bool.and_comm, h]
    rfl

/-- **The texts are recovered from their Pascal case**: it is cut where boundaries show. -/
theorem AreJoined.splitBy (h : AreJoined texts) :
    (texts.map capitalFirst).flatten.splitBy flows = texts.map capitalFirst := by
  have hne : ∀ text ∈ texts, text ≠ [] := fun text htext heq => h.inhabited (heq ▸ htext)
  refine List.splitBy_flatten ?_ ?_ ?_
  · intro hmem
    obtain ⟨text, htext, heq⟩ := List.mem_map.mp hmem
    obtain ⟨c, cs, rfl⟩ := List.exists_cons_of_ne_nil (hne text htext)
    cases heq
  · intro m hm
    obtain ⟨text, htext, rfl⟩ := List.mem_map.mp hm
    exact isChain_capitalFirst (h.small text htext) (h.flowing text htext)
  · rw [List.isChain_map]
    exact h.shown.imp_of_mem_imp fun text text' htext htext' hshown =>
      flows_eq_false (h.small text htext) (h.small text' htext') (hne text htext) hshown

theorem map_small_capitalFirst (h : ∀ c ∈ word, IsSmall c) :
    (capitalFirst word).map small = word := by
  cases word with
  | nil => rfl
  | cons c cs =>
    have hrest : cs.map small = cs := by
      conv_rhs => rw [← List.map_id cs]
      exact List.map_congr_left fun d hd => (h d (List.mem_cons_of_mem c hd)).small_eq
    rw [capitalFirst, List.map_cons, (h c List.mem_cons_self).small_capital, hrest]

/-! ### Names that agree -/

/-- The words of a name that its Pascal case tells apart, in lower case. -/
def joinedWords (name : String) : List (List Char) := joinHidden (smallWords name)

section Plain
variable (h : ArePlain name.toList)
include h

theorem areJoined_joinedWords : AreJoined (joinedWords name) :=
  areJoined_joinHidden (areUnbroken_smallWords h)

theorem pascalCase_eq_joinedWords :
    pascalCase name = String.ofList ((joinedWords name).map capitalFirst).flatten := by
  rw [pascalCase_eq h, joinedWords, flatten_joinHidden (areUnbroken_smallWords h)]

theorem joinedWords_eq_pascalCase :
    joinedWords name = ((pascalCase name).toList.splitBy flows).map (List.map small) := by
  have hjoined := areJoined_joinedWords h
  rw [pascalCase_eq_joinedWords h, String.toList_ofList, hjoined.splitBy, List.map_map]
  conv_lhs => rw [← List.map_id (joinedWords name)]
  exact List.map_congr_left fun text htext =>
    (map_small_capitalFirst (hjoined.small text htext)).symm

end Plain

/-- **Plain names agree in Pascal case exactly if they have the same joined words.** -/
theorem pascalCase_eq_iff (h : ArePlain name.toList) (hother : ArePlain other.toList) :
    pascalCase name = pascalCase other ↔ joinedWords name = joinedWords other := by
  constructor
  · intro heq
    rw [joinedWords_eq_pascalCase h, heq, joinedWords_eq_pascalCase hother]
  · intro heq
    rw [pascalCase_eq_joinedWords h, heq, pascalCase_eq_joinedWords hother]

example : pascalCase "x8_64" = "X864" ∧ joinedWords "x8_64" = joinedWords "x86_4" := by
  decide

theorem joinHidden_eq_self : ∀ {texts : List (List Char)}, [] ∉ texts →
    texts.IsChain (showsBoundary · ·) → joinHidden texts = texts
  | [], _, _ => rfl
  | text :: rest, hne, hshown => by
    have hrest : [] ∉ rest := fun hmem => hne (List.mem_cons_of_mem text hmem)
    have htext : ¬ text.isEmpty = true := fun hempty =>
      hne (List.isEmpty_iff.mp hempty ▸ List.mem_cons_self)
    rw [joinHidden, if_neg htext, joinHidden_eq_self hrest hshown.tail]
    cases rest with
    | nil => rfl
    | cons next more => exact if_pos (List.isChain_cons_cons.mp hshown).1

/-! ### Tidy names -/

/-- Each low line of a text behind the character stands before a letter, or between a letter and a
digit. -/
def isTidyAfter (b : Char) : List Char → Bool
  | [] => true
  | c :: cs => (!wordSeparators.contains c || showsBoundary [b] cs) && isTidyAfter c cs

/-- Each low line of the name stands so, and none at its beginning. -/
def isTidy (name : String) : Bool :=
  match name.toList with
  | [] => false
  | c :: cs => !wordSeparators.contains c && isTidyAfter c cs

/-- **Where a word ends by itself, the boundary shows.** -/
theorem showsBoundary_of_endsWord (hc : IsPlain c) (hcs : ArePlain cs)
    (h : (WordSign.of [c]).endsWord (cs.map fun d => WordSign.of [d]) = true) :
    showsBoundary [c] cs = true := by
  cases cs with
  | nil => cases hsign : WordSign.of [c] <;> simp [hsign, WordSign.endsWord] at h
  | cons d ds =>
    rw [showsBoundary, List.head?_cons, Option.any_some, List.getLast?_singleton, Option.any_some]
    rw [List.map_cons] at h
    by_cases hletter : WordSign.of [d] = .upper ∨ WordSign.of [d] = .lower
    · rw [(hcs d List.mem_cons_self).isCased_of hletter, Bool.true_or]
    · have hsigns : WordSign.of [d] = .digit ∧
          (WordSign.of [c] = .upper ∨ WordSign.of [c] = .lower) := by
        cases hsign : WordSign.of [c] <;> cases hnext : WordSign.of [d] <;>
          simp [hsign, hnext, WordSign.endsWord] at h hletter ⊢
      rw [isDigit_of hsigns.1, hc.isCased_of hsigns.2]
      simp

/-- A boundary shows before letters and digits only. -/
theorem exists_cons_of_showsBoundary (h : showsBoundary word cs = true) :
    ∃ d ds, cs = d :: ds ∧ d ∉ wordSeparators := by
  cases cs with
  | nil => cases h
  | cons d ds =>
    refine ⟨d, ds, rfl, fun hd => ?_⟩
    obtain ⟨-, hcased, hdigit⟩ := of_mem_wordSeparators hd
    rw [showsBoundary, List.head?_cons, Option.any_some, hcased, hdigit] at h
    cases h

variable {first : List Char} {more : List (List Char)}

/-- What stands before a text does not tell whether boundaries show behind it. -/
theorem isChain_of_append (hne : first ≠ [])
    (h : ((word ++ first) :: more).IsChain (showsBoundary · ·)) :
    (first :: more).IsChain (showsBoundary · ·) := by
  refine List.isChain_cons.mpr ⟨fun text htext => ?_, h.tail⟩
  rw [← showsBoundary_append hne word]
  exact h.rel_head? htext

/-- A word that ends where a boundary shows, before the words that follow. -/
theorem isChain_cons_words {b : Char} (hwords : wordsOfChars cs = first :: more)
    (h : (([c] ++ first) :: more).IsChain (showsBoundary · ·))
    (hshown : showsBoundary [b] cs = true) :
    first ≠ [] ∧ ∀ word, word.getLast? = some b →
      (word :: first :: more).IsChain (showsBoundary · ·) := by
  obtain ⟨d, ds, rfl, hd⟩ := exists_cons_of_showsBoundary hshown
  obtain ⟨tail, more', hcons⟩ := exists_wordsOfChars_cons hd ds
  obtain ⟨rfl, rfl⟩ := List.cons.inj (hwords.symm.trans hcons)
  refine ⟨List.cons_ne_nil d tail, fun word hword => List.isChain_cons_cons.mpr ⟨?_, ?_⟩⟩
  · rw [showsBoundary, hword]
    exact hshown
  · exact isChain_of_append (List.cons_ne_nil d tail) h

/-- The words of such a text are not empty, besides the first, and their boundaries show. The
induction is on the text; the word before it ends in its last character. -/
theorem isChain_of_isTidyAfter : ∀ {cs : List Char} {b : Char}, ArePlain cs →
    isTidyAfter b cs = true → ∃ first more, wordsOfChars cs = first :: more ∧ [] ∉ more ∧
      ∀ word, word.getLast? = some b → ((word ++ first) :: more).IsChain (showsBoundary · ·)
  | [], b, _, _ => ⟨[], [], rfl, List.not_mem_nil, fun word _ => .singleton _⟩
  | c :: cs, b, h, htidy => by
    obtain ⟨hc, hcs⟩ := List.forall_mem_cons.mp h
    obtain ⟨hline, htail⟩ := Bool.and_eq_true_iff.mp htidy
    obtain ⟨first, more, hwords, hne, hchain⟩ := isChain_of_isTidyAfter hcs htail
    rw [wordsOfChars_cons, hwords]
    split_ifs with hseparator hends
    · have hshown : showsBoundary [b] cs = true := by simpa [hseparator] using hline
      obtain ⟨hfirst, hcut⟩ := isChain_cons_words hwords (hchain [c] rfl) hshown
      refine ⟨[], first :: more, rfl, by simpa using ⟨hfirst, hne⟩, fun word hword => ?_⟩
      rw [List.append_nil]
      exact hcut word hword
    · obtain ⟨hfirst, hcut⟩ := isChain_cons_words hwords (hchain [c] rfl)
        (showsBoundary_of_endsWord hc hcs hends)
      refine ⟨[c], first :: more, rfl, by simpa using ⟨hfirst, hne⟩, fun word _ => ?_⟩
      exact hcut (word ++ [c]) (by simp)
    · refine ⟨c :: first, more, rfl, hne, fun word _ => ?_⟩
      have hjoined := hchain (word ++ [c]) (by simp)
      rwa [List.append_assoc] at hjoined

/-- **No word of a tidy name is empty, and all its boundaries show.** -/
theorem isChain_of_isTidy (htidy : isTidy name = true) (h : ArePlain name.toList) :
    [] ∉ words name ∧ (words name).IsChain (showsBoundary · ·) := by
  rw [words_eq h]
  unfold isTidy at htidy
  split at htidy
  · cases htidy
  · rename_i c cs hname
    rw [hname] at h ⊢
    obtain ⟨hseparator, hafter⟩ := Bool.and_eq_true_iff.mp htidy
    have hc : c ∉ wordSeparators := by simpa using hseparator
    have hline : isTidyAfter c (c :: cs) = true := by
      rw [isTidyAfter, hseparator, hafter]
      rfl
    obtain ⟨first, more, hwords, hne, hchain⟩ := isChain_of_isTidyAfter h hline
    obtain ⟨tail, more', hcons⟩ := exists_wordsOfChars_cons hc cs
    obtain ⟨rfl, rfl⟩ := List.cons.inj (hwords.symm.trans hcons)
    rw [hwords]
    exact ⟨by simpa using hne, isChain_of_append (List.cons_ne_nil c tail) (hchain [c] rfl)⟩

theorem showsBoundary_lower (hword : ArePlain word) (hnext : ArePlain next) :
    showsBoundary (lower word) (lower next) = showsBoundary word next := by
  have hlast : (word.getLast?.map small).any isCased = word.getLast?.any isCased := by
    cases hc : word.getLast? with
    | none => rfl
    | some c => exact (hword c (List.mem_of_mem_getLast? hc)).isCased_small
  rw [lower_eq_map hword, lower_eq_map hnext, showsBoundary, showsBoundary, List.head?_map,
    List.getLast?_map, hlast]
  cases hd : next.head? with
  | none => rfl
  | some d =>
    have hplain := hnext d (List.mem_of_mem_head? hd)
    rw [Option.map_some, Option.any_some, Option.any_some, hplain.isCased_small,
      hplain.isDigit_small]

/-- The joined words of a tidy name are its words. -/
theorem joinedWords_of_isTidy (htidy : isTidy name = true) (h : ArePlain name.toList) :
    joinedWords name = smallWords name := by
  obtain ⟨hne, hchain⟩ := isChain_of_isTidy htidy h
  refine joinHidden_eq_self ?_ ?_
  · intro hmem
    obtain ⟨word, hword, heq⟩ := List.mem_map.mp hmem
    rw [lower_eq_map (arePlain_of_mem_words h hword), List.map_eq_nil_iff] at heq
    exact hne (heq ▸ hword)
  · rw [smallWords, List.isChain_map]
    refine hchain.imp_of_mem_imp fun word next hword hnext hshown => ?_
    rwa [showsBoundary_lower (arePlain_of_mem_words h hword) (arePlain_of_mem_words h hnext)]

/-- **Tidy names that agree in Pascal case agree in upper snake case.** -/
theorem upperSnakeCase_eq_of_pascalCase_eq (h : ArePlain name.toList)
    (hother : ArePlain other.toList) (htidy : isTidy name = true)
    (hotherTidy : isTidy other = true)
    (heq : pascalCase name = pascalCase other) : upperSnakeCase name = upperSnakeCase other := by
  have hjoined := (pascalCase_eq_iff h hother).mp heq
  rw [joinedWords_of_isTidy htidy h, joinedWords_of_isTidy hotherTidy hother] at hjoined
  rw [upperSnakeCase_eq h, upperSnakeCase_eq hother, hjoined]

end EntityTable.Text
