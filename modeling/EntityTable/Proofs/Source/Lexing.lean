import EntityTable.Proofs.Source.Scanning

/-! # Tokens of a text

A text is read from left to right, so what is known of the rest carries over to a text with one more
token in front. `Reads` says that a text gives these tokens up to the end or to a closing delimiter;
there is one lemma for each kind of token, and one for a group around tokens that have been read. -/

namespace EntityTable.Source.Lexer

open EntityTable.Text

/-- The text gives these tokens, up to its end or to a closing delimiter with which the final text
begins. Any amount of fuel that exceeds the length of the text is enough. -/
def Reads (text : List Char) (tokens : List Token) (final : List Char) : Prop :=
  final.length ≤ text.length ∧
    ∀ fuel, text.length < fuel → sequence fuel text = some (tokens, final)

/-- Neither a blank nor a comment starts with the character. -/
structure StartsToken (c : Char) : Prop where
  solid : isSeparator c = false
  noComment : c ≠ '/'

/-- A token that is no group may start with the character. -/
structure StartsLeaf (c : Char) : Prop extends StartsToken c where
  noOpening : Delimiter.ofOpening? c = none
  noClosing : Delimiter.ofClosing? c = none

variable {c : Char} {cs rest final : List Char} {tokens : List Token}

theorem startsLeaf_of_ne (hsolid : isSeparator c = false) (h : ∀ d ∈ otherStarts, c ≠ d) :
    StartsLeaf c where
  solid := hsolid
  noComment := h '/' (by decide)
  noOpening := by
    rw [Delimiter.ofOpening?, List.find?_eq_none]
    exact fun d _ heq => h d.opening (by cases d <;> decide) (eq_of_beq heq).symm
  noClosing := by
    rw [Delimiter.ofClosing?, List.find?_eq_none]
    exact fun d _ heq => h d.closing (by cases d <;> decide) (eq_of_beq heq).symm

theorem startsLeaf_of_isStart (h : Identifier.isStart c = true) : StartsLeaf c :=
  startsLeaf_of_ne (isSeparator_eq_false_of_isStart h) (ne_of_isStart h)

theorem startsLeaf_of_isDigit (h : c.isDigit = true) : StartsLeaf c := by
  have hdigits : ∀ n < 10, isSeparator (Char.ofNat (48 + n)) = false ∧
      Char.ofNat (48 + n) ∉ otherStarts := by decide
  simp only [Char.isDigit, Bool.and_eq_true, decide_eq_true_eq, ge_iff_le,
    UInt32.le_iff_toNat_le] at h
  have hvalue : 48 ≤ c.toNat ∧ c.toNat ≤ 57 := h
  have hc := hdigits (c.toNat - 48) (by omega)
  rw [Nat.add_sub_cancel' hvalue.1, Char.ofNat_toNat] at hc
  exact startsLeaf_of_ne hc.1 fun d hd heq => hc.2 (heq ▸ hd)

theorem startsLineComment_cons (h : c ≠ '/') : startsLineComment (c :: rest) = false := by
  unfold startsLineComment
  split <;> first | rfl | (rename_i heq; cases heq; exact absurd rfl h)

theorem startsBlockComment_cons (h : c ≠ '/') :
    startsBlockComment (c :: rest) = false := by
  unfold startsBlockComment
  split <;> first | rfl | (rename_i heq; cases heq; exact absurd rfl h)

theorem skip_cons (h : StartsToken c) : skip (c :: rest) = c :: rest := by
  rw [skip, List.length_cons, dropBlanks, startsLineComment_cons h.noComment,
    startsBlockComment_cons h.noComment, h.solid]
  rfl

/-- Blanks are dropped one by one. -/
theorem dropBlanks_append {gap : List Char} (hgap : ∀ d ∈ gap, isBlank d = true) (fuel : Nat)
    (rest : List Char) : dropBlanks (gap.length + fuel) (gap ++ rest) = dropBlanks fuel rest := by
  induction gap with
  | nil => rw [List.length_nil, Nat.zero_add, List.nil_append]
  | cons d gap ih =>
    have hblank : isBlank d = true := hgap d List.mem_cons_self
    have hslash : d ≠ '/' := by
      rintro rfl
      cases hblank
    have hseparator : isSeparator d = true := by rw [isSeparator, hblank]; rfl
    rw [List.length_cons, Nat.succ_add, List.cons_append, dropBlanks, startsLineComment_cons hslash,
      startsBlockComment_cons hslash]
    show (if isSeparator d then dropBlanks (gap.length + fuel) (gap ++ rest) else _) = _
    rw [if_pos hseparator]
    exact ih fun e he => hgap e (List.mem_cons_of_mem _ he)

theorem skip_append (gap : List Char) (hgap : ∀ d ∈ gap, isBlank d = true) (rest : List Char) :
    skip (gap ++ rest) = skip rest := by
  rw [skip, List.length_append, dropBlanks_append hgap, skip]

theorem doc?_cons (h : c ≠ '/') : doc? (c :: rest) = none := by
  have hdoc : docComment? (c :: rest) = none := by
    unfold docComment?
    split <;> first | rfl | (rename_i heq; cases heq; exact absurd rfl h)
  rw [doc?, hdoc]

theorem sequence_cons (h : StartsToken c) (fuel : Nat) : sequence (fuel + 1) (c :: rest) =
    match Delimiter.ofOpening? c with
    | some d =>
      (sequence fuel rest).bind fun (body, rest) =>
        match rest with
        | e :: rest =>
          if e = d.closing then
            (sequence fuel rest).bind fun (more, rest) => some (.group d body :: more, rest)
          else none
        | [] => none
    | none =>
      if (Delimiter.ofClosing? c).isSome then some ([], c :: rest)
      else (leaf? (c :: rest)).bind fun (token, rest) =>
        (sequence fuel rest).bind fun (more, rest) => some (token :: more, rest) := by
  rw [sequence, skip_cons h, doc?_cons h.noComment]
  rfl

/-! ### One more token -/

theorem reads_nil : Reads [] [] [] := by
  refine ⟨Nat.le_refl _, fun fuel h => ?_⟩
  obtain ⟨fuel, rfl⟩ := Nat.exists_eq_add_of_lt h
  rfl

theorem reads_close (d : Delimiter) (rest : List Char) :
    Reads (d.closing :: rest) [] (d.closing :: rest) := by
  refine ⟨Nat.le_refl _, fun fuel h => ?_⟩
  obtain ⟨fuel, rfl⟩ := Nat.exists_eq_add_of_lt h
  cases d <;> rw [sequence_cons ⟨by decide, by decide⟩] <;> rfl

theorem Reads.blank (h : Reads rest tokens final) : Reads (' ' :: rest) tokens final := by
  refine ⟨h.1.trans (Nat.le_succ _), fun fuel hfuel => ?_⟩
  have hskip : skip (' ' :: rest) = skip rest := rfl
  rw [← h.2 fuel (Nat.lt_of_succ_lt hfuel)]
  cases fuel with
  | zero => rfl
  | succ fuel => rw [sequence, sequence, hskip]

theorem Reads.leaf (text : List Char) {token : Token} (hstarts : StartsLeaf c)
    (hleaf : leaf? (c :: text ++ rest) = some (token, rest)) (hrest : Reads rest tokens final) :
    Reads (c :: text ++ rest) (token :: tokens) final := by
  have hlength := hrest.1
  refine ⟨?_, fun fuel hfuel => ?_⟩
  · simp only [List.cons_append, List.length_cons, List.length_append]
    omega
  · obtain ⟨fuel, rfl⟩ := Nat.exists_eq_add_of_lt (Nat.zero_lt_of_lt hfuel)
    simp only [List.cons_append, List.length_cons, List.length_append] at hfuel
    rw [List.cons_append] at hleaf ⊢
    rw [Nat.zero_add, sequence_cons hstarts.toStartsToken, hstarts.noOpening, hstarts.noClosing,
      hleaf]
    show (sequence fuel rest).bind _ = _
    rw [hrest.2 fuel (by omega)]
    rfl

/-- **A word is read as a token if a text follows that does not go on with it.** -/
theorem Reads.word {w : List Char} (hw : IsWord w) (hstops : Stops rest)
    (hrest : Reads rest tokens final) :
    Reads (w ++ rest) (.word (String.ofList w) :: tokens) final := by
  have hleaf := leaf?_word hw hstops.endsWord
  obtain ⟨c, cs, rfl, hstart⟩ := hw.exists_cons
  exact Reads.leaf _ (startsLeaf_of_isStart hstart) hleaf hrest

theorem Reads.punct (hc : c ∈ punctuation) (hquote : c ≠ '\x27') (hslash : c ≠ '/')
    (hrest : Reads rest tokens final) :
    Reads (c :: rest) (.punct c (startsPunct rest) :: tokens) final := by
  have hfacts : ∀ d ∈ punctuation, isSeparator d = false ∧ Delimiter.ofOpening? d = none ∧
      Delimiter.ofClosing? d = none := List.all_iff_forall_prop.mp (by decide)
  obtain ⟨hsolid, hopening, hclosing⟩ := hfacts c hc
  exact Reads.leaf [] ⟨⟨hsolid, hslash⟩, hopening, hclosing⟩ (leaf?_punct hc hquote hslash) hrest

theorem Reads.number (hcs : IsNumber cs) (hend : EndsNumber rest)
    (hrest : Reads rest tokens final) :
    Reads (cs ++ rest) (.literal (String.ofList cs) :: tokens) final := by
  have hleaf := leaf?_number hcs hend
  obtain ⟨c, cs, rfl⟩ := List.exists_cons_of_ne_nil hcs.ne_nil
  exact Reads.leaf _ (startsLeaf_of_isDigit (hcs.digits c List.mem_cons_self)) hleaf hrest

theorem Reads.quote (text : String) (hstops : Stops rest) (hrest : Reads rest tokens final) :
    Reads ((Literal.quote text).toList ++ rest) (.literal (Literal.quote text) :: tokens)
      final := by
  have hleaf := leaf?_quote text hstops
  have htext : (Literal.quote text).toList =
      '\x22' :: (Literal.escape text.toList ++ ['\x22']) := by
    simp [Literal.quote]
  rw [htext] at hleaf ⊢
  exact Reads.leaf _ ⟨⟨by decide, by decide⟩, rfl, rfl⟩ hleaf hrest

/-- **A group is read once its contents are, up to the closing delimiter.** -/
theorem Reads.group {d : Delimiter} {text : List Char} {body : List Token}
    (hbody : Reads text body (d.closing :: rest)) (hrest : Reads rest tokens final) :
    Reads (d.opening :: text) (.group d body :: tokens) final := by
  have hlength := hbody.1
  rw [List.length_cons] at hlength
  refine ⟨by rw [List.length_cons]; exact hrest.1.trans (by omega), fun fuel hfuel => ?_⟩
  obtain ⟨fuel, rfl⟩ := Nat.exists_eq_add_of_lt (Nat.zero_lt_of_lt hfuel)
  rw [List.length_cons] at hfuel
  have hopening : Delimiter.ofOpening? d.opening = some d := by cases d <;> rfl
  have hstarts : StartsToken d.opening := by cases d <;> exact ⟨by decide, by decide⟩
  rw [Nat.zero_add, sequence_cons hstarts, hopening]
  show (sequence fuel text).bind _ = _
  rw [hbody.2 fuel (by omega)]
  show (if d.closing = d.closing then (sequence fuel rest).bind _ else none) = _
  rw [if_pos rfl, hrest.2 fuel (by omega)]
  rfl

/-! ### Whole texts -/

/-- A mark of byte order does not start a token, so a text that is read has none. -/
theorem not_reads_mark : ¬ Reads ('\ufeff' :: rest) tokens final := by
  intro h
  have hstart : Identifier.isStart '\ufeff' = false := by decide +kernel
  have hliteral : afterLiteral? ('\ufeff' :: rest) = none := number_eq_none rfl
  have hidentifier : identifier? ('\ufeff' :: rest) = none := by
    have hword : anyWord? ('\ufeff' :: rest) = (word? ('\ufeff' :: rest)).map
        fun found => (String.ofList found.1, found.2) := rfl
    rw [identifier?, hword, word?, hstart]
    split <;> rfl
  have hleaf : leaf? ('\ufeff' :: rest) = none := by
    rw [leaf?, hliteral]
    show (identifier? _).map _ = none
    rw [hidentifier]
    rfl
  have hsome := h.2 (rest.length + 2) (by simp)
  rw [sequence_cons ⟨by decide, by decide⟩, hleaf] at hsome
  cases hsome

theorem ofText?_of_reads {text : String} (h : Reads text.toList tokens []) :
    Token.ofText? text = some tokens := by
  have hmark : dropByteOrderMark text.toList = text.toList := by
    unfold dropByteOrderMark
    split
    · rename_i heq
      rw [heq] at h
      exact absurd h not_reads_mark
    · rfl
  have htokens := h.2 (text.length + 1) (by rw [String.length_toList]; exact Nat.lt_succ_self _)
  rw [Token.ofText?, hmark, htokens]

/-- No text begins with a closing delimiter. -/
theorem ofText?_closing (d : Delimiter) {text : String} (h : text.toList = d.closing :: rest) :
    Token.ofText? text = none := by
  have hmark : dropByteOrderMark text.toList = d.closing :: rest := by
    rw [h]
    cases d <;> rfl
  have htokens := (reads_close d rest).2 (text.length + 1) (by
    rw [← h, String.length_toList]
    exact Nat.lt_succ_self _)
  rw [Token.ofText?, hmark, htokens]

/-- A documentation comment holds its words in a group. -/
theorem notMem_doc? {doc : List Token} (h : doc? cs = some (doc, rest)) (name : String) :
    Token.word name ∉ doc := by
  unfold doc? at h
  split at h
  · split at h
    · cases h
    · cases h
      unfold docTokens
      split <;> simp
  · cases h

theorem leaf?_eq_word {name : String} (h : leaf? cs = some (.word name, rest)) :
    identifier? cs = some (name, rest) := by
  unfold leaf? at h
  split at h
  · cases h
  · split at h
    · rename_i found hpunct
      cases h
      unfold punct? at hpunct
      split at hpunct
      · split at hpunct
        · obtain ⟨⟨lifetime, after⟩, -, hlifetime⟩ := Option.bind_eq_some_iff.mp hpunct
          simp at hlifetime
        · cases hpunct
        · cases hpunct
      · cases hpunct
    · obtain ⟨⟨word, after⟩, hword, heq⟩ := Option.map_eq_some_iff.mp h
      cases heq
      exact hword

/-- **Every word among the tokens of a text is spelled as one.** -/
theorem isWord_of_mem_sequence {name : String} : ∀ {fuel : Nat} {cs final : List Char}
    {tokens : List Token}, sequence fuel cs = some (tokens, final) → .word name ∈ tokens →
      IsWord name.toList
  | 0, _, _, _, h, _ => by cases h
  | fuel + 1, cs, final, tokens, h, hmem => by
    rw [sequence] at h
    split at h
    · rename_i doc rest hdoc
      obtain ⟨⟨more, after⟩, hmore, heq⟩ := Option.bind_eq_some_iff.mp h
      cases heq
      rcases List.mem_append.mp hmem with hmem | hmem
      · exact absurd hmem (notMem_doc? hdoc name)
      · exact isWord_of_mem_sequence hmore hmem
    · split at h
      · cases h
        cases hmem
      · split at h
        · obtain ⟨⟨body, after⟩, -, heq⟩ := Option.bind_eq_some_iff.mp h
          dsimp only at heq
          split at heq
          · split at heq
            · obtain ⟨⟨more, last⟩, hmore, heq⟩ := Option.bind_eq_some_iff.mp heq
              cases heq
              rcases List.mem_cons.mp hmem with hmem | hmem
              · cases hmem
              · exact isWord_of_mem_sequence hmore hmem
            · cases heq
          · cases heq
        · split at h
          · cases h
            cases hmem
          · obtain ⟨⟨token, after⟩, hleaf, heq⟩ := Option.bind_eq_some_iff.mp h
            obtain ⟨⟨more, last⟩, hmore, heq⟩ := Option.bind_eq_some_iff.mp heq
            cases heq
            rcases List.mem_cons.mp hmem with rfl | hmem
            · exact isWord_of_identifier? (leaf?_eq_word hleaf)
            · exact isWord_of_mem_sequence hmore hmem

theorem isWord_of_ofText? {text name : String} {tokens : List Token}
    (h : Token.ofText? text = some tokens) (hmem : .word name ∈ tokens) : IsWord name.toList := by
  unfold Token.ofText? at h
  split at h
  · rename_i heq
    cases h
    exact isWord_of_mem_sequence heq hmem
  · cases h

end EntityTable.Source.Lexer
