import EntityTable.Proofs.Source.Lexing

/-! # Tokens before a comment

Where neither a quote nor a slash stands, no token goes beyond the next slash: words, numbers and
marks end before it at the latest (`Past`). So the lexer comes to a comment that stands behind such
a text, and if this is one that it refuses, the whole text has no tokens
(`ofText?_of_refused`). -/

namespace EntityTable.Source.Lexer

open EntityTable.Text

variable {cs rest : List Char}

/-- From one end of the text to another no slash is read. -/
def Past (cs rest : List Char) : Prop := ∃ front, cs = front ++ rest ∧ '/' ∉ front

namespace Past

theorem refl (cs : List Char) : Past cs cs := ⟨[], rfl, List.not_mem_nil⟩

theorem trans {middle : List Char} (h : Past cs middle) (h' : Past middle rest) : Past cs rest := by
  obtain ⟨front, rfl, hfront⟩ := h
  obtain ⟨front', rfl, hfront'⟩ := h'
  refine ⟨front ++ front', (List.append_assoc ..).symm, fun hmem => ?_⟩
  exact (List.mem_append.mp hmem).elim hfront hfront'

theorem cons {c : Char} (hc : c ≠ '/') (h : Past cs rest) : Past (c :: cs) rest := by
  obtain ⟨front, rfl, hfront⟩ := h
  exact ⟨c :: front, rfl, List.not_mem_cons_of_ne_of_not_mem hc.symm hfront⟩

theorem dropWhile {p : Char → Bool} (hp : p '/' = false) (cs : List Char) :
    Past cs (cs.dropWhile p) := by
  refine ⟨cs.takeWhile p, List.takeWhile_append_dropWhile.symm, fun hmem => ?_⟩
  have htrue := List.mem_takeWhile_imp hmem
  rw [hp] at htrue
  cases htrue

/-- What is left still ends with the text from the first slash on. -/
theorem exists_append {text tail : List Char} (h : Past (text ++ '/' :: tail) rest) :
    ∃ text', rest = text' ++ '/' :: tail ∧ text' <:+ text := by
  obtain ⟨front, heq, hfront⟩ := h
  rcases List.append_eq_append_iff.mp heq with ⟨more, rfl, htail⟩ | ⟨more, rfl, hrest⟩
  · cases more with
    | nil => exact ⟨[], htail.symm, List.nil_suffix⟩
    | cons c more =>
      cases htail
      exact absurd (List.mem_append_right _ List.mem_cons_self) hfront
  · exact ⟨more, hrest, List.suffix_append ..⟩

end Past

/-! ### Scanners -/

theorem past_word? {w : List Char} (h : word? cs = some (w, rest)) : Past cs rest := by
  unfold word? at h
  split at h
  · split at h
    · rename_i c cs hstart
      cases h
      refine .cons (fun heq => ?_) (.dropWhile (by decide) cs)
      rw [heq] at hstart
      exact absurd hstart (by decide)
    · cases h
  · cases h

theorem past_anyWord? {w : String} (h : anyWord? cs = some (w, rest)) : Past cs rest := by
  unfold anyWord? at h
  split at h
  · obtain ⟨⟨name, after⟩, hname, h⟩ := Option.bind_eq_some_iff.mp h
    dsimp only at h
    split at h
    · cases h
    · cases h
      exact .cons (by decide) (.cons (by decide) (past_word? hname))
  · obtain ⟨⟨name, after⟩, hname, h⟩ := Option.map_eq_some_iff.mp h
    cases h
    exact past_word? hname

theorem past_dropSuffix (cs : List Char) : Past cs (dropSuffix cs) := by
  unfold dropSuffix
  split
  · rename_i hword
    exact past_word? hword
  · exact .refl cs

theorem past_endNumber? (h : endNumber? cs = some rest) : Past cs rest := by
  have hbreak : wordBreak? (dropSuffix cs) = some rest := h
  unfold wordBreak? at hbreak
  split at hbreak
  · split at hbreak
    · cases hbreak
    · cases hbreak
      exact past_dropSuffix cs
  · cases hbreak
    exact past_dropSuffix cs

theorem past_digits? {base : Nat} : ∀ {cs : List Char} {empty : Bool},
    digits? base empty cs = some rest → Past cs rest
  | [], empty, h => by
    rw [digits?] at h
    split at h
    · cases h
    · cases h
      exact .refl _
  | c :: cs, empty, h => by
    rw [digits?] at h
    split at h
    · rename_i hline
      subst hline
      split at h
      · cases h
      · exact .cons (by decide) (past_digits? h)
    · split at h
      · rename_i digit hdigit
        have hc : c ≠ '/' := by
          rintro rfl
          cases hdigit
        split at h
        · exact .cons hc (past_digits? h)
        · split at h
          · cases h
          · split at h
            · cases h
            · cases h
              exact .refl _
      · split at h
        · cases h
        · cases h
          exact .refl _

theorem past_int? (h : int? cs = some rest) : Past cs rest := by
  obtain ⟨middle, hdigits, h⟩ := Option.bind_eq_some_iff.mp h
  refine .trans ?_ (past_endNumber? h)
  split at hdigits
  · exact .cons (by decide) (.cons (by decide) (past_digits? hdigits))
  · exact .cons (by decide) (.cons (by decide) (past_digits? hdigits))
  · exact .cons (by decide) (.cons (by decide) (past_digits? hdigits))
  · exact past_digits? hdigits

theorem past_exponent? (h : exponent? cs = some rest) : Past cs rest := by
  have hdigits (unsigned : List Char) : Past unsigned (unsigned.dropWhile isDigitOrLine) :=
    .dropWhile (by decide) unsigned
  unfold exponent? at h
  split at h
  rename_i signed unsigned heq
  have hunsigned : Past cs unsigned := by
    split at heq
    · cases heq
      exact .cons (by decide) (.refl _)
    · cases heq
      exact .cons (by decide) (.refl _)
    · cases heq
      exact .refl _
  have hrest := hunsigned.trans (hdigits unsigned)
  dsimp only at h
  split at h
  · cases h
    exact hrest
  · split at h
    · cases h
    · split at h
      · rename_i heq
        rw [heq] at hrest
        split at h
        · cases h
          exact hrest.trans (.cons (by decide) (hdigits _))
        · cases h
      · rename_i heq
        rw [heq] at hrest
        split at h
        · cases h
          exact hrest.trans (.cons (by decide) (hdigits _))
        · cases h
      · cases h

/-- Behind a letter there may be an exponent, or the letter is not read. -/
theorem past_exponentOr {letter : Char} (hletter : letter ≠ '/')
    (h : some ((exponent? cs).getD (letter :: cs)) = some rest) : Past (letter :: cs) rest := by
  cases hexponent : exponent? cs with
  | none =>
    rw [hexponent] at h
    cases h
    exact .refl _
  | some after =>
    rw [hexponent] at h
    cases h
    exact .cons hletter (past_exponent? hexponent)

theorem past_floatDigits? (h : floatDigits? cs = some rest) : Past cs rest := by
  unfold floatDigits? at h
  split at h
  · rename_i c cs
    split at h
    · have hdigits : Past (c :: cs) ((c :: cs).dropWhile isDigitOrLine) := .dropWhile (by decide) _
      split at h
      · rename_i after heq
        rw [heq] at hdigits
        have hpoint : Past (c :: cs) (after.dropWhile isDigitOrLine) :=
          hdigits.trans (.cons (by decide) (.dropWhile (by decide) after))
        split at h
        · cases h
        · dsimp only at h
          split at h
          · rename_i more hafter
            rw [hafter] at hpoint h
            exact hpoint.trans (past_exponentOr (by decide) h)
          · rename_i more hafter
            rw [hafter] at hpoint h
            exact hpoint.trans (past_exponentOr (by decide) h)
          · cases h
            exact hpoint
      · rename_i more heq
        rw [heq] at hdigits
        exact hdigits.trans (.cons (by decide) (past_exponent? h))
      · rename_i more heq
        rw [heq] at hdigits
        exact hdigits.trans (.cons (by decide) (past_exponent? h))
      · cases h
    · cases h
  · cases h

theorem past_float? (h : float? cs = some rest) : Past cs rest := by
  obtain ⟨middle, hdigits, h⟩ := Option.bind_eq_some_iff.mp h
  exact (past_floatDigits? hdigits).trans (past_endNumber? h)

/-! ### Quiet text -/

/-- The character starts neither a comment nor a literal in quotes. -/
def isQuiet (c : Char) : Bool := !(['/', '\x22', '\x27'].contains c)

theorem ne_of_isQuiet {c : Char} (h : isQuiet c = true) : c ≠ '/' := by
  rintro rfl
  exact absurd h (by decide)

section Quiet
variable {text tail : List Char} (hquiet : ∀ c ∈ text, isQuiet c = true)
include hquiet

/-- The quotes of a raw literal stand behind the slash, if anywhere. -/
theorem raw?_quiet (form : QuotedForm) : raw? form (text ++ '/' :: tail) = none := by
  unfold raw?
  dsimp only
  split
  · rename_i body heq
    have hpast : Past (text ++ '/' :: tail) ('\x22' :: body) := heq ▸ .dropWhile (by decide) _
    obtain ⟨text', htext, hsuffix⟩ := hpast.exists_append
    cases text' with
    | nil => cases htext
    | cons c text' =>
      cases htext
      exact absurd (hquiet _ (hsuffix.subset List.mem_cons_self)) (by decide)
  · rfl

omit hquiet in
/-- The first character is the slash, or it is quiet and so is what follows. -/
theorem eq_slash_or {text tail : List Char} (hquiet : ∀ c ∈ text, isQuiet c = true) {d : Char}
    (h : text ++ '/' :: tail = d :: rest) : d = '/' ∨ isQuiet d = true ∧
      ∃ text', rest = text' ++ '/' :: tail ∧ ∀ c ∈ text', isQuiet c = true := by
  cases text with
  | nil =>
    cases h
    exact .inl rfl
  | cons c text =>
    cases h
    exact .inr ⟨hquiet d List.mem_cons_self, text, rfl,
      fun c hc => hquiet c (List.mem_cons_of_mem d hc)⟩

/-- A literal here is a number. -/
theorem past_afterLiteral? (h : afterLiteral? (text ++ '/' :: tail) = some rest) :
    Past (text ++ '/' :: tail) rest := by
  have hquote {d : Char} {after : List Char} (hd : d ∈ ['\x22', '\x27'])
      {text : List Char} (hquiet : ∀ c ∈ text, isQuiet c = true) :
      text ++ '/' :: tail ≠ d :: after := by
    intro heq
    simp only [List.mem_cons, List.not_mem_nil, or_false] at hd
    rcases eq_slash_or hquiet heq with rfl | ⟨hd', -⟩
    · rcases hd with hd | hd <;> cases hd
    · rcases hd with rfl | rfl <;> cases hd'
  have hraw {form : QuotedForm} {d : Char} {after : List Char} (hd : d ≠ '/')
      {text : List Char} (hquiet : ∀ c ∈ text, isQuiet c = true)
      (heq : text ++ '/' :: tail = d :: after) : raw? form after = none := by
    rcases eq_slash_or hquiet heq with hslash | ⟨-, text', rfl, hquiet'⟩
    · exact absurd hslash hd
    · exact raw?_quiet hquiet' form
  have hnext {d : Char} {after : List Char} (hd : d ≠ '/')
      (heq : text ++ '/' :: tail = d :: after) :
      ∃ text', after = text' ++ '/' :: tail ∧ ∀ c ∈ text', isQuiet c = true :=
    (eq_slash_or hquiet heq).elim (fun hslash => absurd hslash hd) And.right
  unfold afterLiteral? at h
  split at h
  · rename_i heq
    exact absurd heq (hquote (by decide) hquiet)
  · rename_i heq
    rw [hraw (by decide) hquiet heq] at h
    cases h
  · rename_i heq
    obtain ⟨text', htext', hquiet'⟩ := hnext (by decide) heq
    exact absurd htext'.symm (hquote (by decide) hquiet')
  · rename_i heq
    obtain ⟨text', htext', hquiet'⟩ := hnext (by decide) heq
    rw [hraw (by decide) hquiet' htext'.symm] at h
    cases h
  · rename_i heq
    obtain ⟨text', htext', hquiet'⟩ := hnext (by decide) heq
    exact absurd htext'.symm (hquote (by decide) hquiet')
  · rename_i heq
    obtain ⟨text', htext', hquiet'⟩ := hnext (by decide) heq
    exact absurd htext'.symm (hquote (by decide) hquiet')
  · rename_i heq
    obtain ⟨text', htext', hquiet'⟩ := hnext (by decide) heq
    rw [hraw (by decide) hquiet' htext'.symm] at h
    cases h
  · rename_i heq
    exact absurd heq (hquote (by decide) hquiet)
  · cases hfloat : float? (text ++ '/' :: tail) with
    | some after =>
      rw [hfloat] at h
      cases h
      exact past_float? hfloat
    | none =>
      rw [hfloat] at h
      exact past_int? h

/-- **No token goes beyond the slash.** -/
theorem past_leaf? {token : Token} (htext : text ≠ [])
    (h : leaf? (text ++ '/' :: tail) = some (token, rest)) : Past (text ++ '/' :: tail) rest := by
  obtain ⟨c, text, rfl⟩ := List.exists_cons_of_ne_nil htext
  have hc := hquiet c List.mem_cons_self
  unfold leaf? at h
  split at h
  · rename_i hliteral
    cases h
    exact past_afterLiteral? hquiet hliteral
  · split at h
    · rename_i found hpunct
      cases h
      unfold punct? at hpunct
      split at hpunct
      · split at hpunct
        · rename_i heq
          cases heq
          exact absurd hc (by decide)
        · rename_i heq
          cases heq
          cases hpunct
          exact .cons (ne_of_isQuiet hc) (.refl _)
        · cases hpunct
      · cases hpunct
    · obtain ⟨⟨name, after⟩, hname, heq⟩ := Option.map_eq_some_iff.mp h
      cases heq
      unfold identifier? at hname
      split at hname
      · cases hname
      · exact past_anyWord? hname

end Quiet

/-! ### Refused comments -/

/-- A line is read up to its end, where a carriage return may be left out. -/
theorem exists_restOfLine {line : List Char} (h : '\n' ∉ line) (rest : List Char) :
    ∃ read, restOfLine (line ++ '\n' :: rest) = (read, '\n' :: rest) ∧
      (line.getLast? ≠ some '\r' → read = line) := by
  induction line with
  | nil => exact ⟨[], rfl, fun _ => rfl⟩
  | cons c line ih =>
    obtain ⟨read, hread, hsame⟩ := ih (List.not_mem_of_not_mem_cons h)
    rw [List.cons_append]
    unfold restOfLine
    split
    · rename_i heq
      cases heq
    · rename_i heq
      cases heq
      exact absurd List.mem_cons_self h
    · rename_i heq
      obtain ⟨rfl, heq⟩ := List.cons.inj heq
      cases line with
      | nil =>
        cases heq
        exact ⟨[], rfl, fun hlast => absurd rfl hlast⟩
      | cons d line =>
        cases heq
        exact absurd (List.mem_cons_of_mem _ List.mem_cons_self) h
    · rename_i heq
      cases heq
      rw [hread]
      refine ⟨c :: read, rfl, fun hlast => ?_⟩
      rw [hsame]
      intro hline
      rw [List.getLast?_cons, hline] at hlast
      exact hlast rfl

/-- A documentation comment starts here that the lexer refuses. -/
structure IsRefused (tail : List Char) : Prop where
  mark : ∃ c rest, tail = c :: rest ∧ (c = '/' ∨ c = '*')
  noLine : startsLineComment ('/' :: tail) = false
  noBlock : startsBlockComment ('/' :: tail) = false
  noDoc : doc? ('/' :: tail) = none

section Refused
variable {tail : List Char} (hrefused : IsRefused tail)
include hrefused

/-- No other token starts with a comment. -/
theorem IsRefused.leaf?_eq_none : leaf? ('/' :: tail) = none := by
  obtain ⟨c, rest, rfl, rfl | rfl⟩ := hrefused.mark <;> rfl

/-- Blanks before the comment are dropped, but not the comment. -/
theorem exists_dropBlanks (fuel : Nat) {text : List Char} (hquiet : ∀ c ∈ text, isQuiet c = true) :
    ∃ text', dropBlanks fuel (text ++ '/' :: tail) = text' ++ '/' :: tail ∧ text' <:+ text := by
  induction fuel generalizing text with
  | zero => exact ⟨text, rfl, List.suffix_rfl⟩
  | succ fuel ih =>
    cases text with
    | nil =>
      refine ⟨[], ?_, List.nil_suffix⟩
      rw [List.nil_append, dropBlanks, hrefused.noLine, hrefused.noBlock]
      rfl
    | cons c text =>
      have hc : c ≠ '/' := ne_of_isQuiet (hquiet c List.mem_cons_self)
      rw [List.cons_append, dropBlanks, startsLineComment_cons hc, startsBlockComment_cons hc]
      obtain ⟨text', hdrop, hsuffix⟩ := ih fun d hd => hquiet d (List.mem_cons_of_mem c hd)
      cases isSeparator c with
      | true => exact ⟨text', hdrop, hsuffix.trans (List.suffix_cons ..)⟩
      | false => exact ⟨c :: text, rfl, List.suffix_rfl⟩

/-- **The lexer does not come past a comment that it refuses.** Where it stops, at a closing
delimiter, it has not come to the comment yet. -/
theorem exists_of_sequence : ∀ {fuel : Nat} {cs text final : List Char} {tokens : List Token},
    skip cs = text ++ '/' :: tail → (∀ c ∈ text, isQuiet c = true) →
    sequence fuel cs = some (tokens, final) →
    ∃ c text', final = c :: text' ++ '/' :: tail ∧ c :: text' <:+ text
  | 0, _, _, _, _, _, _, h => by cases h
  | fuel + 1, cs, text, final, tokens, hskip, hquiet, h => by
    -- What follows a token is an end of the quiet text again, before the comment.
    have hmore {after last : List Char} {more : List Token} {text₂ : List Char}
        (hafter : after = text₂ ++ '/' :: tail) (hsuffix : text₂ <:+ text)
        (h : sequence fuel after = some (more, last)) :
        ∃ c text', last = c :: text' ++ '/' :: tail ∧ c :: text' <:+ text := by
      have hquiet₂ : ∀ c ∈ text₂, isQuiet c = true := fun c hc => hquiet c (hsuffix.subset hc)
      obtain ⟨text₃, hskip, hsuffix₃⟩ := exists_dropBlanks hrefused after.length hquiet₂
      obtain ⟨c, text', hlast, hsuffix'⟩ := exists_of_sequence
        (by rw [skip]; exact (congrArg _ hafter).trans hskip)
        (fun c hc => hquiet₂ c (hsuffix₃.subset hc)) h
      exact ⟨c, text', hlast, (hsuffix'.trans hsuffix₃).trans hsuffix⟩
    rw [sequence, hskip] at h
    cases text with
    | nil =>
      dsimp only at h
      rw [List.nil_append, hrefused.noDoc, hrefused.leaf?_eq_none] at h
      cases h
    | cons c text =>
      have hc : c ≠ '/' := ne_of_isQuiet (hquiet c List.mem_cons_self)
      dsimp only [List.cons_append] at h
      rw [doc?_cons hc] at h
      dsimp only at h
      split at h
      · obtain ⟨⟨body, after⟩, hbody, heq⟩ := Option.bind_eq_some_iff.mp h
        obtain ⟨e, text₂, rfl, hsuffix⟩ := hmore rfl (List.suffix_cons c text) hbody
        dsimp only [List.cons_append] at heq
        split at heq
        · obtain ⟨⟨more, last⟩, hrest, heq⟩ := Option.bind_eq_some_iff.mp heq
          cases heq
          exact hmore rfl ((List.suffix_cons e text₂).trans hsuffix) hrest
        · cases heq
      · split at h
        · cases h
          exact ⟨c, text, rfl, List.suffix_rfl⟩
        · obtain ⟨⟨token, after⟩, hleaf, heq⟩ := Option.bind_eq_some_iff.mp h
          obtain ⟨⟨more, last⟩, hrest, heq⟩ := Option.bind_eq_some_iff.mp heq
          cases heq
          obtain ⟨text₂, hafter, hsuffix⟩ :=
            (past_leaf? hquiet (List.cons_ne_nil c text) hleaf).exists_append
          exact hmore hafter hsuffix hrest

/-- **A text has no tokens if a refused comment stands in it** behind a line that is dropped and
quiet text. -/
theorem ofText?_eq_none {source : String} {line text : List Char}
    (hsource : source.toList = '/' :: '/' :: ' ' :: line ++ '\n' :: text ++ '/' :: tail)
    (hline : '\n' ∉ line) (hquiet : ∀ c ∈ text, isQuiet c = true) :
    Token.ofText? source = none := by
  have hline' : '\n' ∉ '/' :: '/' :: ' ' :: line := by simpa using hline
  obtain ⟨read, hread, -⟩ := exists_restOfLine hline' (text ++ '/' :: tail)
  have hquiet' : ∀ c ∈ '\n' :: text, isQuiet c = true := by
    rintro c (_ | ⟨_, hc⟩)
    · decide
    · exact hquiet c hc
  have hskip : ∃ text', skip source.toList = text' ++ '/' :: tail ∧ text' <:+ '\n' :: text := by
    obtain ⟨text', hdrop, hsuffix⟩ := exists_dropBlanks hrefused
      ('/' :: ' ' :: line ++ '\n' :: text ++ '/' :: tail).length hquiet'
    refine ⟨text', ?_, hsuffix⟩
    rw [skip, hsource, ← hdrop]
    simp only [List.append_assoc, List.cons_append] at hread ⊢
    rw [List.length_cons, dropBlanks, hread]
    rfl
  obtain ⟨text', hskip, hsuffix⟩ := hskip
  have hmark : dropByteOrderMark source.toList = source.toList := by
    rw [hsource]
    rfl
  unfold Token.ofText?
  rw [hmark]
  split
  · rename_i heq
    obtain ⟨c, text₂, hend, -⟩ := exists_of_sequence hrefused hskip
      (fun c hc => hquiet' c (hsuffix.subset hc)) heq
    cases hend
  · rfl

end Refused

end EntityTable.Source.Lexer
