import EntityTable.Proofs.Source.Lexing
import EntityTable.Proofs.Source.Matches
import EntityTable.Source.Identifier

/-! # Texts that spell expressions

A text spells a form if it is read as tokens of that form wherever a text of some kind follows. What
may follow depends on the end of the text only: after a number no point of a float may come, after a
word no further letter, and after a parenthesis anything. Texts are put together from left to right,
and the forms with them. -/

namespace EntityTable.Source

open Lexer Grammar

/-- Before a rest of the given kind, the text is read as tokens of the form. -/
def Spells (follow : List Char → Prop) (text : List Char) (form : List Token → Prop) : Prop :=
  ∀ ⦃rest more final⦄, follow rest → Reads rest more final →
    ∃ ts, form ts ∧ Reads (text ++ rest) (ts ++ more) final

/-- No condition on what follows. -/
def Anything (_ : List Char) : Prop := True

variable {follow follow' : List Char → Prop} {a b text : List Char}
  {form form' form'' : List Token → Prop}

/-- What may go on after a number, given that it does not go on with a point. -/
theorem endsNumber_cons {c : Char} {rest : List Char} (h : c ∈ stops) (hpoint : c ≠ '.') :
    EndsNumber (c :: rest) :=
  ⟨stops_cons h, fun after heq => by cases heq; exact absurd rfl hpoint⟩

theorem endsNumber_nil : EndsNumber [] := ⟨stops_nil, nofun⟩

/-! ### Operators -/

/-- The characters of the operators that are read here. -/
def marks : List Char := ['&', '*', ',', '.', ':', '<', '=', '>', '?', '|']

theorem startsPunct_mark {c : Char} (hc : c ∈ marks) (rest : List Char) :
    startsPunct (c :: rest) = true := by
  simp only [marks, List.mem_cons, List.not_mem_nil, or_false] at hc
  rcases hc with rfl | rfl | rfl | rfl | rfl | rfl | rfl | rfl | rfl | rfl <;> rfl

namespace Lexer.Reads
variable {rest final : List Char} {tokens : List Token} {c d : Char}

theorem mark (h : Reads rest tokens final) (hc : c ∈ marks) :
    ∃ joint, Reads (c :: rest) (.punct c joint :: tokens) final := by
  have hmarks : ∀ c ∈ marks, c ∈ punctuation ∧ c ≠ '\x27' ∧ c ≠ '/' :=
    List.all_iff_forall_prop.mp (by decide)
  obtain ⟨hpunct, hquote, hslash⟩ := hmarks c hc
  exact ⟨_, h.punct hpunct hquote hslash⟩

theorem operator (h : Reads rest tokens final) (hc : c ∈ marks) (hd : d ∈ marks) :
    ∃ joint, Reads (c :: d :: rest) (.punct c true :: .punct d joint :: tokens) final := by
  have hmarks : ∀ c ∈ marks, c ∈ punctuation ∧ c ≠ '\x27' ∧ c ≠ '/' :=
    List.all_iff_forall_prop.mp (by decide)
  obtain ⟨hpunct, hquote, hslash⟩ := hmarks c hc
  obtain ⟨joint, hmore⟩ := h.mark hd
  have hall := hmore.punct hpunct hquote hslash
  rw [startsPunct_mark hd] at hall
  exact ⟨joint, hall⟩

end Lexer.Reads

/-! ### Putting texts together -/

namespace Spells

theorem mono (h : Spells follow text form) (hfollow : ∀ rest, follow' rest → follow rest)
    (hform : ∀ ts, form ts → form' ts) : Spells follow' text form' := by
  intro rest more final hrest hreads
  obtain ⟨ts, hts, htext⟩ := h (hfollow rest hrest) hreads
  exact ⟨ts, hform ts hts, htext⟩

/-- The text may be followed by less than it allows. -/
theorem before (h : Spells follow text form) (hfollow : ∀ rest, follow' rest → follow rest) :
    Spells follow' text form := h.mono hfollow fun _ => id

/-- The form may be taken for a wider one. -/
theorem as (h : Spells follow text form) (hform : ∀ ts, form ts → form' ts) :
    Spells follow text form' := h.mono (fun _ => id) hform

theorem anywhere (h : Spells Anything text form) : Spells follow text form :=
  h.before fun _ _ => trivial

/-- **One text after another.** -/
theorem append (ha : Spells follow a form) (hb : Spells follow' b form')
    (hfollow : ∀ rest, follow' rest → follow (b ++ rest))
    (hform : ∀ x y, form x → form' y → form'' (x ++ y)) : Spells follow' (a ++ b) form'' := by
  intro rest more final hrest hreads
  obtain ⟨y, hy, hb⟩ := hb hrest hreads
  obtain ⟨x, hx, ha⟩ := ha (hfollow rest hrest) hb
  rw [← List.append_assoc x y more] at ha
  rw [List.append_assoc a b rest]
  exact ⟨x ++ y, hform x y hx hy, ha⟩

theorem blank (h : Spells follow text form) : Spells follow (' ' :: text) form := by
  intro rest more final hrest hreads
  obtain ⟨ts, hts, htext⟩ := h hrest hreads
  exact ⟨ts, hts, htext.blank⟩

theorem blankAfter (h : Spells follow text form) (hfollow : ∀ rest, follow (' ' :: rest)) :
    Spells Anything (text ++ [' ']) form := by
  intro rest more final _ hreads
  rw [List.append_assoc, List.singleton_append]
  exact h (hfollow rest) hreads.blank

theorem mark {c : Char} (hc : c ∈ marks) (h : Spells follow text form)
    (hform : ∀ joint ts, form ts → form' (.punct c joint :: ts)) :
    Spells follow (c :: text) form' := by
  intro rest more final hrest hreads
  obtain ⟨ts, hts, htext⟩ := h hrest hreads
  obtain ⟨joint, htext⟩ := htext.mark hc
  exact ⟨_, hform joint ts hts, htext⟩

/-- Two characters that form one operator. -/
theorem operator {c d : Char} (hc : c ∈ marks) (hd : d ∈ marks) (h : Spells follow text form)
    (hform : ∀ joint ts, form ts → form' (.punct c true :: .punct d joint :: ts)) :
    Spells follow (c :: d :: text) form' := by
  intro rest more final hrest hreads
  obtain ⟨ts, hts, htext⟩ := h hrest hreads
  obtain ⟨joint, htext⟩ := htext.operator hc hd
  exact ⟨_, hform joint ts hts, htext⟩

/-- **A text between delimiters.** -/
theorem group (d : Delimiter) (h : Spells follow text form)
    (hclose : ∀ rest, follow (d.closing :: rest)) (hform : ∀ ts, form ts → form' [.group d ts]) :
    Spells Anything (d.opening :: (text ++ [d.closing])) form' := by
  intro rest more final _ hreads
  obtain ⟨ts, hts, htext⟩ := h (hclose rest) (reads_close d rest)
  rw [List.append_nil] at htext
  rw [List.cons_append, List.append_assoc, List.singleton_append]
  exact ⟨_, hform ts hts, Reads.group htext hreads⟩

theorem nil : Spells Anything [] fun ts => ts = [] := fun _ _ _ _ hreads => ⟨[], rfl, hreads⟩

end Spells

theorem spells_word {w : List Char} (hw : IsWord w) :
    Spells Stops w fun ts => ts = [.word (String.ofList w)] :=
  fun _ _ _ hrest hreads => ⟨_, rfl, hreads.word hw hrest⟩

/-! ### Names and paths -/

/-- The text is an identifier. -/
structure IsNameText (w : List Char) : Prop where
  word : IsWord w
  noKeyword : keywords.contains (String.ofList w) = false

/-- The text is a plain word and no keyword. -/
def isPlainName (w : List Char) : Bool :=
  isPlainWord w && !keywords.contains (String.ofList w)

theorem IsNameText.of_isPlainName {w : List Char} (h : isPlainName w = true) : IsNameText w := by
  obtain ⟨hword, hkeyword⟩ := Bool.and_eq_true_iff.mp h
  exact ⟨.of_isPlainWord hword, (Bool.not_eq_true' _).mp hkeyword⟩

theorem IsNameText.isName {w : List Char} (h : IsNameText w) : IsName (String.ofList w) where
  noKeyword := h.noKeyword
  noDigit := by
    obtain ⟨c, cs, rfl, hstart⟩ := h.word.exists_cons
    rw [String.toList_ofList]
    exact isDigit_eq_false_of_isStart hstart

/-- All that an identifier is read from is one word. -/
theorem eq_word_of_ident {tokens : List Token} {name : String}
    (h : Parser.runAll Parser.ident tokens = .ok name) :
    tokens = [.word name] ∧ keywords.contains name = false := by
  match tokens, h with
  | [], h | .punct .. :: _, h | .lifetime .. :: _, h | .literal .. :: _, h | .group .. :: _, h =>
    cases h
  | .word w :: rest, h =>
    cases hkeyword : keywords.contains w with
    | true =>
      have hrun : Parser.runAll Parser.ident (.word w :: rest) = .error (.keyword w) := by
        show (StateT.run (if keywords.contains w then _ else _ : Parser String) _ >>= _) = _
        rw [hkeyword]
        rfl
      cases hrun.symm.trans h
    | false =>
      cases rest with
      | nil =>
        cases (Parser.yields_ident hkeyword []).runAll.symm.trans h
        exact ⟨rfl, hkeyword⟩
      | cons token more =>
        have hrun : Parser.runAll Parser.ident (.word w :: token :: more) =
            .error (.leftOver none) := by
          show (Parser.ident.run _ >>= _) = _
          rw [Parser.yields_ident hkeyword (token :: more) none]
          rfl
        cases hrun.symm.trans h

/-- **An identifier is a name that a text may be made of.** -/
theorem isNameText_of_identifier? {text name : String} (h : identifier? text = some name) :
    IsNameText name.toList := by
  unfold Source.identifier? at h
  split at h
  · cases h
  · cases hname : identOfText text with
    | error e => rw [hname] at h; cases h
    | ok word =>
      rw [hname] at h
      cases h
      unfold identOfText Parser.runText at hname
      split at hname
      · rename_i tokens htokens
        obtain ⟨rfl, hkeyword⟩ := eq_word_of_ident hname
        exact ⟨isWord_of_ofText? htokens (List.mem_singleton_self _), by rwa [String.ofList_toList]⟩
      · cases hname

/-- The text consists of words joined by `::`, with a blank on both sides or none. -/
inductive IsPathText : List String → List Char → Prop
  | word {w : List Char} (hw : IsWord w) (h : IsSegment (String.ofList w)) :
      IsPathText [String.ofList w] w
  | cons {w text : List Char} {ws : List String} (hw : IsWord w)
      (h : IsSegment (String.ofList w)) (hpath : IsPathText ws text) :
      IsPathText (String.ofList w :: ws) (w ++ ':' :: ':' :: text)
  | spaced {w text : List Char} {ws : List String} (hw : IsWord w)
      (h : IsSegment (String.ofList w)) (hpath : IsPathText ws text) :
      IsPathText (String.ofList w :: ws) (w ++ ' ' :: ':' :: ':' :: ' ' :: text)

theorem IsNameText.path {w : List Char} (h : IsNameText w) : IsPathText [String.ofList w] w :=
  .word h.word (Or.inl h.isName)

theorem IsPathText.spells {ws : List String} (h : IsPathText ws text) :
    Spells Stops text (IsPath ws) := by
  induction h with
  | word hw h => exact (spells_word hw).as fun ts hts => hts ▸ .word h
  | @cons w text ws hw h hpath ih =>
    have hmore : Spells Stops (':' :: ':' :: text) fun ts =>
        ∃ joint ps, IsPath ws ps ∧ ts = .punct ':' true :: .punct ':' joint :: ps :=
      ih.operator (by decide) (by decide) fun joint ps hps => ⟨joint, ps, hps, rfl⟩
    refine (spells_word hw).append hmore (fun _ _ => stops_cons (by decide)) ?_
    rintro x y rfl ⟨joint, ps, hps, rfl⟩
    exact .cons h joint hps
  | @spaced w text ws hw h hpath ih =>
    have hmore : Spells Stops (' ' :: ':' :: ':' :: ' ' :: text) fun ts =>
        ∃ joint ps, IsPath ws ps ∧ ts = .punct ':' true :: .punct ':' joint :: ps :=
      (ih.blank.operator (by decide) (by decide) fun joint ps hps => ⟨joint, ps, hps, rfl⟩).blank
    refine (spells_word hw).append hmore (fun _ _ => stops_cons (by decide)) ?_
    rintro x y rfl ⟨joint, ps, hps, rfl⟩
    exact .cons h joint hps

/-! ### Operands -/

theorem IsPathText.operand {ws : List String} (h : IsPathText ws text) :
    Spells Stops text IsOperand := h.spells.as fun _ hpath => .chain hpath.chain

/-- A literal that starts neither as `true` nor as `false` stays a literal when it is printed. -/
theorem isChain_literal_of_head {text : String} (h : ∀ c ∈ text.toList.head?, c ∉ ['t', 'f']) :
    IsChain [.literal text] := by
  refine isChain_literal fun hmem => ?_
  simp only [List.mem_cons, List.not_mem_nil, or_false] at hmem
  rcases hmem with rfl | rfl
  · exact h 't' rfl (by decide)
  · exact h 'f' rfl (by decide)

theorem spells_number (h : IsNumber text) : Spells EndsNumber text IsOperand := by
  intro rest more final hrest hreads
  refine ⟨_, .chain (isChain_literal_of_head fun c hc hmem => ?_), hreads.number h hrest⟩
  rw [String.toList_ofList] at hc
  have hdigits : ∀ c ∈ ['t', 'f'], c.isDigit = false := List.all_iff_forall_prop.mp (by decide)
  exact absurd (h.digits c (List.mem_of_mem_head? hc)) (by rw [hdigits c hmem]; exact nofun)

theorem spells_quote (text : String) : Spells Stops (Literal.quote text).toList IsOperand := by
  intro rest more final hrest hreads
  refine ⟨_, .chain (isChain_literal_of_head fun c hc => ?_), hreads.quote text hrest⟩
  rw [Literal.quote, String.toList_append, String.toList_append] at hc
  cases hc
  decide

theorem Spells.inParens (h : Spells EndsNumber text form) : Spells Anything ('(' :: (text ++ [')']))
    fun ts => ∃ body, form body ∧ ts = [.group .paren body] :=
  h.group .paren (fun _ => endsNumber_cons (by decide) (by decide)) fun body hbody =>
    ⟨body, hbody, rfl⟩

theorem Spells.paren (h : Spells EndsNumber text IsExpr) :
    Spells Anything ('(' :: (text ++ [')'])) IsOperand := by
  refine h.inParens.as ?_
  rintro _ ⟨body, hbody, rfl⟩
  exact .chain hbody.paren

theorem IsPathText.call {ws : List String} {args : List Char} (h : IsPathText ws text)
    (hargs : Spells EndsNumber args IsArgs) :
    Spells Anything (text ++ '(' :: (args ++ [')'])) IsOperand := by
  refine h.spells.append hargs.inParens (fun _ _ => stops_cons (by decide)) ?_
  rintro x y hpath ⟨args, hargs, rfl⟩
  exact .chain (hpath.call hargs)

/-- A name after a dot. -/
theorem IsNameText.member {w : List Char} (h : IsNameText w) : Spells Stops ('.' :: w) fun ts =>
    ∃ joint, ts = [.punct '.' joint, .word (String.ofList w)] :=
  (spells_word h.word).mark (by decide) fun joint _ hts => ⟨joint, hts ▸ rfl⟩

/-- A point with a name may follow a number. -/
theorem IsNameText.endsNumber {w : List Char} (h : IsNameText w) (rest : List Char) :
    EndsNumber ('.' :: (w ++ rest)) := by
  refine ⟨stops_cons (by decide), fun after heq => ?_⟩
  cases heq
  obtain ⟨c, cs, rfl, hstart⟩ := h.word.exists_cons
  exact ⟨c, rfl, hstart⟩

namespace Spells
variable (h : Spells EndsNumber text IsOperand)
include h

theorem question : Spells Anything (text ++ ['?']) IsOperand := by
  have hmark : Spells Anything ['?'] fun ts => ∃ joint, ts = [.punct '?' joint] :=
    nil.mark (by decide) fun joint _ hts => ⟨joint, hts ▸ rfl⟩
  refine h.append hmark (fun _ _ => endsNumber_cons (by decide) (by decide)) ?_
  rintro x y hx ⟨joint, rfl⟩
  exact hx.extend fun _ hchain => hchain.question joint

theorem field {w : List Char} (hw : IsNameText w) : Spells Stops (text ++ '.' :: w) IsOperand := by
  refine h.append hw.member (fun rest _ => hw.endsNumber rest) ?_
  rintro x y hx ⟨joint, rfl⟩
  exact hx.extend fun _ hchain => hchain.field hw.isName joint

theorem method {w args : List Char} (hw : IsNameText w) (hargs : Spells EndsNumber args IsArgs) :
    Spells Anything (text ++ '.' :: (w ++ '(' :: (args ++ [')']))) IsOperand := by
  have hcall : Spells Anything ('.' :: w ++ '(' :: (args ++ [')'])) fun ts => ∃ joint args,
      IsArgs args ∧ ts = [.punct '.' joint, .word (String.ofList w), .group .paren args] := by
    refine hw.member.append hargs.inParens (fun _ _ => stops_cons (by decide)) ?_
    rintro x y ⟨joint, rfl⟩ ⟨args, hargs, rfl⟩
    exact ⟨joint, args, hargs, rfl⟩
  refine h.append hcall (fun rest _ => ?_) ?_
  · rw [List.cons_append, List.append_assoc]
    exact hw.endsNumber _
  · rintro x y hx ⟨joint, args, hargs, rfl⟩
    exact hx.extend fun _ hchain => hchain.method hw.isName joint hargs

end Spells

theorem Spells.borrow (h : Spells follow text IsOperand) : Spells follow ('&' :: text) IsOperand :=
  h.mark (by decide) fun joint _ hts => .reference joint hts

theorem Spells.deref (h : Spells follow text IsOperand) : Spells follow ('*' :: text) IsOperand :=
  h.mark (by decide) fun joint _ hts => .deref joint hts

theorem isNumber_digit {d : Char} (hd : d ∈ digitChars) : IsNumber [d] where
  ne_nil := List.cons_ne_nil d []
  digits := by
    have hdigits : ∀ d ∈ digitChars, d.isDigit = true :=
      List.all_iff_forall_prop.mp (by decide)
    rintro c hc
    cases List.mem_singleton.mp hc
    exact hdigits d hd

/-- The field of a tuple; a number must not come before the point. -/
theorem Spells.index (h : Spells Stops text IsOperand) {d : Char} (hd : d ∈ digitChars) :
    Spells EndsNumber (text ++ ['.', d]) IsOperand := by
  have hnumber : Spells EndsNumber [d] fun ts => ts = [.literal (String.singleton d)] :=
    fun _ _ _ hrest hreads => ⟨_, rfl, hreads.number (isNumber_digit hd) hrest⟩
  have hmember : Spells EndsNumber ['.', d] fun ts =>
      ∃ joint, ts = [.punct '.' joint, .literal (String.singleton d)] :=
    hnumber.mark (by decide) fun joint _ hts => ⟨joint, hts ▸ rfl⟩
  refine h.append hmember (fun _ _ => stops_cons (by decide)) ?_
  rintro x y hx ⟨joint, rfl⟩
  exact hx.extend fun _ hchain => hchain.index hd joint

/-! ### Terms, closures and arguments -/

theorem Spells.cast (h : Spells EndsNumber text IsTerm) {ws : List String} {path : List Char}
    (hpath : IsPathText ws path) : Spells Stops (text ++ " as ".toList ++ path) IsTerm := by
  have has : IsWord "as".toList := .of_isPlainWord (by decide)
  have hty : Spells Stops (" as ".toList ++ path) fun ts =>
      ∃ ps, IsPath ws ps ∧ ts = .word "as" :: ps := by
    refine Spells.blank ((spells_word has).append hpath.spells.blank
      (fun _ _ => stops_cons (by decide)) ?_)
    rintro x y rfl hps
    exact ⟨y, hps, rfl⟩
  rw [List.append_assoc]
  refine h.append hty (fun _ _ => endsNumber_cons (by decide) (by decide)) ?_
  rintro x y hx ⟨ps, hps, rfl⟩
  exact .cast hx hps

theorem Spells.closure (h : Spells EndsNumber text IsTerm) {w : List Char} (hw : IsNameText w) :
    Spells EndsNumber ('|' :: (w ++ '|' :: text)) IsExpr := by
  have hbody : Spells EndsNumber ('|' :: text) fun ts =>
      ∃ joint body, IsTerm body ∧ ts = .punct '|' joint :: body :=
    h.mark (by decide) fun joint body hbody => ⟨joint, body, hbody, rfl⟩
  have hparam : Spells EndsNumber (w ++ '|' :: text) fun ts => ∃ joint body, IsTerm body ∧
      ts = .word (String.ofList w) :: .punct '|' joint :: body := by
    refine (spells_word hw.word).append hbody (fun _ _ => stops_cons (by decide)) ?_
    rintro x y rfl ⟨joint, body, hbody, rfl⟩
    exact ⟨joint, body, hbody, rfl⟩
  refine hparam.mark (by decide) ?_
  rintro opening ts ⟨closing, body, hbody, rfl⟩
  exact hbody.closure hw.isName opening closing

theorem Spells.moreArgs (h : Spells EndsNumber text IsExpr) {args : List Char}
    (hargs : Spells EndsNumber args IsArgs) : Spells EndsNumber (text ++ ',' :: args) IsArgs := by
  have hmore : Spells EndsNumber (',' :: args) fun ts =>
      ∃ joint more, IsArgs more ∧ ts = .punct ',' joint :: more :=
    hargs.mark (by decide) fun joint more hmore => ⟨joint, more, hmore, rfl⟩
  refine h.append hmore (fun _ _ => endsNumber_cons (by decide) (by decide)) ?_
  rintro x y hx ⟨joint, more, hmore, rfl⟩
  exact .cons joint hx hmore

/-! ### Types that are paths -/

/-- The type is a path of words as a text spells them. -/
def Ty.IsNamed (ty : Ty) : Prop :=
  ∃ ws, ty = .words ws ∧ ws ≠ [] ∧ ∀ w ∈ ws, IsWord w.toList ∧ IsSegment w

theorem exists_tokens_words (w : String) (ws : List String) :
    ∃ ts, (Ty.words (w :: ws)).tokens = .word w :: ts := by
  cases ws with
  | nil => exact ⟨[], rfl⟩
  | cons v ws => exact ⟨_, tokens_words_cons w v ws⟩

theorem textList_words_cons (w v : String) (ws : List String) :
    (Token.textList (Ty.words (w :: v :: ws)).tokens).toList =
      w.toList ++ ' ' :: ':' :: ':' :: ' ' ::
        (Token.textList (Ty.words (v :: ws)).tokens).toList := by
  obtain ⟨ts, hts⟩ := exists_tokens_words v ws
  rw [tokens_words_cons, hts]
  simp [Token.textList, Token.text]

/-- **A path that is written as a type spells that path.** -/
theorem isPathText_words : ∀ {ws : List String}, ws ≠ [] →
    (∀ w ∈ ws, IsWord w.toList ∧ IsSegment w) →
    IsPathText ws (Token.textList (Ty.words ws).tokens).toList
  | [w], _, h => by
    obtain ⟨hw, hsegment⟩ := h w List.mem_cons_self
    rw [← String.ofList_toList (s := w)] at hsegment
    have hpath := IsPathText.word hw hsegment
    rwa [String.ofList_toList] at hpath
  | w :: v :: ws, _, h => by
    obtain ⟨hw, hsegment⟩ := h w List.mem_cons_self
    rw [← String.ofList_toList (s := w)] at hsegment
    have hmore : IsPathText (v :: ws) _ := isPathText_words (List.cons_ne_nil v ws) fun u hu =>
      h u (List.mem_cons_of_mem w hu)
    have hpath := IsPathText.spaced hw hsegment hmore
    rwa [String.ofList_toList, ← textList_words_cons] at hpath

theorem isNamed_word {w : String} (hw : IsNameText w.toList) : (Ty.word w).IsNamed := by
  have hname := hw.isName
  rw [String.ofList_toList] at hname
  refine ⟨[w], rfl, List.cons_ne_nil w [], fun v hv => ?_⟩
  cases List.mem_singleton.mp hv
  exact ⟨hw.word, Or.inl hname⟩

theorem Ty.IsNamed.isPathText {ty : Ty} (h : ty.IsNamed) :
    ∃ ws, IsPathText ws (Token.textList ty.tokens).toList := by
  obtain ⟨ws, rfl, hne, hwords⟩ := h
  exact ⟨ws, isPathText_words hne hwords⟩

/-! ### Columns of a row -/

theorem isNameText_option : IsNameText "Option".toList :=
  .of_isPlainName (by decide)

theorem IsPathText.typeArg {ws : List String} (h : IsPathText ws text) :
    Spells Stops text IsTypeArg := h.spells.as fun _ hps => ⟨_, .path hps⟩

theorem IsPathText.option {ws : List String} (h : IsPathText ws text) :
    Spells Anything ("Option<".toList ++ text ++ ['>']) IsTypeArg := by
  intro rest more final _ hreads
  obtain ⟨closing, hclose⟩ := hreads.mark (c := '>') (by decide)
  obtain ⟨ps, hps, htext⟩ := h.spells (stops_cons (by decide)) hclose
  obtain ⟨opening, hopen⟩ := htext.mark (c := '<') (by decide)
  have hall := hopen.word isNameText_option.word (stops_cons (by decide))
  refine ⟨_, ⟨_, .option opening closing hps⟩, ?_⟩
  simpa using hall

/-- **A method that is told which type to return.** -/
theorem Spells.methodOfTypes (h : Spells EndsNumber text IsOperand) {w ty args : List Char}
    (hw : IsNameText w) (hty : Spells Stops ty IsTypeArg) (hargs : Spells EndsNumber args IsArgs) :
    Spells Anything (text ++ '.' :: (w ++ "::<".toList ++ ty ++ ", _>(".toList ++ args ++ [')']))
      IsOperand := by
  have hwildcard : IsWord ['_'] := .of_isPlainWord (by decide)
  intro rest more final _ hreads
  obtain ⟨_, ⟨body, hbody, rfl⟩, hargs⟩ := hargs.inParens trivial hreads
  obtain ⟨closing, hclose⟩ := hargs.mark (c := '>') (by decide)
  have hinfer := hclose.word hwildcard (stops_cons (by decide))
  obtain ⟨comma, hcomma⟩ := hinfer.blank.mark (c := ',') (by decide)
  obtain ⟨ts, hts, hty⟩ := hty (stops_cons (by decide)) hcomma
  obtain ⟨opening, hopen⟩ := hty.mark (c := '<') (by decide)
  obtain ⟨colon, hcolons⟩ := hopen.operator (c := ':') (d := ':') (by decide) (by decide)
  obtain ⟨dot, hdot⟩ := (hcolons.word hw.word (stops_cons (by decide))).mark (c := '.') (by decide)
  obtain ⟨receiver, hreceiver, hall⟩ := h (hw.endsNumber _) hdot
  refine ⟨_, hreceiver.extend fun _ hchain =>
    hchain.methodOfTypes hw.isName hts hbody dot colon opening comma closing, ?_⟩
  simpa using hall

/-! ### Nullable values -/

/-- **A match that converts what is present.** -/
theorem Spells.nullMatch {source value : List Char} (h : Spells EndsNumber source IsTerm)
    (hvalue : Spells EndsNumber value IsExpr) :
    Spells Anything ("match ".toList ++ source ++ " \x7b Some(value) => Some(".toList ++ value ++
      "), None => None \x7d".toList) IsExpr := by
  have hmatch : IsWord "match".toList := .of_isPlainWord (by decide)
  have hsome : IsNameText "Some".toList := .of_isPlainName (by decide)
  have hname : IsNameText "value".toList := .of_isPlainName (by decide)
  have hnone : IsNameText "None".toList := .of_isPlainName (by decide)
  intro rest more final _ hreads
  -- from the end of the text to its start: the arm for null, then the other one
  have hlast := (reads_close .brace rest).blank.word hnone.word (stops_cons (by decide))
  obtain ⟨lastArrow, hlast⟩ := hlast.blank.operator (c := '=') (d := '>') (by decide) (by decide)
  have hlast := hlast.blank.word hnone.word (stops_cons (by decide))
  obtain ⟨comma, hcomma⟩ := hlast.blank.mark (c := ',') (by decide)
  obtain ⟨_, ⟨body, hbody, rfl⟩, hfirst⟩ := hvalue.inParens trivial hcomma
  have hfirst := hfirst.word hsome.word (stops_cons (by decide))
  obtain ⟨firstArrow, hfirst⟩ := hfirst.blank.operator (c := '=') (d := '>') (by decide) (by decide)
  have hpattern := Reads.group ((reads_close .paren _).word hname.word (stops_cons (by decide)))
    hfirst.blank
  have hfirst := hpattern.word hsome.word (stops_cons (by decide))
  have harms := Reads.group (d := .brace) hfirst.blank hreads
  obtain ⟨scrutinee, hscrutinee, hall⟩ := h (endsNumber_cons (by decide) (by decide)) harms.blank
  have hall := hall.blank.word hmatch (stops_cons (by decide))
  refine ⟨_, hscrutinee.nullMatch hbody firstArrow comma lastArrow, ?_⟩
  simpa [nullArms, Delimiter.opening, Delimiter.closing] using hall

/-! ### Whole texts -/

/-- **A text that spells an expression is one, and the expression is printed so that it is read
back.** -/
theorem Spells.exists_expr {text : String} (h : Spells EndsNumber text.toList IsExpr) :
    ∃ e, Expr.ofText text = .ok e ∧ PrintsExpr e := by
  obtain ⟨ts, ⟨e, hts, hprinted⟩, hreads⟩ := h endsNumber_nil reads_nil
  rw [List.append_nil, List.append_nil] at hreads
  have he := hts (8 * Token.sizeList ts + 16) (by omega) [] .nil
  rw [List.append_nil] at he
  refine ⟨e, ?_, hprinted⟩
  unfold Expr.ofText Parser.runText
  rw [ofText?_of_reads hreads]
  exact he.runAll

end EntityTable.Source
