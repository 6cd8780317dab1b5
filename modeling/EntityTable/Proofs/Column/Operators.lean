import EntityTable.Proofs.Column.Composed
import EntityTable.Proofs.Source.Chains

/-! # Operators behind holes

A source is put into parentheses if the hole of the template has a postfix operator behind it: the
tokens of the source are then in one group, and the operator applies to all of it (`TakesWhole`). Which
operator follows is said by the tokens, that is behind blanks and comments (`Template.operator?`),
whereas filling looks at the text. So the parentheses are missing where a comment stands between hole
and operator, where the operator is a call, and around words that are no names, such as numbers
(`Template.fill_of_operator?`). -/

namespace EntityTable.Source

open Lexer Grammar

/-! ### Tokens of an operator -/

/-- The characters with which the postfix operators begin: a member, a failure that is passed on, an
index and a call. -/
def postfixMarks : List Char := ['.', '?', '[', '(']

/-- The character with which a mark or a group begins. -/
def Token.mark? : Token → Option Char
  | .punct c _ => some c
  | .group d _ => some d.opening
  | _ => none

section Skipping
variable {c op : Char} {cs rest final : List Char} {tokens : List Token}

theorem startsToken_of_mem_postfixMarks (h : op ∈ postfixMarks) : StartsToken op := by
  have hmarks : ∀ d ∈ postfixMarks, isSeparator d = false ∧ d ≠ '/' :=
    List.all_iff_forall_prop.mp (by decide)
  exact ⟨(hmarks op h).1, (hmarks op h).2⟩

/-- **The first token of a text begins with the character that its blanks and comments end at.** -/
theorem exists_mark_of_reads (h : Reads cs tokens final) (hskip : skip cs = op :: rest)
    (hop : op ∈ postfixMarks) : ∃ token more, tokens = token :: more ∧ token.mark? = some op := by
  have hstarts := startsToken_of_mem_postfixMarks hop
  have hsequence : sequence (cs.length + 1) cs = sequence (cs.length + 1) (op :: rest) := by
    rw [Lexer.sequence, Lexer.sequence, hskip, skip_cons hstarts]
  have htokens := (h.2 _ (Nat.lt_succ_self _)).symm.trans hsequence
  rw [sequence_cons hstarts] at htokens
  cases hopening : Delimiter.ofOpening? op with
  | some d =>
    have hd := List.find?_some (Delimiter.ofOpening?.eq_1 op ▸ hopening)
    rw [hopening] at htokens
    obtain ⟨⟨body, after⟩, -, htokens⟩ := Option.bind_eq_some_iff.mp htokens.symm
    dsimp only at htokens
    split at htokens
    · split at htokens
      · obtain ⟨⟨more, after⟩, -, htokens⟩ := Option.bind_eq_some_iff.mp htokens
        cases htokens
        exact ⟨_, more, rfl, congrArg some (eq_of_beq hd)⟩
      · cases htokens
    · cases htokens
  | none =>
    have hmarks : ∀ d ∈ postfixMarks, Delimiter.ofOpening? d = none →
        Delimiter.ofClosing? d = none ∧ d ∈ punctuation ∧ d ≠ '\x27' ∧ d ≠ '/' :=
      List.all_iff_forall_prop.mp (by decide +kernel)
    obtain ⟨hclosing, hpunct, hquote, hslash⟩ := hmarks op hop hopening
    rw [hopening, hclosing, leaf?_punct hpunct hquote hslash] at htokens
    obtain ⟨⟨more, after⟩, -, htokens⟩ := Option.bind_eq_some_iff.mp htokens.symm
    cases htokens
    exact ⟨_, more, rfl, rfl⟩

end Skipping

/-- **An operator applies to the whole source.** It follows one group that holds all tokens of the
source; if these are an expression, the group is the operand that the operator is read behind. -/
def TakesWhole (source after text : List Char) (op : Char) : Prop :=
  ∀ ⦃body tokens final⦄, Reads (source ++ ')' :: after) body (')' :: after) →
    Reads after tokens final → ∃ token more, tokens = token :: more ∧ token.mark? = some op ∧
      Reads text (.group .paren body :: token :: more) final ∧
      ∀ e, ReadsExpr body e → ∀ n, 2 * Token.sizeList body + 1 ≤ n → ∀ allowRecord,
        Parser.Yields ((ofDepth (n + 1)).atom allowRecord)
          (.group .paren body :: token :: more) (.paren e) (token :: more)

theorem takesWhole_paren {op : Char} {after rest : List Char} (hskip : skip after = op :: rest)
    (hop : op ∈ postfixMarks) (source : List Char) :
    TakesWhole source after ('(' :: (source ++ ')' :: after)) op := by
  intro body tokens final hbody hafter
  obtain ⟨token, more, rfl, hmark⟩ := exists_mark_of_reads hafter hskip hop
  exact ⟨token, more, rfl, hmark, Reads.group (d := .paren) hbody hafter,
    fun e he n hn allowRecord => he.atom_paren hn allowRecord _⟩

end EntityTable.Source

namespace EntityTable.Column.Template

open Source Source.Lexer

/-! ### Operators behind holes -/

variable {t : Template} {op : Char} {source text : String}

/-- The postfix operator that comes next to the hole, blanks and comments left out. -/
def operator? (t : Template) : Option Char :=
  (skip t.after.toList).head?.filter fun c => postfixMarks.contains c

/-- Nothing but blanks is between the hole and the operator. -/
def IsNear (t : Template) (op : Char) : Prop :=
  ∃ gap rest, t.after.toList = gap ++ op :: rest ∧ ∀ c ∈ gap, Text.isBlank c = true

theorem operator?_eq_some_iff : t.operator? = some op ↔
    op ∈ postfixMarks ∧ ∃ rest, skip t.after.toList = op :: rest := by
  rw [operator?, Option.filter_eq_some_iff, List.head?_eq_some_iff, List.contains_iff_mem,
    and_comm]

theorem IsNear.operator? (h : t.IsNear op) (hop : op ∈ postfixMarks) : t.operator? = some op := by
  obtain ⟨gap, rest, hafter, hgap⟩ := h
  refine operator?_eq_some_iff.mpr ⟨hop, rest, ?_⟩
  rw [hafter, skip_append gap hgap, skip_cons (startsToken_of_mem_postfixMarks hop)]

/-- Filling looks past the blanks behind the hole, and for three of the operators. -/
theorem isPostfix_iff : t.isPostfix = true ↔ ∃ op ∈ ['.', '?', '['], t.IsNear op := by
  constructor
  · intro h
    unfold isPostfix at h
    split at h
    · rename_i c rest hrest
      refine ⟨c, by simpa [or_assoc] using h, t.after.toList.takeWhile Text.isBlank, rest, ?_,
        fun d hd => List.mem_takeWhile_imp hd⟩
      rw [← hrest, Text.trimStart, List.takeWhile_append_dropWhile]
    · cases h
  · rintro ⟨op, hop, gap, rest, hafter, hgap⟩
    have hmarks : ∀ d ∈ ['.', '?', '['], Text.isBlank d = false ∧
        (d == '.' || d == '?' || d == '[') = true := List.all_iff_forall_prop.mp (by decide)
    obtain ⟨hsolid, hmark⟩ := hmarks op hop
    have htrim : Text.trimStart t.after.toList = op :: rest := by
      rw [Text.trimStart, hafter, List.dropWhile_append_of_pos hgap,
        List.dropWhile_cons_of_neg (by rw [hsolid]; exact Bool.false_ne_true)]
    rw [isPostfix, htrim]
    exact hmark

/-- **An operator is seen if it is no call and no comment is in between.** -/
theorem isPostfix_iff_of_operator? (h : t.operator? = some op) :
    t.isPostfix = true ↔ op ≠ '(' ∧ t.IsNear op := by
  have hmem := (operator?_eq_some_iff.mp h).1
  rw [isPostfix_iff]
  constructor
  · rintro ⟨op', hop', hnear⟩
    have hmarks : ∀ d ∈ ['.', '?', '['], d ∈ postfixMarks ∧ d ≠ '(' :=
      List.all_iff_forall_prop.mp (by decide)
    obtain ⟨hmem', hcall⟩ := hmarks op' hop'
    cases Option.some.inj (h.symm.trans (hnear.operator? hmem'))
    exact ⟨hcall, hnear⟩
  · rintro ⟨hcall, hnear⟩
    have hmarks : ∀ d ∈ postfixMarks, d ≠ '(' → d ∈ ['.', '?', '['] :=
      List.all_iff_forall_prop.mp (by decide)
    exact ⟨op, hmarks op hmem hcall, hnear⟩

/-! ### Sources in parentheses -/

theorem paren_ne_bare (t : Template) (source : String) :
    t.before ++ ("(" ++ source ++ ")") ++ t.after ≠ t.before ++ source ++ t.after := by
  intro heq
  have hlength := congrArg String.length heq
  have hone : "(".length = 1 ∧ ")".length = 1 := ⟨rfl, rfl⟩
  simp only [String.length_append, hone] at hlength
  omega

/-- A source that is no plain word is put into parentheses if the operator is seen, and only then. -/
theorem fill_eq_paren_iff : t.fill source = t.before ++ ("(" ++ source ++ ")") ++ t.after ↔
    t.isPostfix = true ∧ isPlainSource source = false := by
  rw [fill, guarded]
  split
  · rename_i h
    exact iff_of_true rfl (by simpa using h)
  · rename_i h
    exact iff_of_false (paren_ne_bare t source).symm (by simpa using h)

theorem fill_eq_bare_iff : t.fill source = t.before ++ source ++ t.after ↔
    t.isPostfix = false ∨ isPlainSource source = true := by
  rw [fill, guarded]
  split
  · rename_i h
    exact iff_of_false (paren_ne_bare t source) (by simpa using h)
  · rename_i h
    refine iff_of_true rfl ?_
    cases hoperator : t.isPostfix with
    | false => exact Or.inl rfl
    | true => exact Or.inr (by simpa [hoperator] using h)

/-- **Which sources are put into parentheses before a postfix operator**: those that are no plain
word, unless the operator is a call or stands behind a comment. In parentheses the operator applies to
the whole source; all other sources are written as they are. -/
theorem fill_of_operator? (h : ofText text = .ok t) (hop : t.operator? = some op)
    (source : String) :
    text = t.before ++ "\x7b\x7d" ++ t.after ∧
    (t.fill source = t.before ++ ("(" ++ source ++ ")") ++ t.after ↔
      op ≠ '(' ∧ t.IsNear op ∧ isPlainSource source = false) ∧
    (t.fill source = t.before ++ source ++ t.after ↔
      op = '(' ∨ ¬ t.IsNear op ∨ isPlainSource source = true) ∧
    TakesWhole source.toList t.after.toList ("(" ++ source ++ ")" ++ t.after).toList op := by
  have hoperator := isPostfix_iff_of_operator? hop
  refine ⟨(text_of_ofText h).symm, ?_, ?_, ?_⟩
  · rw [fill_eq_paren_iff, hoperator, and_assoc]
  · rw [fill_eq_bare_iff, ← Bool.not_eq_true, hoperator, not_and_or, not_not, or_assoc]
  · obtain ⟨hmem, rest, hskip⟩ := operator?_eq_some_iff.mp hop
    have htext : ("(" ++ source ++ ")" ++ t.after).toList =
        '(' :: (source.toList ++ ')' :: t.after.toList) := by
      simp
    rw [htext]
    exact takesWhole_paren hskip hmem source.toList

/-- A method of a reference. -/
theorem fill_of_operator?_method : ∃ t, ofText "\x7b\x7d.as_millis()" = .ok t ∧
    t.operator? = some '.' ∧ t.fill "&entity.timeout" = "(&entity.timeout).as_millis()" := by
  have h : ofText "\x7b\x7d.as_millis()" = .ok ⟨"", ".as_millis()"⟩ :=
    toOption_eq_some.mp (by decide +kernel)
  have hnear : IsNear ⟨"", ".as_millis()"⟩ '.' := ⟨[], "as_millis()".toList, by decide, nofun⟩
  have hop := hnear.operator? (by decide)
  obtain ⟨-, hparen, -⟩ := fill_of_operator? h hop "&entity.timeout"
  exact ⟨_, h, hop, hparen.mpr ⟨by decide, hnear, by decide +kernel⟩⟩

/-- The text is read as a reference. -/
def isReferenceText (text : String) : Bool :=
  match Expr.ofText text with
  | .ok (.reference _ _) => true
  | _ => false

/-- Behind a comment there are no parentheses: the method is that of the field, and what is written
is a reference to its result. -/
theorem fill_behind_comment : ∃ t, ofText "\x7b\x7d /* ms */ .as_millis()" = .ok t ∧
    t.operator? = some '.' ∧ identifier? "&entity.timeout" ≠ some "&entity.timeout" ∧
    t.fill "&entity.timeout" ≠ t.before ++ ("(" ++ "&entity.timeout" ++ ")") ++ t.after ∧
    isReferenceText (t.fill "&entity.timeout") = true :=
  ⟨⟨"", " /* ms */ .as_millis()"⟩, toOption_eq_some.mp (by decide +kernel), by decide +kernel,
    by decide +kernel, by decide +kernel, by decide +kernel⟩

/-- So is the call of a reference, and a digit behind a number is part of it. -/
example : (ofText "\x7b\x7d(now)").toOption.map (fill · "&entity.clock") =
      some "&entity.clock(now)" ∧
    (ofText "\x7b\x7d.0").toOption.map (fill · "10") = some "10.0" := by
  decide +kernel

end EntityTable.Column.Template
