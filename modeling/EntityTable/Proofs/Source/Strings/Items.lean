import EntityTable.Proofs.Source.Strings.Exprs

/-! # String literals that the grammar of statements and items keeps

With the rules of statements and items, the grammar of every depth keeps its string literals
(`Grammar.keepsStrings_ofDepth`). So an expression that is read from a text has the string literals
of the text (`Expr.strings_of_ofText`). Before a statement is chosen, a path is tried; no group is
entered for it (`Parser.StaysOutside`), so nothing can be left unread by the trial. -/

namespace EntityTable.Source

open EntityTable.Source.Parser

/-! ### Parsers that enter no group -/

/-- The parser enters no group, so it leaves none unread. -/
class Parser.StaysOutside {α : Type} (p : Parser α) : Prop where
  unread_eq : ∀ {input out : Input} {a : α}, p.run input = .ok (a, out) →
    out.unread = input.unread

namespace Parser

variable {α β : Type}

instance staysPure (a : α) : StaysOutside (pure a : Parser α) where
  unread_eq h := by cases h; rfl

instance staysThrow (e : SyntaxError) : StaysOutside (throw e : Parser α) where
  unread_eq h := by cases h

instance staysBind (p : Parser α) (f : α → Parser β) [hp : StaysOutside p]
    [hf : ∀ a, StaysOutside (f a)] : StaysOutside (p >>= f) where
  unread_eq h := by
    obtain ⟨a, middle, hfirst, hrest⟩ := run_bind h
    exact ((hf a).unread_eq hrest).trans (hp.unread_eq hfirst)

instance staysIte (c : Prop) [Decidable c] (p q : Parser α) [StaysOutside p] [StaysOutside q] :
    StaysOutside (if c then p else q) := by
  split <;> infer_instance

instance staysRest : StaysOutside rest where
  unread_eq h := by cases h; rfl

instance staysPeek (test : List Token → Bool) : StaysOutside (peek test) where
  unread_eq h := by cases h; rfl

instance staysAdvance (tokens : List Token) : StaysOutside (advance tokens) where
  unread_eq h := by cases h; rfl

instance staysExpected (alternatives : List String) :
    StaysOutside (expected alternatives : Parser α) := by
  unfold expected atEnd
  infer_instance

instance staysOperator? (text : String) : StaysOutside (operator? text) := by
  unfold operator?
  have hread (after : Option (List Token)) : StaysOutside (match after with
      | some tokens => advance tokens >>= fun _ => pure true
      | none => pure false) := by
    cases after <;> infer_instance
  exact staysBind _ _

instance staysAnyWord : StaysOutside anyWord := by
  unfold anyWord
  have hread (tokens : List Token) : StaysOutside (match tokens with
      | .word w :: tokens => advance tokens >>= fun _ => pure w
      | _ => expected ["identifier"]) := by
    split <;> infer_instance
  exact staysBind _ _

instance staysIdent : StaysOutside ident := by
  unfold ident
  have hread (tokens : List Token) : StaysOutside (match tokens with
      | .word w :: tokens =>
        if keywords.contains w then throw (.keyword w) else advance tokens >>= fun _ => pure w
      | _ => expected ["identifier"]) := by
    split <;> infer_instance
  exact staysBind _ _

theorem stays_iterate_go (step : α → Parser (Option α)) [∀ a, StaysOutside (step a)] :
    ∀ fuel a, StaysOutside (iterate.go step fuel a) := by
  intro fuel
  induction fuel with
  | zero => exact staysPure
  | succ fuel ih =>
    intro a
    refine @staysBind _ _ (step a) _ _ fun next => ?_
    cases next with
    | some next => exact ih next
    | none => exact staysPure a

instance staysIterate (step : α → Parser (Option α)) (a : α) [∀ a, StaysOutside (step a)] :
    StaysOutside (iterate step a) := by
  unfold iterate
  have hgo (tokens : List Token) : StaysOutside (iterate.go step (tokens.length + 1) a) :=
    stays_iterate_go step _ a
  exact staysBind _ _

/-- What is tried is known to keep its literals, too. -/
theorem keptOn_attempt {p : Parser α} [HasStrings α] [hp : Keeps p] [hflat : StaysOutside p]
    {keep : β → List String} {before : List String} {f : Option (α × List Token) → Parser β}
    {tokens : List Token}
    (hsome : ∀ a first after, tokens = first ++ after → strings a = strings first →
      KeptOn keep before (f (some (a, after))) tokens)
    (hnone : KeptOn keep before (f none) tokens) :
    KeptOn keep before (attempt p >>= f) tokens := by
  intro unread out b hrun
  obtain ⟨tried, middle, htried, hrun⟩ := run_bind hrun
  obtain ⟨_, _, hget, htried⟩ := run_bind htried
  cases hget
  dsimp only at htried
  split at htried
  · rename_i a input heq
    cases htried
    obtain ⟨first, hfirst, hkeep⟩ := hp.kept _ heq
    exact hsome a first _ hfirst (hkeep (hflat.unread_eq heq)).2 hrun
  · cases htried
    exact hnone hrun

end Parser

instance staysModulePath : StaysOutside modulePath := by
  unfold modulePath
  extract_lets startsSegment
  have hstep (state : List String × Bool) : StaysOutside (do
      let (names, trailing) := state
      if trailing then return none
      else if ← operator? "::" then
        if ← peek startsSegment then return some (names ++ [← anyWord], false)
        else return some (names, true)
      else return none : Parser (Option (List String × Bool))) := by
    obtain ⟨names, trailing⟩ := state
    infer_instance
  have hend (isGlobal : Bool) (state : List String × Bool) : StaysOutside (do
      let (names, trailing) := state
      if trailing then expected ["path segment after `::`"]
      else return .mk isGlobal (names.map .plain) : Parser Path) := by
    obtain ⟨names, trailing⟩ := state
    infer_instance
  infer_instance

/-! ### Items -/

instance keepsVisibility : Keeps visibility := by
  unfold visibility
  refine ⟨kept_skip fun _ => kept_ite (kept_of_rest fun tokens => ?_) (kept_pure ?_)⟩
  · split
    · refine keptOn_ite (fun _ => Kept.advance [_] (kept_pure ?_)) fun _ => kept_pure rfl _
      simp [Visibility.tokens, Path.word, Path.tokens, Segment.tokens]
    · refine Kept.on (Kept.bind (Kept.inGroup _ (kept_skip fun _ => keepsModulePath.kept))
        fun path => kept_pure ?_) _
      simp [Visibility.tokens]
    · exact kept_pure rfl _
  · rfl

namespace Grammar

variable (g : Grammar) [g.KeepsStrings]

instance keepsNamedField : Keeps g.namedField := by
  unfold namedField
  refine ⟨kept_bind fun attrs => kept_bind fun visibility => kept_skip fun _ => ?_⟩
  refine (fun hname => kept_ite (kept_skip hname) (kept_skip hname)) fun name => ?_
  exact kept_skip fun _ => kept_bind fun ty => kept_pure (by simp [FieldDef.tokens])

instance keepsPositionalField : Keeps g.positionalField := by
  unfold positionalField
  refine ⟨kept_bind fun attrs => kept_bind fun visibility => kept_bind fun ty => kept_pure ?_⟩
  simp [FieldDef.tokens]

instance keepsNamedFields : Keeps g.namedFields := by
  unfold namedFields
  exact ⟨kept_bind fun ⟨fields, trailing⟩ => kept_pure (by simp [StructBody.tokens])⟩

instance keepsPositionalFields : Keeps g.positionalFields := by
  unfold positionalFields
  exact ⟨kept_bind fun ⟨fields, trailing⟩ => kept_pure (by simp [StructBody.tokens])⟩

instance keepsFnParam : Keeps g.fnParam := by
  unfold fnParam
  refine ⟨kept_bind fun attrs => kept_rest fun tokens => kept_ite ?_ ?_⟩
  · refine kept_skip fun _ => ?_
    refine (fun hself => kept_ite (kept_skip hself) (kept_skip hself)) fun reference => ?_
    refine kept_skip fun isMut => kept_skip fun _ => kept_pure ?_
    cases reference <;> simp [FnParam.tokens]
  · exact kept_bind fun pat => kept_skip fun _ => kept_bind fun ty => kept_pure
      (by simp [FnParam.tokens])

instance keepsSignature : Keeps g.signature := by
  unfold signature
  refine ⟨kept_skip fun isConst => kept_skip fun isAsync => kept_skip fun isUnchecked => ?_⟩
  refine kept_skip fun _ => kept_skip fun name => kept_bind fun ⟨params, trailing⟩ => ?_
  exact kept_bind fun output => kept_pure (by simp [Signature.tokens])

instance keepsTypedValue : Keeps g.typedValue := by
  unfold typedValue
  refine ⟨kept_skip fun _ => ?_⟩
  refine (fun hname => kept_ite (kept_skip hname) (kept_skip hname)) fun name => ?_
  refine kept_skip fun _ => kept_bind fun ty => kept_skip fun _ => kept_bind fun value => ?_
  exact kept_skip fun _ => kept_pure (by simp)

theorem kept_structItem (attrs : List Attribute) (visibility : Visibility) :
    Kept strings (strings attrs ++ strings visibility) (g.structItem attrs visibility) := by
  unfold structItem
  refine kept_skip fun name => kept_rest fun _ => kept_ite ?_ (kept_ite ?_ ?_)
  · exact kept_bind fun body => kept_pure (by simp [Item.tokens])
  · exact kept_bind fun body => kept_skip fun _ => kept_pure (by simp [Item.tokens])
  · exact kept_skip fun _ => kept_pure (by simp [Item.tokens, StructBody.tokens])

theorem kept_fnItem (attrs : List Attribute) (visibility : Visibility) :
    Kept strings (strings attrs ++ strings visibility) (g.fnItem attrs visibility) := by
  unfold fnItem
  exact kept_bind fun signature => kept_bind fun body => kept_pure (by simp [Item.tokens])

instance keepsImplItem : Keeps g.implItem := by
  unfold implItem
  refine ⟨kept_bind fun attrs => kept_bind fun visibility => kept_skip fun _ => ?_⟩
  refine kept_skip fun _ => kept_ite ?_ (g.kept_fnItem attrs visibility)
  refine kept_skip fun _ => kept_bind fun ⟨name, ty, value⟩ => kept_pure ?_
  simp [Item.tokens]

theorem kept_itemAfter (attrs : List Attribute) :
    Kept strings (strings attrs) (g.itemAfter attrs) := by
  unfold itemAfter
  refine kept_bind fun visibility => kept_rest fun _ => kept_skip fun _ => kept_ite ?_ ?_
  · refine kept_skip fun isGlobal => kept_bind fun tree => kept_skip fun _ => kept_pure ?_
    simp [Item.tokens]
  refine kept_skip fun _ => kept_ite ?_ (kept_ite ?_ ?_)
  · refine kept_skip fun isMut => kept_bind fun ⟨name, ty, value⟩ => kept_pure ?_
    simp [Item.tokens]
  · refine kept_skip fun _ => kept_bind fun ⟨name, ty, value⟩ => kept_pure ?_
    simp [Item.tokens]
  refine kept_skip fun _ => kept_ite (g.kept_structItem attrs visibility) ?_
  refine kept_skip fun _ => kept_ite ?_ ?_
  · refine kept_skip fun name => kept_skip fun _ => kept_bind fun ty => kept_skip fun _ => ?_
    exact kept_pure (by simp [Item.tokens])
  refine kept_skip fun _ => kept_ite (kept_bind fun target => ?_) (g.kept_fnItem attrs visibility)
  refine (Kept.inGroup _ (kept_iterate
    (fun items => strings attrs ++ strings visibility ++ strings target ++ strings items)
    (by simp) fun items => ?_)).bind fun items => kept_pure ?_
  · refine kept_skip fun _ => kept_ite (kept_pure rfl) ?_
    exact kept_bind fun item => kept_pure (by simp)
  · simp [Item.tokens]

/-! ### Statements -/

theorem kept_bindingStmt (attrs : List Attribute) :
    Kept strings (strings attrs) (g.bindingStmt attrs) := by
  unfold bindingStmt
  refine kept_skip fun _ => kept_bind fun pat => kept_skip fun _ => ?_
  refine (fun hty => kept_ite (kept_bind hty) (kept_bind hty)) fun ty => ?_
  refine kept_skip fun _ => kept_ite (kept_bind fun value => kept_skip fun _ => ?_) ?_
  · refine (fun helse => kept_ite (kept_skip fun _ => kept_bind fun branch => ?_)
      (kept_bind helse)) fun otherwise => kept_skip fun _ => kept_pure ?_
    · exact helse (some branch)
    · cases ty <;> cases otherwise <;> simp [Stmt.tokens]
  · exact kept_skip fun _ => kept_pure (by cases ty <;> simp [Stmt.tokens])

@[simp] theorem strings_attribute_expr (attrs : List Attribute) (e : Expr) :
    strings (e.attribute attrs).tokens = strings attrs ++ strings e := by
  fun_induction Expr.attribute attrs e with
  | case1 left right ih => simp [Expr.tokens, ih]
  | case2 left op right ih => simp [Expr.tokens, ih]
  | case3 value ty ih => simp [Expr.tokens, ih]
  | case4 e => simp_all
  | case5 e => simp [Expr.tokens]

theorem kept_exprStmt (attrs : List Attribute) :
    Kept strings (strings attrs) (g.exprStmt attrs) := by
  unfold exprStmt
  refine kept_bind fun e => kept_skip fun semicolon => ?_
  have hvalue : strings attrs ++ strings e = strings (e.attribute attrs) := by simp
  rw [hvalue]
  generalize e.attribute attrs = value
  split
  · refine kept_ite (kept_pure ?_) (kept_pure ?_)
    · simp [Stmt.tokens, Expr.tokens]
    · simp [Stmt.tokens]
  · exact kept_pure (by simp [Stmt.tokens])

instance keepsStmt : Keeps g.stmt := by
  unfold stmt
  refine ⟨kept_bind fun attrs => kept_rest fun start => fun tokens => ?_⟩
  refine keptOn_attempt (fun path first after htokens hpath => ?_) ?_
  · subst htokens
    refine keptOn_ite (fun _ => Kept.advance first ?_) fun _ => ?_
    · refine kept_skip fun _ => kept_bind fun ⟨d, body⟩ => kept_skip fun semicolon => kept_pure ?_
      simp [Stmt.tokens, ← hpath]
    · refine Kept.on (kept_ite ?_ (g.kept_exprStmt attrs)) _
      exact (g.kept_itemAfter attrs).bind fun item => kept_pure (by simp [Stmt.tokens])
  · refine Kept.on (kept_ite (g.kept_bindingStmt attrs) (kept_ite ?_ (g.kept_exprStmt attrs))) _
    exact (g.kept_itemAfter attrs).bind fun item => kept_pure (by simp [Stmt.tokens])

instance keepsStmts : Keeps g.stmts := by
  unfold stmts
  refine ⟨kept_iterate strings rfl fun stmts => kept_skip fun _ => kept_ite ?_ ?_⟩
  · exact kept_pure (by simp [Stmt.tokens])
  refine kept_skip fun _ => kept_ite (kept_pure rfl) (kept_bind fun stmt => kept_skip fun _ => ?_)
  exact kept_ite (kept_throw _) (kept_pure (by simp))

/-! ### The grammar of every depth -/

/-- **The grammar of every depth keeps its string literals.** -/
theorem keepsStrings_ofDepth (depth : Nat) : (ofDepth depth).KeepsStrings := by
  induction depth with
  | zero =>
    exact ⟨fun _ => ⟨kept_throw _⟩, ⟨kept_throw _⟩, fun _ => ⟨kept_throw _⟩,
      fun _ => ⟨kept_throw _⟩, fun _ _ _ => kept_throw _, ⟨kept_throw _⟩, ⟨kept_throw _⟩,
      ⟨kept_throw _⟩, ⟨kept_throw _⟩⟩
  | succ depth ih =>
    exact ⟨(ofDepth depth).keepsParseTy, (ofDepth depth).keepsPlainPath false,
      (ofDepth depth).keepsParseExpr, (ofDepth depth).keepsParseOperand,
      (ofDepth depth).kept_parseOperators, (ofDepth depth).keepsParseEarly,
      (ofDepth depth).keepsParsePat, keepsInGroup _ _, (ofDepth depth).keepsParseUseTree⟩

end Grammar

/-- **An expression has the string literals of the text that it is read from.** -/
theorem Expr.strings_of_ofText {text : String} {e : Expr} (h : Expr.ofText text = .ok e) :
    ∃ tokens, Token.ofText? text = some tokens ∧ strings e = strings tokens := by
  unfold Expr.ofText Parser.runText at h
  split at h
  · rename_i tokens htokens
    have hgrammar : (Grammar.forTokens tokens).KeepsStrings := Grammar.keepsStrings_ofDepth _
    exact ⟨tokens, htokens, (Grammar.keepsParseExpr _ true).runAll h⟩
  · cases h

end EntityTable.Source
