import EntityTable.Proofs.Source.Matches

/-! # Statements on given tokens

A statement that is printed is read back: a variable with its value, an expression for its effect
and the value at the end. A block is read statement by statement. -/

namespace EntityTable.Source

open EntityTable.Source.Parser

namespace Parser
variable {α : Type} {p : Parser α} {tokens rest : List Token} {a : α}

theorem Yields.attempt (h : Yields p tokens a rest) :
    Yields (Parser.attempt p) tokens (some (a, rest)) tokens := by
  refine (yields_rest tokens).bind ?_
  rw [h none]
  exact yields_pure _ tokens

end Parser

theorem Expr.attribute_nil (e : Expr) : e.attribute [] = e := by
  induction e using Expr.attribute.induct [] with
  | case1 left right ih => rw [Expr.attribute, ih]
  | case2 left op right ih => rw [Expr.attribute, ih]
  | case3 value ty ih => rw [Expr.attribute, ih]
  | case4 e => rw [Expr.attribute, List.isEmpty_nil, if_pos rfl] <;> assumption
  | case5 e => contradiction

theorem FieldInit.tokensOf_eq (fields : List FieldInit) :
    FieldInit.tokensOf fields = fields.map FieldInit.tokens := by
  induction fields with
  | nil => rfl
  | cons field fields ih => rw [FieldInit.tokensOf, ih, List.map_cons]

namespace Grammar

variable {g : Grammar} {ws : List String} {ts ps args rest : List Token} {e : Expr}
  {es : List Expr} {trailing : Bool} {n : Nat} {allowRecord : Bool} {w : String}

/-! ### Operands -/

theorem readsChain_unit : ReadsChain [.group .paren []] (.tuple [] false) where
  starts := .paren rfl
  plain := ⟨rfl, rfl⟩
  read n _ allowRecord rest _ := by
    refine ⟨.tuple [] false, rest, ?_, .done⟩
    have hunit : Yields (ofDepth n).parenExpr (.group .paren [] :: rest) (.tuple [] false) rest :=
      Yields.inGroup ((yields_peek _ _).bind (.ite_pos rfl (yields_pure _ _)))
    unfold Grammar.atom
    refine (yields_rest _).bind (.ite_false rfl (.ite_false rfl (.ite_false rfl ?_)))
    exact .ite_false rfl (.ite_false rfl (.ite_pos rfl hunit))

/-- **The unit value is a chain.** -/
theorem printsChain_unit : PrintsChain (.tuple [] false) := by
  rw [PrintsChain, Expr.tokens]
  exact readsChain_unit

theorem tokens_globalWords_cons (w : String) (ws : List String) :
    (Expr.globalWords (w :: ws)).tokens =
      .punct ':' true :: .punct ':' false :: (Ty.words (w :: ws)).tokens := by
  simp [Expr.globalWords, Expr.tokens, Ty.words, Ty.tokens, Path.words, QualifiedPath.tokens,
    Path.tokens, operatorIf, Token.operator, Token.operator.go]

/-- **A call from the root is a chain.** -/
theorem IsPath.printsGlobalCall (h : IsPath ws ps) (hargs : PrintsArgs es trailing) :
    PrintsChain (.call (.globalWords ws) es trailing) := by
  have hall := h.printed.readsGlobalCall hargs
  obtain ⟨w, names, tail, rfl, -, -⟩ := h.exists_cons
  rw [PrintsChain, Expr.tokens, tokens_globalWords_cons]
  exact hall

/-! ### Records -/

/-- Printed, the field of a record is read back. -/
structure PrintsField (field : FieldInit) : Prop where
  starts : ∃ t ts, field.tokens = t :: ts ∧ ∀ rest, startsOperator ".." (t :: rest) = false
  read : ∀ n, 2 * Token.sizeList field.tokens + 1 ≤ n → ∀ rest, Follow true .expr rest →
    Yields (ofDepth n).fieldInit (field.tokens ++ rest) field rest

theorem printsField_named (hw : IsName w) (he : PrintsExpr e) : PrintsField (.named [] w e) := by
  have htokens : (FieldInit.named [] w e).tokens = .word w :: .punct ':' false :: e.tokens := by
    rw [FieldInit.tokens, hw.memberTokens]
    rfl
  refine ⟨⟨_, _, htokens, fun _ => rfl⟩, fun n hn rest hrest => ?_⟩
  rw [htokens, Token.sizeList_word, Token.sizeList_punct] at hn
  obtain ⟨n, rfl⟩ : ∃ m, n = m + 1 := ⟨n - 1, by omega⟩
  have hvalue : Yields ((ofDepth (n + 1)).expr true) (e.tokens ++ rest) e rest :=
    he n (by omega) rest hrest
  rw [htokens]
  unfold fieldInit
  refine (yields_attributes _ rfl).bind ((yields_member_name hw _).bind ?_)
  simp only [hw.noDigit]
  refine (yields_peek _ _).bind (.ite_pos rfl ?_)
  exact Yields.via () (e.tokens ++ rest) (fun _ => rfl) (hvalue.bind (yields_pure _ rest))

theorem printsField_short (hw : IsName w) : PrintsField (.short [] w) := by
  have htokens : (FieldInit.short [] w).tokens = [.word w] := by
    rw [FieldInit.tokens, hw.memberTokens]
    rfl
  refine ⟨⟨_, _, htokens, fun _ => rfl⟩, fun n _ rest hrest => ?_⟩
  have hcolon : startsOperator ":" rest = false := by cases hrest <;> rfl
  rw [htokens]
  unfold fieldInit
  refine (yields_attributes _ rfl).bind ((yields_member_name hw _).bind ?_)
  simp only [hw.noDigit]
  exact (yields_peek _ rest).bind (.ite_false (by rw [hcolon]; rfl) (yields_pure _ rest))

/-- One more field of a record. -/
def fieldStep (g : Grammar) :
    List FieldInit × Bool → Parser (Option (List FieldInit × Bool)) := fun (fields, afterComma) => do
  if !afterComma || (← atEnd) || (← peek (startsOperator "..")) then return none
  else
    let field ← g.fieldInit
    if ← atEnd then return some (fields ++ [field], false)
    else
      operator ","
      return some (fields ++ [field], true)

section Fields
variable {field : FieldInit} {fields : List FieldInit}

theorem yields_fieldStep (h : PrintsField field)
    (hn : 2 * Token.sizeList field.tokens + 1 ≤ n) (before : List FieldInit) (trailing : Bool)
    (hrest : trailing = false → rest = []) :
    Yields (fieldStep (ofDepth n) (before, true)) (field.tokens ++ (operatorIf trailing "," ++ rest))
      (some (before ++ [field], trailing)) rest := by
  obtain ⟨t, ts, htokens, hdots⟩ := h.starts
  have hfollow : Follow true .expr (operatorIf trailing "," ++ rest) := by
    cases trailing with
    | false => rw [hrest rfl]; exact .nil
    | true => exact .comma
  have hread := h.read n hn _ hfollow
  rw [htokens] at hread ⊢
  unfold fieldStep
  refine (yields_peek _ _).bind ((yields_peek _ _).bind (.ite_false (hdots _) (hread.bind ?_)))
  cases trailing with
  | false =>
    rw [hrest rfl]
    exact (yields_peek _ _).bind (.ite_pos rfl (yields_pure _ _))
  | true =>
    refine (yields_peek _ _).bind (.ite_false rfl ?_)
    exact Yields.via () rest (fun _ => rfl) (yields_pure _ rest)

/-- The fields of a record are read one by one. -/
theorem repeats_fields : ∀ {fields : List FieldInit} (_ : fields ≠ [])
    (_ : ∀ field ∈ fields, PrintsField field ∧ 2 * Token.sizeList field.tokens + 1 ≤ n)
    (before : List FieldInit), Repeats (fieldStep (ofDepth n))
      (separated "," trailing (fields.map FieldInit.tokens)) (before, true) []
      (before ++ fields, trailing)
  | [field], _, hall, before => by
    obtain ⟨hfield, hn⟩ := hall field (List.mem_singleton_self field)
    have hstep : Yields (fieldStep (ofDepth n) (before, true))
        (field.tokens ++ (operatorIf trailing "," ++ [])) (some (before ++ [field], trailing)) [] :=
      yields_fieldStep hfield hn before trailing fun _ => rfl
    obtain ⟨t, ts, htokens, -⟩ := hfield.starts
    rw [List.append_nil] at hstep
    have hlength : 0 < (field.tokens ++ operatorIf trailing ",").length := by
      rw [htokens]
      exact Nat.succ_pos _
    exact .next hstep hlength .done
  | field :: next :: fields, _, hall, before => by
    obtain ⟨hfield, hn⟩ := hall field List.mem_cons_self
    have hmore := repeats_fields (List.cons_ne_nil next fields)
      (fun f hf => hall f (List.mem_cons_of_mem field hf)) (before ++ [field])
    have hstep (rest : List Token) : Yields (fieldStep (ofDepth n) (before, true))
        (field.tokens ++ (operatorIf true "," ++ rest)) (some (before ++ [field], true)) rest :=
      yields_fieldStep hfield hn before true nofun
    rw [List.append_assoc, List.singleton_append] at hmore
    rw [List.map_cons, List.map_cons, separated_cons_cons]
    refine .next (hstep _) ?_ hmore
    rw [List.length_append, List.length_append]
    exact Nat.lt_add_left _ (Nat.lt_add_of_pos_left Nat.one_pos)

/-- **The fields in a brace are read.** -/
theorem yields_fieldInits (path : QualifiedPath) (hfields : fields ≠ [])
    (hall : ∀ field ∈ fields, PrintsField field)
    (hn : 2 * Token.sizeList (separated "," trailing (fields.map FieldInit.tokens)) + 1 ≤ n) :
    Yields ((ofDepth n).fieldInits path) (separated "," trailing (fields.map FieldInit.tokens))
      (.record path fields trailing false none) [] := by
  have hsmall (field : FieldInit) (hfield : field ∈ fields) :
      PrintsField field ∧ 2 * Token.sizeList field.tokens + 1 ≤ n := by
    have hle := sizeList_le_separated "," trailing (List.mem_map_of_mem (f := FieldInit.tokens) hfield)
    exact ⟨hall field hfield, by omega⟩
  have hsteps : Repeats (fieldStep (ofDepth n))
      (separated "," trailing (fields.map FieldInit.tokens)) ([], true) [] (fields, trailing) :=
    repeats_fields hfields hsmall []
  have hstop : Yields (fieldStep (ofDepth n) (fields, trailing)) [] none [] := by
    cases trailing <;> exact fun _ => rfl
  unfold fieldInits
  refine (hsteps.iterate hstop).bind ?_
  exact (yields_operator?_false rfl).bind (.ite_false rfl (yields_pure _ _))

/-- **A path with fields in a brace is a record.** -/
theorem IsPath.readsRecord (h : IsPath ws ps) (hfields : fields ≠ [])
    (hall : ∀ field ∈ fields, PrintsField field) :
    ReadsExpr (ps ++ [.group .brace (separated "," trailing (fields.map FieldInit.tokens))])
      (.record (.plain (.words ws)) fields trailing false none) := by
  intro n hn rest hrest
  rw [Token.sizeList_append, Token.sizeList_group] at hn
  obtain ⟨n, rfl⟩ : ∃ m, n = m + 1 := ⟨n - 1, by omega⟩
  have hinits : Yields ((ofDepth n).fieldInits (.plain (.words ws)))
      (separated "," trailing (fields.map FieldInit.tokens))
      (.record (.plain (.words ws)) fields trailing false none) [] :=
    yields_fieldInits (.plain (.words ws)) hfields hall (by omega)
  generalize separated "," trailing (fields.map FieldInit.tokens) = body at hinits ⊢
  have hend : EndsPath true (.group .brace body :: rest) := ⟨rfl, nofun⟩
  have hpath := h.plainPath (ofDepth n) hend
  obtain ⟨w, ws, ts, rfl, hw, rfl⟩ := h.exists_cons
  have hatom := yields_atom_path hw (yields_pathExpr_record rfl hpath hinits)
  rw [List.append_assoc, List.singleton_append]
  exact yields_parseExpr (noPrefix_word _ _) hatom rfl hrest

/-- Printed, a record is read back. -/
theorem IsPath.printsRecord (h : IsPath ws ps) (hfields : fields ≠ [])
    (hall : ∀ field ∈ fields, PrintsField field) :
    PrintsExpr (.record (.plain (.words ws)) fields trailing false none) := by
  rw [PrintsExpr, Expr.tokens, Expr.optionTokens, FieldInit.tokensOf_eq, operatorIf,
    if_neg Bool.false_ne_true, List.append_nil, List.append_nil]
  exact h.printed.readsRecord hfields hall

end Fields

/-! ### What a statement starts with -/

/-- A word of a path starts no item unless another word follows it. -/
theorem startsItem_eq_false (hw : IsSegment w) (hcrate : w = "crate" → startsOperator "::" ts = true)
    (hts : startsIdent ts = false) : startsItem (.word w :: ts) = false := by
  have hne {k : String} (hk : k ∈ keywords) (hpath : k ∉ pathKeywords) :
      startsWord k (.word w :: ts) = false := startsWord_eq_false (hw.ne hk hpath)
  have hcrate : (startsWord "crate" (.word w :: ts) && !startsOperator "::" ts) = false := by
    by_cases h : w = "crate"
    · rw [hcrate h, Bool.not_true, Bool.and_false]
    · rw [startsWord_eq_false h, Bool.false_and]
  have hitems : startsWordOf ["extern", "use", "fn", "mod", "type", "struct", "enum", "trait", "impl",
      "macro"] (.word w :: ts) = false := startsWordOf_eq_false (hw.notMem (by decide))
  simp only [startsItem, List.drop_one, List.tail_cons]
  rw [hne (k := "pub") (by decide) (by decide), hcrate, hitems,
    hne (k := "static") (by decide) (by decide), hne (k := "const") (by decide) (by decide),
    hne (k := "unsafe") (by decide) (by decide), hne (k := "async") (by decide) (by decide), hts]
  simp only [Bool.false_and, Bool.and_false, Bool.or_false]

/-- A word of a path stands here. -/
def startsSegment (tokens : List Token) : Bool :=
  startsIdent tokens || startsWordOf ["super", "self", "Self", "crate"] tokens

theorem startsSegment_of (hw : IsSegment w) : startsSegment (.word w :: ts) = true := by
  rcases hw with hw | hw
  · rw [startsSegment, hw.startsIdent, Bool.true_or]
  · exact Bool.or_eq_true_iff.mpr (Or.inr (List.contains_iff_mem.mpr hw))

/-- One more word of a path without arguments. -/
def nameStep : List String × Bool → Parser (Option (List String × Bool)) := fun (names, trailing) => do
  if trailing then return none
  else if ← operator? "::" then
    if ← peek startsSegment then return some (names ++ [← anyWord], false)
    else return some (names, true)
  else return none

/-- **A path is read where no arguments may stand.** -/
theorem IsPath.modulePath (h : IsPath ws ps) (hrest : startsOperator "::" rest = false) :
    Yields modulePath (ps ++ rest) (.words ws) rest := by
  have hsteps : ∃ w tail, ps = .word w :: tail ∧ IsSegment w ∧ ∀ names,
      Repeats nameStep (tail ++ rest) (names ++ [w], false) rest (names ++ ws, false) := by
    induction h with
    | @word w hw => exact ⟨w, [], rfl, hw, fun names => .done⟩
    | @cons w ws ts hw joint hpath ih =>
      obtain ⟨v, tail, rfl, hv, hmore⟩ := ih
      refine ⟨w, _, rfl, hw, fun names => ?_⟩
      have hstep : Yields (nameStep (names ++ [w], false))
          (.punct ':' true :: .punct ':' joint :: .word v :: tail ++ rest)
          (some (names ++ [w] ++ [v], false)) (tail ++ rest) := by
        refine Yields.ite_false (p := pure none) rfl (Yields.via true (.word v :: (tail ++ rest)) (fun _ => rfl) ?_)
        refine .ite_pos rfl ((yields_peek _ _).bind (.ite_pos (startsSegment_of hv) ?_))
        exact Yields.via v (tail ++ rest) (fun _ => rfl) (yields_pure _ _)
      have hmore := hmore (names ++ [w])
      rw [List.append_assoc names [w] ws] at hmore
      exact .next hstep (by simp only [List.cons_append, List.length_cons]; omega) hmore
  obtain ⟨w, tail, rfl, hw, hmore⟩ := hsteps
  have hstop : Yields (nameStep (ws, false)) rest none rest :=
    Yields.ite_false (p := pure none) rfl
      ((yields_operator?_false hrest).bind (.ite_false rfl (yields_pure none rest)))
  have hstarts : startsSegment (.word w :: (tail ++ rest)) = true := startsSegment_of hw
  unfold Source.modulePath
  refine (yields_operator?_false rfl).bind ((yields_peek _ _).bind (.ite_false ?_ ?_))
  · exact congrArg not hstarts
  refine Yields.via w (tail ++ rest) (fun _ => rfl) ?_
  exact ((hmore []).iterate hstop).bind (.ite_false rfl (yields_pure _ rest))

/-- What a statement starts with that is an expression: a path that goes on as a call or with a
member. -/
inductive StartsStmt : List Token → Prop
  | call {ws : List String} {ps args tail : List Token} (h : IsPath ws ps) (hws : ws ≠ ["crate"]) :
      StartsStmt (ps ++ .group .paren args :: tail)
  | member {ws : List String} {ps tail : List Token} {joint : Bool} (h : IsPath ws ps)
      (hws : ws ≠ ["crate"]) : StartsStmt (ps ++ .punct '.' joint :: tail)

theorem StartsStmt.append (h : StartsStmt ts) (more : List Token) : StartsStmt (ts ++ more) := by
  cases h with
  | call h hws =>
    rw [List.append_assoc]
    exact .call h hws
  | member h hws =>
    rw [List.append_assoc]
    exact .member h hws

/-- What an expression that starts as a statement does not start with. -/
theorem StartsStmt.exists_path (h : StartsStmt ts) : ∃ w tail path after, ts = .word w :: tail ∧
    IsSegment w ∧ startsItem ts = false ∧ startsMacroStatement after = false ∧
    Yields (attempt modulePath) ts (some (path, after)) ts := by
  obtain ⟨ws, ps, t, tail, rfl, hpath, hws, hcolons, hident, hbang⟩ : ∃ ws ps t tail,
      ts = ps ++ t :: tail ∧ IsPath ws ps ∧ ws ≠ ["crate"] ∧
      startsOperator "::" (t :: tail) = false ∧ startsIdent (t :: tail) = false ∧
      startsMacroStatement (t :: tail) = false := by
    cases h with
    | call h hws => exact ⟨_, _, _, _, rfl, h, hws, rfl, rfl, rfl⟩
    | member h hws => exact ⟨_, _, _, _, rfl, h, hws, rfl, rfl, rfl⟩
  have hread := (hpath.modulePath hcolons).attempt
  cases hpath with
  | @word w hw =>
    refine ⟨w, _, _, _, rfl, hw, startsItem_eq_false hw ?_ hident, hbang, hread⟩
    rintro rfl
    exact absurd rfl hws
  | @cons w ws ps hw joint hpath =>
    exact ⟨w, _, _, _, rfl, hw, startsItem_eq_false hw (fun _ => rfl) rfl, hbang, hread⟩

/-! ### Expressions as statements -/

/-- Without attributes, a statement that is an expression is read as that. -/
theorem yields_exprStmt {semicolon : Bool} (hnoCall : ∀ path d body, e ≠ .macroCall path d body)
    (he : Yields g.early ts e (operatorIf semicolon ";" ++ rest))
    (hrest : semicolon = false → startsOperator ";" rest = false) :
    Yields (g.exprStmt []) ts (.expr e semicolon) rest := by
  have hsemicolon : Yields (operator? ";") (operatorIf semicolon ";" ++ rest) semicolon rest := by
    cases semicolon with
    | false => exact yields_operator?_false (hrest rfl)
    | true => exact yields_operator? ";" rest
  unfold exprStmt
  refine he.bind (hsemicolon.bind ?_)
  rw [Expr.attribute_nil]
  cases e with
  | macroCall path d body => exact absurd rfl (hnoCall path d body)
  | _ => exact yields_pure _ rest

/-- What starts as no other statement is an expression. -/
theorem yields_stmt {tokens : List Token} {s : Stmt} {path? : Option (Path × List Token)}
    (hattributes : startsOperator "#" tokens = false)
    (hpath : Yields (attempt modulePath) tokens path? tokens)
    (hnoCall : ∀ path after, path? = some (path, after) → startsMacroStatement after = false)
    (hlet : startsWord "let" tokens = false) (hitem : startsItem tokens = false)
    (h : Yields (g.exprStmt []) tokens s rest) : Yields g.stmt tokens s rest := by
  unfold stmt
  refine (yields_attributes g hattributes).bind ((yields_rest tokens).bind (hpath.bind ?_))
  cases path? with
  | none => exact .ite_false hlet (.ite_false hitem h)
  | some read =>
    obtain ⟨path, after⟩ := read
    exact .ite_false (hnoCall path after rfl) (.ite_false hitem h)

/-- Printed, the statement is read back, whatever comes next. -/
structure PrintsStmt (s : Stmt) : Prop where
  starts : ∃ w ts, s.tokens = .word w :: ts
  noEnd : s.needsEnd = false
  read : ∀ n, 2 * Token.sizeList s.tokens + 2 ≤ n → ∀ rest,
    Yields (ofDepth n).stmt (s.tokens ++ rest) s rest

/-- Printed, the expression is read back as the value of a block. -/
structure PrintsValue (e : Expr) : Prop where
  starts : ∃ w ts, e.tokens = .word w :: ts
  read : ∀ n, 2 * Token.sizeList e.tokens + 2 ≤ n →
    Yields (ofDepth n).stmt e.tokens (.yields e) []

/-- A chain that starts as a statement is read as one. -/
theorem PrintsChain.yields_stmt (h : PrintsChain e) (hstarts : StartsStmt e.tokens)
    (hnoCall : ∀ path d body, e ≠ .macroCall path d body) {semicolon : Bool}
    (hn : 2 * Token.sizeList e.tokens + 2 ≤ n) (hrest : semicolon = false → rest = []) :
    Yields (ofDepth n).stmt (e.tokens ++ (operatorIf semicolon ";" ++ rest))
      (.expr e semicolon) rest := by
  obtain ⟨n, rfl⟩ : ∃ m, n = m + 2 := ⟨n - 2, by omega⟩
  obtain ⟨w, tail, path, after, htokens, hw, hitem, hafter, hpath⟩ :=
    (hstarts.append (operatorIf semicolon ";" ++ rest)).exists_path
  have hfollow : Follow true .expr (operatorIf semicolon ";" ++ rest) := by
    cases semicolon with
    | false => rw [hrest rfl]; exact .nil
    | true => exact .semicolon
  have hoperand : Yields ((ofDepth n).parseOperand true) (e.tokens ++ (operatorIf semicolon ";" ++ rest))
      e (operatorIf semicolon ";" ++ rest) := ReadsChain.yields h (by omega) hfollow.operand
  rw [htokens] at hoperand hitem hpath ⊢
  have hearly : Yields (ofDepth (n + 2)).early (.word w :: tail) e (operatorIf semicolon ";" ++ rest) :=
    yields_parseEarly (hw.notMem (by decide)) hoperand h.plain hfollow
  refine Grammar.yields_stmt rfl hpath ?_ ?_ hitem (yields_exprStmt hnoCall hearly ?_)
  · rintro path after ⟨⟩
    exact hafter
  · exact startsWord_eq_false (hw.ne (by decide) (by decide))
  · intro hvalue
    rw [hrest hvalue]
    rfl

theorem StartsStmt.exists_word (h : StartsStmt ts) : ∃ w tail, ts = .word w :: tail := by
  obtain ⟨w, tail, _, _, htokens, -⟩ := h.exists_path
  exact ⟨w, tail, htokens⟩

/-- **An expression for its effect is a statement.** -/
theorem PrintsChain.run (h : PrintsChain e) (hstarts : StartsStmt e.tokens)
    (hnoCall : ∀ path d body, e ≠ .macroCall path d body) : PrintsStmt (.run e) := by
  have htokens : (Stmt.run e).tokens = e.tokens ++ operatorIf true ";" := by
    rw [Stmt.run, Stmt.tokens]
  refine ⟨?_, rfl, fun n hn rest => ?_⟩
  · rw [htokens]
    exact (hstarts.append _).exists_word
  · rw [htokens, Token.sizeList_append] at hn
    rw [htokens, List.append_assoc]
    exact h.yields_stmt hstarts hnoCall (by omega) (absurd · Bool.noConfusion)

/-- **A chain is the value of a block.** -/
theorem PrintsChain.value (h : PrintsChain e) (hstarts : StartsStmt e.tokens)
    (hnoCall : ∀ path d body, e ≠ .macroCall path d body) : PrintsValue e := by
  refine ⟨hstarts.exists_word, fun n hn => ?_⟩
  have hread : Yields (ofDepth n).stmt (e.tokens ++ (operatorIf false ";" ++ [])) (.expr e false) [] :=
    h.yields_stmt hstarts hnoCall hn fun _ => rfl
  rwa [operatorIf, if_neg Bool.false_ne_true, List.append_nil, List.append_nil] at hread

/-- Printed, the expression is read back where a statement starts, too. -/
structure PrintsHead (e : Expr) : Prop where
  chain : PrintsChain e
  starts : StartsStmt e.tokens
  noCall : ∀ path d body, e ≠ .macroCall path d body

namespace PrintsHead

theorem expr (h : PrintsHead e) : PrintsExpr e := h.chain.operand.term.expr

theorem run (h : PrintsHead e) : PrintsStmt (.run e) := h.chain.run h.starts h.noCall

theorem value (h : PrintsHead e) : PrintsValue e := h.chain.value h.starts h.noCall

theorem question (h : PrintsHead e) : PrintsHead (.question e) := by
  refine ⟨h.chain.question, ?_, nofun⟩
  rw [Expr.tokens]
  exact h.starts.append _

theorem await (h : PrintsHead e) : PrintsHead (.await e) := by
  refine ⟨h.chain.await, ?_, nofun⟩
  rw [Expr.tokens, List.append_assoc]
  exact h.starts.append _

theorem awaited (h : PrintsHead e) : PrintsHead e.awaited := h.await.question

theorem method (h : PrintsHead e) (hw : IsName w) (hargs : PrintsArgs es false) :
    PrintsHead (e.method w es) := by
  refine ⟨h.chain.method hw hargs, ?_, nofun⟩
  rw [Expr.method, Expr.tokens, List.append_assoc, List.append_assoc]
  exact h.starts.append _

end PrintsHead

/-- A call is one that starts a statement. -/
theorem IsPath.headCall (h : IsPath ws ps) (hws : ws ≠ ["crate"]) (hargs : PrintsArgs es false) :
    PrintsHead (.apply (.words ws) es) := by
  refine ⟨h.printsCall hargs, ?_, nofun⟩
  rw [Expr.apply, Expr.tokens]
  exact .call h.printed hws

/-- So is a member of a variable. -/
theorem IsPath.headField (h : IsPath ws ps) (hws : ws ≠ ["crate"]) (hw : IsName w) :
    PrintsHead (.field (.words ws) w) := by
  refine ⟨h.printsChain.field hw, ?_, nofun⟩
  rw [Expr.tokens, List.append_assoc]
  exact .member h.printed hws

theorem IsPath.headMethod (h : IsPath ws ps) (hws : ws ≠ ["crate"]) (hw : IsName w)
    (hargs : PrintsArgs es false) : PrintsHead ((Expr.words ws).method w es) := by
  refine ⟨h.printsChain.method hw hargs, ?_, nofun⟩
  rw [Expr.method, Expr.tokens, List.append_assoc, List.append_assoc]
  exact .member h.printed hws

/-! ### Variables -/

/-- Printed before its value, the pattern is read back. -/
def PrintsPat (pat : Pat) : Prop :=
  ∀ n joint rest, Yields (ofDepth (n + 1)).parsePat (pat.tokens ++ .punct '=' joint :: rest) pat
    (.punct '=' joint :: rest)

theorem printsPat_var (hw : IsName w) : PrintsPat (.var w) := by
  intro n joint rest
  rw [Pat.var, Pat.tokens]
  exact yields_parsePat hw ⟨rfl, rfl⟩

theorem printsPat_mutVar (hw : IsName w) : PrintsPat (.mutVar w) := by
  intro n joint rest
  have htokens : (Pat.mutVar w).tokens = [.word "mut", .word w] := by
    rw [Pat.mutVar, Pat.tokens]
    rfl
  have hbinding : Yields (ofDepth (n + 1)).bindingPattern
      (.word "mut" :: .word w :: .punct '=' joint :: rest) (.mutVar w)
      (.punct '=' joint :: rest) := by
    unfold bindingPattern
    refine (yields_word?_false rfl).bind ?_
    refine Yields.via true (.word w :: .punct '=' joint :: rest) (fun _ => rfl) ?_
    refine (yields_peek _ _).bind (.ite_false (startsWord_eq_false (hw.ne _ (by decide))) ?_)
    refine (yields_ident hw.noKeyword _).bind ?_
    exact (yields_operator?_false rfl).bind (.ite_false rfl (yields_pure _ _))
  rw [htokens]
  unfold parsePat
  refine (yields_rest _).bind (.ite_false rfl ?_)
  refine (yields_word?_false rfl).bind (.ite_false rfl (.ite_false rfl ?_))
  exact .ite_pos rfl hbinding

theorem printsPat_some (hw : IsName w) :
    PrintsPat (.tupleRecord (.plain (.word "Some")) [.var w] false) := by
  intro n joint rest
  have htokens : (Pat.tupleRecord (.plain (.word "Some")) [.var w] false).tokens =
      [.word "Some", .group .paren [.word w]] := by
    simp [Pat.tokens, Pat.tokensOf, Pat.var, QualifiedPath.tokens, Path.tokens, Path.word,
      Segment.tokensOf, Segment.tokens, separated, wordToken, wordIf, operatorIf]
  rw [htokens]
  exact yields_somePattern hw n _

/-- What starts with `let` is a variable with its value. -/
theorem yields_stmt_let {s : Stmt} (h : Yields (g.bindingStmt []) (.word "let" :: ts) s rest) :
    Yields g.stmt (.word "let" :: ts) s rest := by
  unfold stmt
  refine (yields_attributes g rfl).bind ((yields_rest _).bind ?_)
  exact Yields.via none (.word "let" :: ts) (fun _ => rfl) (.ite_pos rfl h)

/-- A variable is read up to what follows its value. -/
theorem yields_bindingStmt {pat : Pat} {s : Stmt} (hpat : PrintsPat pat) (he : PrintsExpr e)
    (hn : 2 * Token.sizeList e.tokens + 2 ≤ n) (hrest : Follow true .expr ts)
    (h : Yields (do
      let otherwise ←
        if !e.endsInBrace && (← peek (startsWord "else")) then do
          word "else"
          pure (some (← (ofDepth n).blockExpr (.plain none)))
        else pure none
      operator ";"
      return .binding [] pat none (some e) otherwise) ts s rest) :
    Yields (ofDepth n).stmt
      (.word "let" :: (pat.tokens ++ .punct '=' false :: (e.tokens ++ ts))) s rest := by
  obtain ⟨n, rfl⟩ : ∃ m, n = m + 2 := ⟨n - 2, by omega⟩
  have hpat : Yields (ofDepth (n + 2)).pat (pat.tokens ++ .punct '=' false :: (e.tokens ++ ts)) pat
      (.punct '=' false :: (e.tokens ++ ts)) := hpat n false _
  have hvalue : Yields ((ofDepth (n + 2)).expr true) (e.tokens ++ ts) e ts :=
    he (n + 1) (by omega) ts hrest
  refine yields_stmt_let ?_
  unfold bindingStmt
  refine Yields.via () (pat.tokens ++ .punct '=' false :: (e.tokens ++ ts)) (fun _ => rfl) ?_
  refine hpat.bind ((yields_operator?_false rfl).bind (.ite_false rfl ((yields_pure _ _).bind ?_)))
  refine Yields.via true (e.tokens ++ ts) (fun _ => rfl) (.ite_pos rfl (hvalue.bind ?_))
  exact h

/-- **A variable with its value is a statement.** -/
theorem PrintsExpr.bind {pat : Pat} (h : PrintsExpr e) (hpat : PrintsPat pat) :
    PrintsStmt (.bind pat e) := by
  have htokens : (Stmt.bind pat e).tokens =
      .word "let" :: (pat.tokens ++ .punct '=' false :: (e.tokens ++ [.punct ';' false])) := by
    simp [Stmt.bind, Stmt.tokens, attributeTokens, wordToken, Token.operator, Token.operator.go]
  refine ⟨⟨_, _, htokens⟩, rfl, fun n hn rest => ?_⟩
  rw [htokens] at hn ⊢
  simp only [Token.sizeList_word, Token.sizeList_append, Token.sizeList_punct] at hn
  simp only [List.cons_append, List.append_assoc, List.nil_append]
  refine yields_bindingStmt hpat h (by omega) .semicolon ?_
  refine (yields_peek _ _).bind (.ite_false (Bool.and_false _) ((yields_pure _ _).bind ?_))
  exact Yields.via () rest (fun _ => rfl) (yields_pure _ rest)

/-! ### Blocks -/

/-- One more statement of a block. -/
def stmtStep (g : Grammar) (stmts : List Stmt) : Parser (Option (List Stmt)) := do
  if ← operator? ";" then return some (stmts ++ [.empty])
  else if ← atEnd then return none
  else
    let stmt ← g.stmt
    if stmt.needsEnd && !(← atEnd) then throw (.rule "unexpected token, expected `;`")
    else return some (stmts ++ [stmt])

/-- Printed in a row, the statements are read back. -/
def PrintsBody (stmts : List Stmt) : Prop :=
  ∀ n, 2 * Token.sizeList (Stmt.tokensOf stmts) + 2 ≤ n → ∀ before,
    Repeats (stmtStep (ofDepth n)) (Stmt.tokensOf stmts) before [] (before ++ stmts)

theorem yields_stmtStep {s : Stmt} (h : Yields g.stmt (.word w :: ts) s rest)
    (hend : (s.needsEnd && !rest.isEmpty) = false) (before : List Stmt) :
    Yields (stmtStep g before) (.word w :: ts) (some (before ++ [s])) rest := by
  unfold stmtStep
  refine (yields_operator?_false rfl).bind (.ite_false rfl ((yields_peek _ _).bind ?_))
  refine .ite_false rfl (h.bind ((yields_peek _ rest).bind (.ite_false hend ?_)))
  exact yields_pure _ rest

theorem printsBody_nil : PrintsBody [] := by
  intro n _ before
  rw [List.append_nil]
  exact .done

/-- **The value at its end completes a block.** -/
theorem PrintsValue.body (h : PrintsValue e) : PrintsBody [.yields e] := by
  have htokens : Stmt.tokensOf [.yields e] = e.tokens := by
    rw [Stmt.tokensOf, Stmt.tokensOf, Stmt.yields, Stmt.tokens, operatorIf,
      if_neg Bool.false_ne_true, List.append_nil, List.append_nil]
  intro n hn before
  rw [htokens] at hn ⊢
  obtain ⟨w, ts, hstarts⟩ := h.starts
  have hread := h.read n hn
  rw [hstarts] at hread ⊢
  exact .next (yields_stmtStep hread (Bool.and_false _) before) (Nat.succ_pos _) .done

/-- **A statement goes before the others.** -/
theorem PrintsStmt.body {s : Stmt} {stmts : List Stmt} (h : PrintsStmt s)
    (hmore : PrintsBody stmts) : PrintsBody (s :: stmts) := by
  intro n hn before
  rw [Stmt.tokensOf, Token.sizeList_append] at hn
  obtain ⟨w, ts, hstarts⟩ := h.starts
  have hread := h.read n (by omega) (Stmt.tokensOf stmts)
  have hmore := hmore n (by omega) (before ++ [s])
  rw [List.append_assoc, List.singleton_append] at hmore
  rw [Stmt.tokensOf]
  rw [hstarts] at hread ⊢
  refine .next (yields_stmtStep hread ?_ before) ?_ hmore
  · rw [h.noEnd, Bool.false_and]
  · rw [List.cons_append, List.length_cons, List.length_append]
    omega

theorem PrintsBody.append {before stmts : List Stmt} (h : ∀ s ∈ before, PrintsStmt s)
    (hmore : PrintsBody stmts) : PrintsBody (before ++ stmts) := by
  induction before with
  | nil => exact hmore
  | cons s before ih =>
    exact (h s List.mem_cons_self).body (ih fun s' hs => h s' (List.mem_cons_of_mem s hs))

/-- **Statements in braces are read.** -/
theorem PrintsBody.yields {stmts : List Stmt} (h : PrintsBody stmts)
    (hn : 2 * Token.sizeList (Stmt.tokensOf stmts) + 2 ≤ n) (rest : List Token) :
    Yields (ofDepth n).parseBlock (.group .brace (Stmt.tokensOf stmts) :: rest) stmts rest :=
  Yields.inGroup ((h n hn []).iterate fun _ => rfl)

theorem yields_blockExpr {stmts : List Stmt} (kind : BlockKind) (h : Yields g.block ts stmts rest) :
    Yields (g.blockExpr kind) ts (.block kind stmts) rest := h.bind (yields_pure _ rest)

/-- **A variable that may be missing is a statement, with a block for when it is.** -/
theorem PrintsExpr.bindElse {pat : Pat} {stmts : List Stmt} (h : PrintsExpr e) (hpat : PrintsPat pat)
    (hbrace : e.endsInBrace = false) (hstmts : PrintsBody stmts) :
    PrintsStmt (.binding [] pat none (some e) (some (.block (.plain none) stmts))) := by
  have htokens : (Stmt.binding [] pat none (some e) (some (.block (.plain none) stmts))).tokens =
      .word "let" :: (pat.tokens ++ .punct '=' false :: (e.tokens ++
        [.word "else", .group .brace (Stmt.tokensOf stmts), .punct ';' false])) := by
    simp [Stmt.tokens, Expr.tokens, BlockKind.tokens, labelTokens, attributeTokens, wordToken,
      Token.operator, Token.operator.go]
  refine ⟨⟨_, _, htokens⟩, rfl, fun n hn rest => ?_⟩
  rw [htokens] at hn ⊢
  simp only [Token.sizeList_word, Token.sizeList_append, Token.sizeList_punct,
    Token.sizeList_group] at hn
  simp only [List.cons_append, List.append_assoc, List.nil_append]
  refine yields_bindingStmt hpat h (by omega) .otherwise ?_
  obtain ⟨n, rfl⟩ : ∃ m, n = m + 1 := ⟨n - 1, by omega⟩
  have hblock : Yields (ofDepth (n + 1)).block
      (.group .brace (Stmt.tokensOf stmts) :: .punct ';' false :: rest) stmts
      (.punct ';' false :: rest) := hstmts.yields (n := n) (by omega) _
  have helse : (!e.endsInBrace && startsWord "else"
      (.word "else" :: .group .brace (Stmt.tokensOf stmts) :: .punct ';' false :: rest)) = true := by
    rw [hbrace]
    rfl
  refine (yields_peek _ _).bind (.ite_pos helse ?_)
  refine Yields.via () (.group .brace (Stmt.tokensOf stmts) :: .punct ';' false :: rest)
    (fun _ => rfl) ?_
  refine (yields_blockExpr _ hblock).bind ((yields_pure _ _).bind ?_)
  exact Yields.via () rest (fun _ => rfl) (yields_pure _ rest)

/-! ### Leaving a body and choosing between blocks -/

/-- **Leaving a body with a value is a statement.** -/
theorem PrintsExpr.ret (h : PrintsExpr e) (hstarts : ∀ rest, startsExpr (e.tokens ++ rest) = true) :
    PrintsStmt (.run (.ret (some e))) := by
  have htokens : (Stmt.run (.ret (some e))).tokens =
      .word "return" :: (e.tokens ++ [.punct ';' false]) := by
    simp [Stmt.run, Stmt.tokens, Expr.tokens, Expr.optionTokens, wordToken, operatorIf,
      Token.operator, Token.operator.go]
  refine ⟨⟨_, _, htokens⟩, rfl, fun n hn rest => ?_⟩
  rw [htokens] at hn ⊢
  simp only [Token.sizeList_word, Token.sizeList_append, Token.sizeList_punct] at hn
  simp only [List.cons_append, List.append_assoc, List.nil_append]
  obtain ⟨n, rfl⟩ : ∃ m, n = m + 3 := ⟨n - 3, by omega⟩
  have hvalue : Yields ((ofDepth (n + 1)).expr true) (e.tokens ++ .punct ';' false :: rest) e
      (.punct ';' false :: rest) := h n (by omega) _ .semicolon
  have hoption : Yields ((ofDepth (n + 1)).value? true) (e.tokens ++ .punct ';' false :: rest)
      (some e) (.punct ';' false :: rest) := by
    have hgoes : (startsExpr (e.tokens ++ .punct ';' false :: rest) &&
        (true || !startsGroup .brace (e.tokens ++ .punct ';' false :: rest))) = true := by
      rw [hstarts]
      rfl
    exact (yields_rest _).bind (.ite_pos hgoes (hvalue.bind (yields_pure _ _)))
  have hatom : Yields ((ofDepth (n + 1)).atom true)
      (.word "return" :: (e.tokens ++ .punct ';' false :: rest)) (.ret (some e))
      (.punct ';' false :: rest) := by
    unfold Grammar.atom
    refine (yields_rest _).bind (.ite_false rfl (.ite_false rfl (.ite_false rfl ?_)))
    refine .ite_false rfl (.ite_false rfl (.ite_false rfl (.ite_false rfl ?_)))
    refine (yields_word?_false rfl).bind (.ite_false rfl ?_)
    refine Yields.via true (e.tokens ++ .punct ';' false :: rest) (fun _ => rfl) (.ite_pos rfl ?_)
    exact hoption.bind (yields_pure _ _)
  have hoperand := yields_parseOperand (noPrefix_word "return" _) hatom .done
    (.semicolon : Follow true .operand (.punct ';' false :: rest))
  have hearly : Yields (ofDepth (n + 3)).early
      (.word "return" :: (e.tokens ++ .punct ';' false :: rest)) (.ret (some e))
      (operatorIf true ";" ++ rest) :=
    yields_parseEarly (by decide) hoperand ⟨rfl, rfl⟩ .semicolon
  have hnoCall (path : Path) (d : Delimiter) (body : List Token) :
      Expr.ret (some e) ≠ .macroCall path d body := Expr.noConfusion
  have hsemicolon : true = false → startsOperator ";" rest = false := Bool.noConfusion
  have hnoMacro (path : Path) (after : List Token) (hpath : none = some (path, after)) :
      startsMacroStatement after = false := absurd hpath.symm (Option.some_ne_none _)
  exact yields_stmt rfl (fun _ => rfl) hnoMacro rfl rfl (yields_exprStmt hnoCall hearly hsemicolon)

/-- A condition and its block. -/
def ifClause (g : Grammar) : Parser (Expr × List Stmt) := do
  word "if"
  let cond ← g.expr false
  return (cond, ← g.block)

/-- One more condition, or the last block. -/
def elseStep (g : Grammar) : List (Expr × List Stmt) × Option Expr →
    Parser (Option (List (Expr × List Stmt) × Option Expr)) := fun (clauses, last) => do
  if last.isSome then return none
  else if ← word? "else" then
    let tokens ← Parser.rest
    if startsWord "if" tokens then return some (clauses ++ [← ifClause g], none)
    else if startsGroup .brace tokens then
      return some (clauses, some (← g.blockExpr (.plain none)))
    else expected ["`if`", "curly braces"]
  else return none

/-- A condition with its block and the block for when it does not hold. -/
theorem yields_ifExpr {tokens first second : List Token} {cond : Expr}
    {thenBody elseBody : List Stmt}
    (hcond : Yields (g.expr false) tokens cond
      (.group .brace first :: .word "else" :: .group .brace second :: rest))
    (hthen : Yields g.block (.group .brace first :: .word "else" :: .group .brace second :: rest)
      thenBody (.word "else" :: .group .brace second :: rest))
    (helse : Yields g.block (.group .brace second :: rest) elseBody rest) :
    Yields g.ifExpr (.word "if" :: tokens)
      (.ifElse cond thenBody (some (.block (.plain none) elseBody))) rest := by
  have hclause : Yields (ifClause g) (.word "if" :: tokens) (cond, thenBody)
      (.word "else" :: .group .brace second :: rest) :=
    Yields.via () tokens (fun _ => rfl) (hcond.bind (hthen.bind (yields_pure _ _)))
  have hlast : Yields (elseStep g ([(cond, thenBody)], none))
      (.word "else" :: .group .brace second :: rest)
      (some ([(cond, thenBody)], some (.block (.plain none) elseBody))) rest := by
    refine Yields.ite_false (p := pure none) rfl ?_
    refine Yields.via true (.group .brace second :: rest) (fun _ => rfl) (.ite_pos rfl ?_)
    refine (yields_rest _).bind (.ite_false rfl (.ite_pos rfl ?_))
    exact (yields_blockExpr _ helse).bind (yields_pure _ rest)
  have hclauses := Repeats.iterate
    (.next hlast (by rw [List.length_cons, List.length_cons]; omega) .done) (yields_pure none rest)
  exact hclause.bind (Yields.bind hclauses (yields_pure _ rest))

/-- **A choice between two blocks is the value of a block.** -/
theorem PrintsTerm.ifElse {thenBody elseBody : List Stmt} (h : PrintsTerm e)
    (hthen : PrintsBody thenBody) (helse : PrintsBody elseBody) :
    PrintsValue (.ifElse e thenBody (some (.block (.plain none) elseBody))) := by
  have htokens : (Expr.ifElse e thenBody (some (.block (.plain none) elseBody))).tokens =
      .word "if" :: (e.tokens ++ [.group .brace (Stmt.tokensOf thenBody), .word "else",
        .group .brace (Stmt.tokensOf elseBody)]) := by
    simp [Expr.tokens, BlockKind.tokens, labelTokens, wordToken]
  refine ⟨⟨_, _, htokens⟩, fun n hn => ?_⟩
  rw [htokens] at hn ⊢
  simp only [Token.sizeList_word, Token.sizeList_append, Token.sizeList_group,
    Token.sizeList_nil] at hn
  obtain ⟨n, rfl⟩ : ∃ m, n = m + 3 := ⟨n - 3, by omega⟩
  have hthen := hthen.yields (n := n + 1) (by omega) [.word "else", .group .brace (Stmt.tokensOf elseBody)]
  have helse := helse.yields (n := n + 1) (by omega) []
  generalize Stmt.tokensOf thenBody = first at hthen ⊢
  generalize Stmt.tokensOf elseBody = second at hthen helse ⊢
  have hcond : Yields ((ofDepth (n + 2)).expr false)
      (e.tokens ++ [.group .brace first, .word "else", .group .brace second]) e
      [.group .brace first, .word "else", .group .brace second] :=
    ReadsTerm.yields h (by omega) (.block rfl)
  have hif : Yields (ofDepth (n + 2)).ifExpr
      (.word "if" :: (e.tokens ++ [.group .brace first, .word "else", .group .brace second]))
      (.ifElse e thenBody (some (.block (.plain none) elseBody))) [] :=
    yields_ifExpr hcond hthen helse
  have hearly : Yields (ofDepth (n + 3)).early
      (.word "if" :: (e.tokens ++ [.group .brace first, .word "else", .group .brace second]))
      (.ifElse e thenBody (some (.block (.plain none) elseBody))) [] := by
    have hfirst : Yields (ofDepth (n + 2)).earlyOperand
        (.word "if" :: (e.tokens ++ [.group .brace first, .word "else", .group .brace second]))
        (.ifElse e thenBody (some (.block (.plain none) elseBody))) [] :=
      (yields_rest _).bind (.ite_pos rfl hif)
    refine (yields_attributes _ rfl).bind (hfirst.bind (.ite_false rfl ?_))
    exact (yields_rest []).bind (.ite_false rfl (yields_pure _ []))
  have hstmt : Yields ((ofDepth (n + 3)).exprStmt [])
      (.word "if" :: (e.tokens ++ [.group .brace first, .word "else", .group .brace second]))
      (.expr (.ifElse e thenBody (some (.block (.plain none) elseBody))) false) [] :=
    yields_exprStmt nofun hearly fun _ => rfl
  exact yields_stmt rfl (fun _ => rfl) nofun rfl rfl hstmt

end Grammar

end EntityTable.Source
