import EntityTable.Proofs.Source.Strings.Types

/-! # String literals that the grammar of expressions keeps

The rules of patterns and expressions keep their string literals if the parsers for their parts do.
Numbers are written anew where they name fields, which is no matter, since they are no strings. -/

namespace EntityTable.Source

open EntityTable.Source.Parser

namespace Grammar

variable (g : Grammar) [g.KeepsStrings]

/-! ### Patterns -/

instance keepsAlternatives : Keeps g.alternatives := by
  unfold alternatives
  refine ⟨kept_skip fun _ => ?_⟩
  refine (fun hfirst => kept_ite (kept_skip hfirst) (kept_skip hfirst)) fun leading => ?_
  refine kept_bind fun first => kept_skip fun _ => kept_ite ?_ (kept_pure rfl)
  refine (kept_iterate strings (by simp) fun cases => ?_).bind fun cases => ?_
  · refine kept_skip fun _ => kept_ite (kept_skip fun _ => kept_bind fun pat => ?_) (kept_pure rfl)
    exact kept_pure (by simp)
  · exact kept_pure (by simp [Pat.tokens])

instance keepsRangeLimits : Keeps rangeLimits := by
  unfold rangeLimits
  refine ⟨kept_skip fun _ => kept_skip fun _ => kept_ite (kept_pure rfl) ?_⟩
  exact kept_skip fun _ => kept_pure rfl

instance keepsLiteralPattern : Keeps g.literalPattern where
  kept := kept_of_rest fun tokens => by
    split
    · exact Kept.advance [_, _] (kept_pure (by simp))
    · exact Kept.advance [_] (kept_pure (by simp))
    · split
      · exact Kept.advance [_] (kept_pure (by simp))
      · split
        · refine Kept.advance [_] (kept_bind fun body => kept_pure ?_)
          simp [Expr.tokens]
        · exact kept_expected _ _
    · exact kept_expected _ _

instance keepsRangeEnd : Keeps g.rangeEnd := by
  unfold rangeEnd
  refine ⟨kept_rest fun _ => kept_ite (kept_pure rfl) (kept_ite ?_ g.keepsLiteralPattern.kept)⟩
  exact kept_bind fun path => kept_pure (by simp)

theorem kept_rangeFrom (start : List Token) : Kept strings (strings start) (g.rangeFrom start) := by
  unfold rangeFrom
  exact kept_skip fun limits => kept_bind fun stop => kept_pure (by simp [Pat.tokens])

/-- A number stands for a field, and no string literal. -/
theorem strings_literal_of_kind {text : String} (h : Literal.kind text ≠ .string) :
    strings (Token.literal text) = [] := by
  rw [strings_literal, if_neg h]

theorem kept_memberNumber (text : List Char) : Kept strings [] (memberNumber text) := by
  unfold memberNumber
  refine kept_ite (kept_throw _) (kept_ite (kept_pure rfl) (kept_throw _))

instance keepsMember : Keeps member where
  kept := kept_of_rest fun tokens => by
    split
    · split
      · rename_i hkind
        refine Kept.skip [_] ?_ (kept_memberNumber _)
        rw [beq_iff_eq] at hkind
        simp [strings_literal_of_kind, hkind]
      · exact kept_expected _ _
    · exact kept_ite keepsIdent.kept (kept_expected _) _

theorem kept_fieldPattern (attrs : List Attribute) :
    Kept strings (strings attrs) (g.fieldPattern attrs) := by
  unfold fieldPattern
  refine kept_skip fun isRef => kept_skip fun isMut => ?_
  refine (fun hname => kept_ite (kept_skip hname) (kept_skip hname)) fun name => ?_
  refine kept_skip fun _ => kept_ite (kept_skip fun _ => kept_bind fun pat => ?_) ?_
  · exact kept_pure (by simp [PatField.tokens])
  · exact kept_pure (by simp [PatField.tokens, Pat.tokens])

instance keepsFieldPatterns : Keeps g.fieldPatterns := by
  unfold fieldPatterns
  refine ⟨kept_iterate strings rfl ?_⟩
  rintro ⟨fields, trailing, others⟩
  refine kept_skip fun _ => ?_
  split
  · exact kept_pure rfl
  · rename_i hopen
    have hnone : others = none := by
      cases others <;> simp_all
    refine kept_bind fun attrs => kept_skip fun _ => kept_ite (kept_pure (by simp [hnone])) ?_
    refine ((g.kept_fieldPattern attrs).prepend _).bind fun field => kept_skip fun _ => ?_
    exact kept_ite (kept_pure (by simp [hnone])) (kept_skip fun _ => kept_pure (by simp [hnone]))

/-- The path of a macro call, if the path may be one. -/
theorem eq_of_macroPath? {path : QualifiedPath} {plain : Path}
    (h : (match path with
      | .plain path => if path.isModulePath then some path else none
      | _ => none) = some plain) : path = .plain plain := by
  split at h
  · split at h
    · exact congrArg _ (Option.some.inj h)
    · cases h
  · cases h

instance keepsPathPattern : Keeps g.pathPattern := by
  unfold pathPattern
  refine ⟨kept_bind fun path => ?_⟩
  have hforms : Kept strings (strings path) (do
      let tokens ← Parser.rest
      if startsGroup .brace tokens then
        let (fields, trailing, others) ← Parser.inGroup .brace g.fieldPatterns
        return Pat.record path fields trailing others
      else if startsGroup .paren tokens then
        let (elems, trailing) ← Parser.inGroup .paren (Parser.commaList g.alternatives)
        return .tupleRecord path elems trailing
      else if startsOperator ".." tokens then g.rangeFrom path.tokens
      else return .path path) := by
    refine kept_rest fun _ => kept_ite ?_ (kept_ite ?_ (kept_ite ?_ ?_))
    · refine kept_bind fun ⟨fields, trailing, others⟩ => kept_pure ?_
      cases others <;> simp [Pat.tokens]
    · exact kept_bind fun ⟨elems, trailing⟩ => kept_pure (by simp [Pat.tokens])
    · exact g.kept_rangeFrom path.tokens
    · exact kept_pure (by simp [Pat.tokens])
  refine kept_skip fun _ => ?_
  split
  · rename_i plain heq
    obtain rfl := eq_of_macroPath? heq
    refine kept_skip fun _ => kept_bind fun ⟨d, body⟩ => kept_pure ?_
    simp [Pat.tokens, QualifiedPath.tokens]
  · exact hforms

instance keepsBindingPattern : Keeps g.bindingPattern := by
  unfold bindingPattern
  refine ⟨kept_skip fun isRef => kept_skip fun isMut => kept_skip fun _ => ?_⟩
  refine (fun hname => kept_ite (kept_skip hname) (kept_skip hname)) fun name => ?_
  refine kept_skip fun _ => kept_ite (kept_bind fun sub => kept_pure ?_) (kept_pure ?_)
  · simp [Pat.tokens]
  · simp [Pat.tokens]

instance keepsParenPattern : Keeps g.parenPattern := by
  unfold parenPattern
  refine ⟨kept_bind fun ⟨elems, trailing⟩ => ?_⟩
  dsimp only
  split
  · exact kept_pure (by simp [Pat.tokens])
  · exact kept_pure (by simp [Pat.tokens])
  · exact kept_pure (by simp [Pat.tokens])

instance keepsParsePat : Keeps g.parsePat := by
  unfold parsePat
  refine ⟨kept_rest fun _ => kept_ite g.keepsPathPattern.kept (kept_skip fun _ => kept_ite ?_ ?_)⟩
  · exact kept_pure (by simp [Pat.tokens])
  refine kept_ite (kept_bind fun start => kept_skip fun _ => kept_ite ?_ ?_) ?_
  · exact g.kept_rangeFrom start
  · exact kept_pure (by simp [Pat.tokens])
  refine kept_ite g.keepsBindingPattern.kept (kept_skip fun _ => kept_ite ?_ ?_)
  · exact kept_skip fun isMut => kept_bind fun pat => kept_pure (by simp [Pat.tokens])
  refine kept_ite g.keepsParenPattern.kept (kept_ite ?_ (kept_ite ?_ (kept_expected _)))
  · exact kept_bind fun ⟨elems, trailing⟩ => kept_pure (by simp [Pat.tokens])
  refine kept_skip fun limits => kept_rest fun _ => kept_ite ?_ ?_
  · exact kept_ite (kept_pure (by simp [Pat.tokens])) (kept_expected _)
  · exact kept_bind fun stop => kept_pure (by simp [Pat.tokens])

/-! ### Parts of expressions -/

theorem kept_blockExpr (kind : BlockKind) : Kept strings [] (g.blockExpr kind) := by
  unfold blockExpr
  exact kept_bind fun body => kept_pure (by simp [Expr.tokens])

instance keepsBlockExpr (kind : BlockKind) : Keeps (g.blockExpr kind) := ⟨g.kept_blockExpr kind⟩

instance keepsOutput? : Keeps g.output? := by
  unfold output?
  refine ⟨kept_skip fun _ => kept_ite ?_ (kept_pure rfl)⟩
  exact kept_bind fun ty => kept_pure rfl

instance keepsClosureParam : Keeps g.closureParam := by
  unfold closureParam
  refine ⟨kept_bind fun attrs => kept_bind fun pat => kept_skip fun _ => kept_ite ?_ ?_⟩
  · exact kept_bind fun ty => kept_pure (by simp [ClosureParam.tokens])
  · exact kept_pure (by simp [ClosureParam.tokens])

instance keepsClosure (allowRecord : Bool) : Keeps (g.closure allowRecord) := by
  unfold closure
  refine ⟨kept_skip fun binder => kept_skip fun isConst => kept_skip fun isStatic => ?_⟩
  refine kept_skip fun isAsync => kept_skip fun isMove => kept_skip fun _ => ?_
  refine kept_bind fun ⟨params, trailing⟩ => kept_skip fun _ => kept_bind fun output => ?_
  refine (fun hbody => kept_ite (kept_bind hbody) (kept_bind hbody)) fun body => kept_pure ?_
  simp [Expr.tokens]

instance keepsFieldInit : Keeps g.fieldInit := by
  unfold fieldInit
  refine ⟨kept_bind fun attrs => kept_skip fun name => kept_skip fun _ => kept_ite ?_ ?_⟩
  · refine kept_skip fun _ => kept_bind fun value => kept_pure ?_
    simp [FieldInit.tokens]
  · exact kept_pure (by simp [FieldInit.tokens])

theorem kept_fieldInits (path : QualifiedPath) :
    Kept strings (strings path) (g.fieldInits path) := by
  unfold fieldInits
  refine (kept_iterate (fun state => strings path ++ strings state) (by simp) ?_).bind ?_
  · rintro ⟨fields, afterComma⟩
    refine kept_skip fun _ => kept_skip fun _ => kept_ite (kept_pure rfl) ?_
    refine kept_bind fun field => kept_skip fun _ => kept_ite (kept_pure (by simp)) ?_
    exact kept_skip fun _ => kept_pure (by simp)
  · rintro ⟨fields, trailing⟩
    refine kept_skip fun _ => kept_ite (kept_skip fun _ => ?_) (kept_pure ?_)
    · refine (fun hbase => kept_ite (kept_bind hbase) (kept_bind hbase)) fun base => kept_pure ?_
      simp [Expr.tokens]
    · simp [Expr.tokens]

instance keepsPathExpr (allowRecord : Bool) : Keeps (g.pathExpr allowRecord) := by
  unfold pathExpr
  refine ⟨kept_bind fun path => kept_skip fun _ => ?_⟩
  split
  · rename_i plain heq
    obtain rfl := eq_of_macroPath? heq
    refine kept_skip fun _ => kept_bind fun ⟨d, body⟩ => kept_pure ?_
    simp [Expr.tokens, QualifiedPath.tokens]
  · refine kept_skip fun _ => kept_ite ((g.kept_fieldInits path).inGroup .brace) (kept_pure ?_)
    simp [Expr.tokens]

instance keepsParenExpr : Keeps g.parenExpr := by
  unfold parenExpr
  refine ⟨Kept.inGroup _ (kept_skip fun _ => kept_ite (kept_pure (by simp [Expr.tokens])) ?_)⟩
  refine kept_bind fun first => kept_skip fun _ => kept_ite (kept_pure (by simp [Expr.tokens])) ?_
  exact kept_skip fun _ => kept_bind fun ⟨more, trailing⟩ => kept_pure (by simp [Expr.tokens])

instance keepsBracketExpr : Keeps g.bracketExpr := by
  unfold bracketExpr
  refine ⟨Kept.inGroup _ (kept_skip fun _ => kept_ite (kept_pure (by simp [Expr.tokens])) ?_)⟩
  refine kept_bind fun first => kept_skip fun _ => kept_ite (kept_pure (by simp [Expr.tokens])) ?_
  refine kept_skip fun _ => kept_ite ?_ (kept_skip fun _ => kept_ite ?_ (kept_expected _))
  · exact kept_bind fun ⟨more, trailing⟩ => kept_pure (by simp [Expr.tokens])
  · exact kept_bind fun length => kept_pure (by simp [Expr.tokens])

instance keepsValue? (allowRecord : Bool) : Keeps (g.value? allowRecord) := by
  unfold value?
  refine ⟨kept_rest fun _ => kept_ite ?_ (kept_pure rfl)⟩
  exact kept_bind fun e => kept_pure rfl

instance keepsBreakExpr (allowRecord : Bool) : Keeps (g.breakExpr allowRecord) := by
  unfold breakExpr
  refine ⟨kept_skip fun _ => kept_rest fun _ => kept_ite ?_ ?_⟩
  · exact kept_bind fun _ => kept_throw _
  · refine kept_skip fun label => kept_bind fun value => kept_pure ?_
    simp [Expr.tokens]

/-- What a chain of conditions is written with. -/
theorem strings_chain (last : Option Expr) : ∀ clauses : List (Expr × List Stmt),
    strings (clauses.foldr (fun (cond, body) tail => some (Expr.ifElse cond body tail)) last) =
      strings clauses ++ strings last
  | [] => by simp
  | (cond, body) :: clauses => by
    have hmore := strings_chain last clauses
    rw [List.foldr_cons]
    generalize clauses.foldr _ last = tail at hmore
    cases tail <;> simp_all [Expr.tokens]

instance keepsIfExpr : Keeps g.ifExpr := by
  unfold ifExpr
  extract_lets clause
  have hclause : Keeps clause :=
    ⟨kept_skip fun _ => kept_bind fun cond => kept_bind fun body => kept_pure (by simp)⟩
  refine ⟨kept_bind fun first => (kept_iterate strings (by simp) ?_).bind ?_⟩
  · rintro ⟨clauses, last⟩
    dsimp only
    split
    · exact kept_pure rfl
    · rename_i hopen
      have hnone : last = none := by
        cases last <;> simp_all
      refine kept_skip fun _ => kept_ite (kept_rest fun _ => ?_) (kept_pure rfl)
      refine kept_ite ?_ (kept_ite ?_ (kept_expected _))
      · exact kept_bind fun clause => kept_pure (by simp [hnone])
      · exact kept_bind fun block => kept_pure (by simp [hnone])
  · rintro ⟨clauses, last⟩
    have hchain := strings_chain last clauses
    dsimp only
    split
    · rename_i chain heq
      rw [heq] at hchain
      exact kept_pure (by simpa using hchain)
    · exact kept_expected _

instance keepsLoopExpr (label : Option String) : Keeps (g.loopExpr label) := by
  unfold loopExpr
  refine ⟨kept_skip fun _ => kept_ite ?_ (kept_skip fun _ => kept_ite ?_ ?_)⟩
  · exact kept_bind fun cond => kept_bind fun body => kept_pure (by simp [Expr.tokens])
  · refine kept_bind fun pat => kept_skip fun _ => kept_bind fun source => ?_
    exact kept_bind fun body => kept_pure (by simp [Expr.tokens])
  · refine kept_skip fun _ => kept_ite (g.kept_blockExpr _) ?_
    exact kept_skip fun _ => kept_ite (g.kept_blockExpr _) (kept_expected _)

instance keepsLabelledExpr : Keeps g.labelledExpr := by
  unfold labelledExpr
  exact ⟨kept_skip fun label => kept_skip fun _ => (g.keepsLoopExpr _).kept⟩

instance keepsArm : Keeps g.arm := by
  unfold arm
  refine ⟨kept_bind fun attrs => kept_bind fun pat => kept_skip fun _ => ?_⟩
  refine (fun hguard => kept_ite (kept_bind hguard) (kept_bind hguard)) fun guard => ?_
  refine kept_skip fun _ => kept_bind fun body => kept_skip fun _ => kept_ite ?_ ?_
  · exact kept_skip fun _ => kept_pure (by cases guard <;> simp [Arm.tokens])
  · exact kept_skip fun _ => kept_pure (by cases guard <;> simp [Arm.tokens])

instance keepsMatchExpr : Keeps g.matchExpr := by
  unfold matchExpr
  refine ⟨kept_skip fun _ => kept_bind fun scrutinee => ?_⟩
  refine (Kept.inGroup _ (kept_iterate (fun arms => [] ++ strings scrutinee ++ strings arms)
    (by simp) fun arms => ?_)).bind fun arms => kept_pure ?_
  · refine kept_skip fun _ => kept_ite (kept_pure rfl) ?_
    exact kept_bind fun arm => kept_pure (by simp)
  · simp [Expr.tokens]

/-! ### Operators -/

/-- The value of a step that reads nothing may be dropped. -/
theorem keptOn_unlessIdle {α : Type} {keep : α → List String} {p : Parser α} {a : α}
    {tokens : List Token} (hp : Kept keep (keep a) p) :
    KeptOn (fun next => keep (next.getD a)) (keep a)
      (p >>= fun more => Parser.rest >>= fun now =>
        if now.length = tokens.length then pure none else pure (some more)) tokens := by
  intro unread out next hrun
  obtain ⟨more, middle, hmore, hrun⟩ := run_bind hrun
  obtain ⟨now, _, hnow, hrun⟩ := run_bind hrun
  obtain ⟨read, hread, hkeep⟩ := hp _ hmore
  cases hnow
  split at hrun
  · rename_i hlength
    cases hrun
    have hempty : read = [] := by
      have hsum := congrArg List.length hread
      rw [List.length_append] at hsum
      exact List.length_eq_zero_iff.mp (by omega)
    refine ⟨[], by rw [hread, hempty], fun hunread => ⟨(hkeep hunread).1, ?_⟩⟩
    exact (List.append_nil _).symm
  · cases hrun
    exact ⟨read, hread, hkeep⟩

theorem kept_rightSide (allowRecord : Bool) (precedence : Precedence) :
    Kept strings [] (g.rightSide allowRecord precedence) := by
  unfold rightSide
  refine kept_bind fun first => kept_iterate strings (by simp) fun right => ?_
  refine kept_of_rest fun tokens => ?_
  refine keptOn_ite (fun _ => ?_) fun _ => kept_pure rfl _
  exact keptOn_unlessIdle (KeepsStrings.operators _ _ right)

instance keepsRightSide (allowRecord : Bool) (precedence : Precedence) :
    Keeps (g.rightSide allowRecord precedence) := ⟨g.kept_rightSide allowRecord precedence⟩

theorem kept_rangeExpr (allowRecord : Bool) (start : Option Expr) :
    Kept strings (strings start) (g.rangeExpr allowRecord start) := by
  unfold rangeExpr
  refine kept_skip fun _ => kept_ite (kept_expected _) (kept_skip fun _ => ?_)
  refine (fun hlimits => kept_ite (kept_skip hlimits) (kept_skip fun _ => kept_skip hlimits)) ?_
  refine fun limits => kept_rest fun _ => kept_ite (kept_pure ?_) (kept_bind fun stop => ?_)
  · simp [Expr.tokens]
  · exact kept_pure (by simp [Expr.tokens])

instance keepsLetExpr (allowRecord : Bool) : Keeps (g.letExpr allowRecord) := by
  unfold letExpr
  refine ⟨kept_skip fun _ => kept_bind fun pat => kept_skip fun _ => kept_bind fun first => ?_⟩
  refine ((KeepsStrings.operators (g := g) _ _ first).prepend _).bind fun value => kept_pure ?_
  simp [Expr.tokens]

theorem kept_operatorStep (allowRecord : Bool) (base : Precedence) :
    KeptStep strings (g.operatorStep allowRecord base) := by
  intro left
  unfold operatorStep
  refine kept_rest fun tokens => kept_ite (kept_pure rfl) ?_
  split
  · refine kept_ite (kept_pure rfl) (kept_ite (kept_throw _) (kept_skip fun _ => ?_))
    exact kept_bind fun right => kept_pure (by simp [Expr.tokens])
  · refine kept_ite (kept_skip fun _ => ?_) (kept_ite ?_ (kept_ite ?_ (kept_pure rfl)))
    · exact kept_bind fun right => kept_pure (by simp [Expr.tokens])
    · exact (g.kept_rangeExpr allowRecord (some left)).bind fun range => kept_pure rfl
    · refine kept_skip fun _ => kept_bind fun ty => kept_rest fun _ => ?_
      split
      · exact kept_throw _
      · exact kept_pure (by simp [Expr.tokens])

theorem kept_parseOperators (allowRecord : Bool) (base : Precedence) (left : Expr) :
    Kept strings (strings left) (g.parseOperators allowRecord base left) := by
  unfold parseOperators
  exact kept_iterate strings rfl (g.kept_operatorStep allowRecord base)

/-! ### Operands -/

/-- The words for the truth values are no strings. -/
@[simp] theorem strings_lit (text : String) :
    strings (Expr.lit text).tokens = strings (Token.literal text) := by
  have htrue : Literal.kind "true" ≠ .string := by decide
  have hfalse : Literal.kind "false" ≠ .string := by decide
  rw [Expr.tokens, strings_cons, strings_nil, List.append_nil]
  split
  · rename_i htext
    rcases htext with rfl | rfl
    · rw [strings_literal_of_kind htrue]
      rfl
    · rw [strings_literal_of_kind hfalse]
      rfl
  · rfl

/-- A truth value is a literal without being a string. -/
theorem keptOn_truth {tokens : List Token} (h : startsWordOf ["true", "false"] tokens = true) :
    KeptOn strings [] (do return Expr.lit (← anyWord)) tokens := by
  cases tokens with
  | nil => cases h
  | cons t more =>
    cases t with
    | word w =>
      have hw : w = "true" ∨ w = "false" := by simpa [startsWordOf] using h
      intro unread out e hrun
      cases hrun
      refine ⟨[.word w], rfl, fun hunread => ⟨hunread, ?_⟩⟩
      rcases hw with rfl | rfl
      · simp [Expr.tokens]
      · simp [Expr.tokens]
    | punct | lifetime | literal | group => cases h

instance keepsAtom (allowRecord : Bool) : Keeps (g.atom allowRecord) where
  kept := kept_of_rest fun tokens => by
    split
    · exact Kept.advance [_] (kept_pure (by simp))
    refine keptOn_ite keptOn_truth fun _ => Kept.on (kept_ite ?_ (kept_ite ?_ ?_)) _
    · exact kept_skip fun _ => kept_skip fun isMove => g.kept_blockExpr _
    · exact kept_skip fun _ => g.kept_blockExpr _
    refine kept_ite (g.keepsClosure _).kept (kept_ite (g.keepsPathExpr _).kept ?_)
    refine kept_ite g.keepsParenExpr.kept (kept_ite (g.keepsBreakExpr _).kept ?_)
    refine kept_skip fun _ => kept_ite ?_ (kept_skip fun _ => kept_ite ?_ ?_)
    · exact kept_skip fun label => kept_pure (by simp [Expr.tokens])
    · exact kept_bind fun value => kept_pure (by simp [Expr.tokens])
    refine kept_ite g.keepsBracketExpr.kept (kept_ite (g.keepsLetExpr _).kept ?_)
    refine kept_ite g.keepsIfExpr.kept (kept_ite (g.keepsLoopExpr _).kept ?_)
    refine kept_ite g.keepsMatchExpr.kept (kept_skip fun _ => kept_ite ?_ ?_)
    · exact kept_bind fun value => kept_pure (by simp [Expr.tokens])
    refine kept_skip fun _ => kept_ite (g.kept_blockExpr _) (kept_skip fun _ => ?_)
    refine kept_ite (g.kept_blockExpr _) (kept_ite (g.kept_blockExpr _) (kept_ite ?_ ?_))
    · exact g.kept_rangeExpr allowRecord none
    refine kept_skip fun _ => kept_ite (kept_pure (by simp [Expr.tokens])) ?_
    exact kept_ite g.keepsLabelledExpr.kept (kept_expected _)

instance keepsMapM {α β : Type} [HasStrings β] (f : α → Parser β) [∀ a, Keeps (f a)] :
    ∀ l : List α, Keeps (l.mapM f)
  | [] => ⟨kept_pure rfl⟩
  | a :: l => by
    have hmore := keepsMapM f l
    rw [List.mapM_cons]
    exact ⟨kept_bind fun b => kept_bind fun bs => kept_pure (by simp)⟩

@[simp] theorem strings_fields (base : Expr) (members : List String) :
    strings (members.foldl Expr.field base).tokens = strings base := by
  induction members generalizing base with
  | nil => rfl
  | cons member members ih => rw [List.foldl_cons, ih]; simp [Expr.tokens]

theorem kept_fieldsOfFloat (base : Expr) (text : String) :
    Kept strings (strings base) (fieldsOfFloat base text) := by
  unfold fieldsOfFloat
  have hnumber (part : String) : Keeps (memberNumber part.toList) := ⟨kept_memberNumber _⟩
  exact kept_ite (kept_skip fun members => kept_pure (by simp)) (kept_throw _)

theorem kept_afterDot (base : Expr) : Kept strings (strings base) (g.afterDot base) := by
  unfold afterDot
  refine kept_skip fun _ => kept_ite (kept_pure (by simp [Expr.tokens])) ?_
  refine kept_skip fun name => kept_skip fun _ => ?_
  have hplain : Keeps (pure (.plain name) : Parser Segment) :=
    ⟨kept_pure (by simp [Segment.tokens])⟩
  refine (fun hmethod => kept_ite (kept_skip fun _ => kept_bind hmethod) (kept_bind hmethod)) ?_
  refine fun method => kept_skip fun _ => ?_
  split
  · exact kept_bind fun ⟨args, trailing⟩ => kept_pure (by simp [Expr.tokens])
  · rename_i hfield
    have hnone : strings method = [] := by
      cases method <;> simp_all [Segment.isPlain, Segment.tokens]
    exact kept_pure (by simp [Expr.tokens, hnone])

theorem kept_someAfterDot (base e : Expr) :
    Kept (fun next => strings (Option.getD next base)) (strings e)
      (g.afterDot e >>= fun e => pure (some e)) :=
  (g.kept_afterDot e).bind fun _ => kept_pure rfl

theorem kept_postfixStep : KeptStep strings g.postfixStep := by
  intro base
  unfold postfixStep
  refine kept_rest fun _ => kept_ite ?_ (kept_ite (kept_skip fun _ => ?_) (kept_ite ?_ ?_))
  · exact kept_bind fun ⟨args, trailing⟩ => kept_pure (by simp [Expr.tokens])
  · refine kept_of_rest fun tokens => ?_
    split
    · rename_i text more
      refine keptOn_ite (fun hkind => ?_) fun _ => g.kept_someAfterDot base base _
      have hliteral : strings [Token.literal text] = [] := by
        rw [beq_iff_eq] at hkind
        simp [strings_literal_of_kind, hkind]
      refine Kept.skip [_] hliteral ((kept_fieldsOfFloat base text).bind fun ⟨fields, isOpen⟩ => ?_)
      rw [strings_pair, strings_eq_nil isOpen, List.append_nil]
      exact kept_ite (g.kept_someAfterDot base fields) (kept_pure rfl)
    · exact g.kept_someAfterDot base base _
  · exact kept_bind fun index => kept_pure (by simp [Expr.tokens])
  · exact kept_ite (kept_skip fun _ => kept_pure (by simp [Expr.tokens])) (kept_pure rfl)

theorem kept_postfixes (base : Expr) : Kept strings (strings base) (g.postfixes base) := by
  unfold postfixes
  exact kept_iterate strings rfl g.kept_postfixStep

@[simp] theorem strings_attributed (attrs : List Attribute) (e : Expr) :
    strings (attributed attrs e).tokens = strings attrs ++ strings e := by
  unfold attributed
  cases attrs <;> simp [Expr.tokens]

instance keepsParseOperand (allowRecord : Bool) : Keeps (g.parseOperand allowRecord) := by
  unfold parseOperand
  refine ⟨kept_bind fun attrs => kept_skip fun _ => kept_ite (kept_rest fun _ => ?_) ?_⟩
  · refine kept_ite (kept_skip fun _ => kept_skip fun isMut => ?_) (kept_skip fun isMut => ?_)
    · refine (fun htarget => kept_ite (kept_skip fun _ => htarget) htarget) ?_
      exact kept_bind fun target => kept_pure (by simp [Expr.tokens])
    · exact kept_bind fun target => kept_pure (by simp [Expr.tokens])
  refine kept_skip fun _ => kept_ite ?_ (kept_skip fun _ => kept_ite ?_ ?_)
  · exact kept_bind fun operand => kept_pure (by simp [Expr.tokens])
  · exact kept_bind fun operand => kept_pure (by simp [Expr.tokens])
  refine kept_skip fun _ => kept_ite ?_ ?_
  · exact kept_bind fun operand => kept_pure (by simp [Expr.tokens])
  refine kept_bind fun atom => ((g.kept_postfixes atom).prepend _).bind fun e => ?_
  exact kept_ite (kept_throw _) (kept_pure (by simp))

instance keepsParseExpr (allowRecord : Bool) : Keeps (g.parseExpr allowRecord) := by
  unfold parseExpr
  exact ⟨kept_bind fun first => KeepsStrings.operators (g := g) _ _ first⟩

instance keepsEarlyOperand : Keeps g.earlyOperand := by
  unfold earlyOperand
  refine ⟨kept_rest fun _ => kept_ite g.keepsIfExpr.kept (kept_ite (g.keepsLoopExpr _).kept ?_)⟩
  refine kept_ite g.keepsMatchExpr.kept (kept_ite (kept_skip fun _ => g.kept_blockExpr _) ?_)
  refine kept_ite (kept_skip fun _ => g.kept_blockExpr _) (kept_ite ?_ ?_)
  · exact kept_skip fun _ => g.kept_blockExpr _
  refine kept_ite (g.kept_blockExpr _) (kept_ite g.keepsLabelledExpr.kept ?_)
  exact (KeepsStrings.operand (g := g) _).kept

instance keepsParseEarly : Keeps g.parseEarly := by
  unfold parseEarly
  refine ⟨kept_bind fun attrs => kept_bind fun first => kept_ite ?_ (kept_rest fun _ => ?_)⟩
  · have hfirst : [] ++ strings attrs ++ strings first = strings (attributed attrs first) := by
      simp
    rw [hfirst]
    exact KeepsStrings.operators _ _ _
  · refine kept_ite (((g.kept_postfixes first).prepend _).bind fun e => ?_) (kept_pure (by simp))
    have he : [] ++ strings attrs ++ strings e = strings (attributed attrs e) := by simp
    rw [he]
    exact KeepsStrings.operators _ _ _

end Grammar

end EntityTable.Source
