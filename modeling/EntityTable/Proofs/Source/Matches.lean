import EntityTable.Proofs.Source.Chains

/-! # Closures and matches on given tokens

A closure with one parameter and a match that converts what is present are expressions; the second
is the form in which the value of a nullable column is converted. -/

namespace EntityTable.Source

open EntityTable.Source.Parser

namespace Grammar

variable {g : Grammar} {ts value rest : List Token} {e : Expr} {n : Nat} {allowRecord : Bool}
  {w : String}

/-! ### Closures -/

theorem ReadsTerm.noArrow (h : ReadsTerm ts e) : ∀ rest, startsOperator "->" (ts ++ rest) = false := by
  induction h with
  | operand h =>
    intro rest
    cases h with
    | chain h => exact h.starts.noOperator (by decide) rest
    | reference => rfl
    | deref => rfl
  | cast h hpath ih =>
    intro rest
    rw [List.append_assoc]
    exact ih _

/-- What follows a variable in a pattern. -/
structure EndsPat (rest : List Token) : Prop where
  noPath : followsPath rest = false
  noBinding : startsOperator "@" rest = false

/-- **A name is a pattern.** -/
theorem yields_parsePat (hw : IsName w) (hrest : EndsPat rest) :
    Yields g.parsePat (.word w :: rest) (.var w) rest := by
  have hne (k : String) (hk : k ∈ keywords) : startsWord k (.word w :: rest) = false :=
    startsWord_eq_false (hw.ne k hk)
  have hpath : startsPathPattern (.word w :: rest) = false := by
    have hspecial : startsWordOf ["Self", "super", "crate"] (.word w :: rest) = false :=
      startsWordOf_eq_false (hw.notMem (by decide))
    rw [startsPathPattern, hne "self" (by decide), hspecial, List.drop_one, List.tail_cons,
      hrest.noPath, Bool.and_false]
    rfl
  have hliteral : startsLiteral (.word w :: rest) = false := IsSegment.noLiteral (Or.inl hw) _
  have hbinding : Yields g.bindingPattern (.word w :: rest) (.var w) rest := by
    unfold bindingPattern
    refine (yields_word?_false (hne "ref" (by decide))).bind ?_
    refine (yields_word?_false (hne "mut" (by decide))).bind ?_
    refine (yields_peek _ _).bind (.ite_false (hne "self" (by decide)) ?_)
    refine (yields_ident hw.noKeyword _).bind ?_
    exact (yields_operator?_false hrest.noBinding).bind (.ite_false rfl (yields_pure _ _))
  unfold parsePat
  refine (yields_rest _).bind (.ite_false hpath ?_)
  refine (yields_word?_false (hne "_" (by decide))).bind (.ite_false rfl (.ite_false ?_ ?_))
  · rw [hliteral, hne "const" (by decide)]
    rfl
  · refine .ite_pos ?_ hbinding
    rw [hw.startsIdent]
    rfl

/-- **A closure is read once its parameter and its body are.** -/
theorem yields_closure {body : Expr} {opening closing : Bool}
    (hpat : Yields g.pat (.word w :: .punct '|' closing :: ts) (.var w) (.punct '|' closing :: ts))
    (harrow : startsOperator "->" ts = false) (hbody : Yields (g.expr allowRecord) ts body rest) :
    Yields (g.closure allowRecord) (.punct '|' opening :: .word w :: .punct '|' closing :: ts)
      (.lambda w body) rest := by
  have hparam : Yields g.closureParam (.word w :: .punct '|' closing :: ts) ⟨[], .var w, none⟩
      (.punct '|' closing :: ts) := by
    unfold closureParam
    refine (yields_attributes _ rfl).bind (hpat.bind ?_)
    exact (yields_operator?_false rfl).bind (.ite_false rfl (yields_pure _ _))
  have hparams : Yields (listUntil (startsOperator "|") "," g.closureParam)
      (.word w :: .punct '|' closing :: ts) ([⟨[], .var w, none⟩], false)
      (.punct '|' closing :: ts) := (yields_rest _).bind (hparam.listUntil_last rfl rfl)
  have houtput : Yields g.output? ts none ts :=
    (yields_operator?_false harrow).bind (.ite_false rfl (yields_pure _ _))
  unfold Grammar.closure
  -- no binder and none of the four marks
  refine Yields.via none (.punct '|' opening :: _) (fun _ => rfl) ?_
  refine (yields_word?_false rfl).bind ((yields_word?_false rfl).bind ?_)
  refine (yields_word?_false rfl).bind ((yields_word?_false rfl).bind ?_)
  refine Yields.via () (.word w :: .punct '|' closing :: ts) (fun _ => rfl) ?_
  refine hparams.bind (Yields.via () ts (fun _ => rfl) (houtput.bind ?_))
  exact .ite_false rfl (hbody.bind (yields_pure _ rest))

/-- **A closure with one parameter is an expression.** -/
theorem ReadsTerm.closure (h : ReadsTerm ts e) (hw : IsName w) (opening closing : Bool) :
    ReadsExpr (.punct '|' opening :: .word w :: .punct '|' closing :: ts) (.lambda w e) := by
  intro n hn rest hrest
  simp only [Token.sizeList_punct, Token.sizeList_word] at hn
  obtain ⟨n, rfl⟩ : ∃ m, n = m + 2 := ⟨n - 2, by omega⟩
  have hbody : Yields ((ofDepth n).parseExpr true) (ts ++ rest) e rest := h.yields (by omega) hrest
  have hclosure : Yields ((ofDepth (n + 1)).closure true)
      (.punct '|' opening :: .word w :: .punct '|' closing :: (ts ++ rest)) (.lambda w e) rest :=
    yields_closure (yields_parsePat (g := ofDepth n) hw ⟨rfl, rfl⟩) (h.noArrow rest) hbody
  have hatom : Yields ((ofDepth (n + 1)).atom true)
      (.punct '|' opening :: .word w :: .punct '|' closing :: (ts ++ rest)) (.lambda w e) rest := by
    unfold Grammar.atom
    refine (yields_rest _).bind (.ite_false rfl (.ite_false rfl ?_))
    exact .ite_false rfl (.ite_pos rfl hclosure)
  have hfront : NoPrefix
      (.punct '|' opening :: .word w :: .punct '|' closing :: (ts ++ rest)) := by
    simp only [NoPrefix, List.forall_mem_cons]
    exact ⟨rfl, rfl, rfl, rfl, rfl, List.forall_mem_nil _⟩
  exact yields_parseExpr hfront hatom rfl hrest

/-- Printed, a closure with one parameter is read back. -/
theorem PrintsTerm.closure (h : PrintsTerm e) (hw : IsName w) : PrintsExpr (.lambda w e) :=
  ReadsTerm.closure h hw false false

theorem IsTerm.closure (h : IsTerm ts) (hw : IsName w) (opening closing : Bool) :
    IsExpr (.punct '|' opening :: .word w :: .punct '|' closing :: ts) := by
  obtain ⟨e, h, hprinted⟩ := h.reads
  exact ⟨.lambda w e, h.closure hw opening closing, hprinted.closure hw⟩

/-! ### Arms -/

/-- A pattern that no bar stands beside is the only alternative. -/
theorem yields_alternatives {tokens : List Token} {pat : Pat} (hpat : Yields g.pat tokens pat rest)
    (hbefore : startsAlternative tokens = false) (hafter : startsAlternative rest = false) :
    Yields g.alternatives tokens pat rest := by
  unfold alternatives
  refine (yields_peek _ _).bind (.ite_false hbefore ((yields_pure _ _).bind (hpat.bind ?_)))
  refine (yields_peek _ _).bind (.ite_false ?_ (yields_pure _ _))
  rw [hafter]
  rfl

/-- **A name in `Some` is a pattern.** -/
theorem yields_somePattern (hw : IsName w) (n : Nat) (rest : List Token) :
    Yields (ofDepth (n + 1)).parsePat (.word "Some" :: .group .paren [.word w] :: rest)
      (.tupleRecord (.plain (.word "Some")) [.var w] false) rest := by
  have hname : Yields (ofDepth (n + 1)).pat [.word w] (.var w) [] :=
    yields_parsePat (g := ofDepth n) hw ⟨rfl, rfl⟩
  have hnames : Yields (commaList (ofDepth (n + 1)).alternatives) [.word w] ([.var w], false) [] :=
    (yields_rest _).bind ((yields_alternatives hname rfl rfl).listUntil_last rfl rfl)
  unfold parsePat
  refine (yields_rest _).bind (.ite_pos rfl ?_)
  unfold pathPattern
  refine Yields.via (.plain (.word "Some")) (.group .paren [.word w] :: rest) (fun _ => rfl) ?_
  refine (yields_peek _ _).bind ((yields_rest _).bind (.ite_false rfl (.ite_pos rfl ?_)))
  exact (Yields.inGroup hnames).bind (yields_pure _ _)

/-- `Some(value)` as the pattern of an arm. -/
theorem yields_someArm (n : Nat) (joint : Bool) (rest : List Token) :
    Yields (ofDepth (n + 2)).alternatives
      (.word "Some" :: .group .paren [.word "value"] :: .punct '=' true :: .punct '>' joint :: rest)
      (.tupleRecord (.plain (.word "Some")) [.binding false false "value" none] false)
      (.punct '=' true :: .punct '>' joint :: rest) :=
  yields_alternatives (g := ofDepth (n + 2))
    (yields_somePattern ⟨by decide, by decide⟩ n _) rfl rfl

/-- `None` as the pattern of an arm. -/
theorem yields_noneArm (n : Nat) (joint : Bool) (rest : List Token) :
    Yields (ofDepth (n + 1)).alternatives
      (.word "None" :: .punct '=' true :: .punct '>' joint :: rest)
      (.binding false false "None" none) (.punct '=' true :: .punct '>' joint :: rest) :=
  fun _ => rfl

/-- The words that start an expression which ends early. -/
def earlyWords : List String := ["if", "while", "for", "loop", "match", "try", "unsafe", "const"]

/-- **An operand that starts no block-like form is read in an arm or a statement.** -/
theorem yields_parseEarly (hword : w ∉ earlyWords)
    (he : Yields ((ofDepth n).parseOperand true) (.word w :: ts) e rest) (hplain : e.IsPlain)
    (hrest : Follow true .expr rest) :
    Yields (ofDepth (n + 1)).parseEarly (.word w :: ts) e rest := by
  have hne (k : String) (hk : k ∈ earlyWords) : startsWord k (.word w :: ts) = false :=
    startsWord_eq_false fun h => hword (h ▸ hk)
  have hloop : startsWordOf ["while", "for", "loop"] (.word w :: ts) = false := by
    have hmem : ∀ k ∈ ["while", "for", "loop"], k ∈ earlyWords := by decide
    exact startsWordOf_eq_false fun h => hword (hmem w h)
  have hfirst : Yields (ofDepth (n + 1)).earlyOperand (.word w :: ts) e rest := by
    unfold earlyOperand
    refine (yields_rest _).bind (.ite_false (hne "if" (by decide)) (.ite_false ?_ ?_))
    · rw [hloop, Bool.false_and]
    refine .ite_false (hne "match" (by decide)) (.ite_false ?_ ?_)
    · rw [startsTryBlock, hne "try" (by decide), Bool.false_and]
    refine .ite_false (hne "unsafe" (by decide)) (.ite_false ?_ ?_)
    · rw [hne "const" (by decide), Bool.false_and]
    exact .ite_false rfl (.ite_false rfl he)
  have hblock : (!e.isBlockLike) = true := by rw [hplain.noBlock]; rfl
  unfold parseEarly
  refine (yields_attributes _ rfl).bind (hfirst.bind (.ite_pos hblock ?_))
  exact Repeats.done.iterate (operatorStep_none (g := ofDepth n) hrest hplain.noRange)

/-- An operand that starts with a word of a path, in an arm or a statement. -/
theorem ReadsOperand.early (h : ReadsOperand (.word w :: ts) e) (hw : IsSegment w)
    (hn : 2 * Token.sizeList (.word w :: ts) ≤ n) (hrest : Follow true .expr rest) :
    Yields (ofDepth (n + 1)).parseEarly (.word w :: ts ++ rest) e rest :=
  yields_parseEarly (hw.notMem (by decide)) (h.yields hn hrest.operand) h.isPlain hrest

/-- **An arm is read up to the end of its comma or the end of the arms.** -/
theorem yields_arm {p : String} {tokens : List Token} {pat : Pat} {arrow : Bool}
    (hbody : ReadsOperand (.word w :: ts) e) (hw : IsSegment w)
    (hn : 2 * Token.sizeList (.word w :: ts) ≤ n)
    (hpat : Yields (ofDepth (n + 2)).alternatives (.word p :: tokens) pat
      (.punct '=' true :: .punct '>' arrow :: .word w :: (ts ++ rest)))
    (hrest : rest = [] ∨ ∃ joint next, rest = .punct ',' joint :: next) :
    Yields (ofDepth (n + 2)).arm (.word p :: tokens) (.mk [] pat none e (!rest.isEmpty))
      (rest.drop 1) := by
  have hfollow : Follow true .expr rest := by
    rcases hrest with rfl | ⟨joint, next, rfl⟩
    · exact .nil
    · exact .comma
  have hearly := hbody.early hw hn hfollow
  unfold Grammar.arm
  refine (yields_attributes _ rfl).bind (hpat.bind ?_)
  refine (yields_word?_false rfl).bind (.ite_false rfl ((yields_pure _ _).bind ?_))
  refine Yields.via () (.word w :: (ts ++ rest)) (fun _ => rfl) ?_
  refine Yields.bind (p := (ofDepth (n + 2)).early) hearly ((yields_peek _ rest).bind ?_)
  rw [hbody.isPlain.noBlock]
  rcases hrest with rfl | ⟨joint, next, rfl⟩
  · exact .ite_false rfl ((yields_operator?_false rfl).bind (yields_pure _ _))
  · exact .ite_pos rfl (Yields.via () next (fun _ => rfl) (yields_pure _ _))

/-- One more arm of a match. -/
def armStep (g : Grammar) (arms : List Arm) : Parser (Option (List Arm)) := do
  if ← atEnd then return none else return some (arms ++ [← g.arm])

theorem yields_armStep {token : Token} {arm : Arm} (h : Yields g.arm (token :: ts) arm rest)
    (arms : List Arm) : Yields (armStep g arms) (token :: ts) (some (arms ++ [arm])) rest :=
  (yields_peek _ _).bind (.ite_false rfl (h.bind (yields_pure _ rest)))

/-! ### Matches -/

/-- Two arms: what is present is converted, null stays. -/
def nullArms (value : List Token) (firstArrow comma lastArrow : Bool) : List Token :=
  .word "Some" :: .group .paren [.word "value"] :: .punct '=' true :: .punct '>' firstArrow ::
    .word "Some" :: .group .paren value :: .punct ',' comma ::
    .word "None" :: .punct '=' true :: .punct '>' lastArrow :: [.word "None"]

theorem isName_some : IsName "Some" := ⟨by decide, by decide⟩

theorem isName_none : IsName "None" := ⟨by decide, by decide⟩

/-- The trees of these arms, given the tree of the converted value. -/
def nullCases (value : Expr) : List Arm :=
  [.mk [] (.tupleRecord (.plain (.word "Some")) [.var "value"] false) none
      (.call (.words ["Some"]) [value] false) true,
    .mk [] (.var "None") none (.words ["None"]) false]

theorem tokensOf_nullCases (e : Expr) :
    Arm.tokensOf (nullCases e) = nullArms e.tokens false false false := by
  simp [nullCases, nullArms, Arm.tokensOf, Arm.tokens, Pat.tokens, Pat.tokensOf, Pat.var,
    Expr.tokens, Expr.tokensOf, Expr.words, attributeTokens, QualifiedPath.tokens, Path.tokens,
    Path.words, Path.word, Segment.tokensOf, Segment.tokens, separated, wordToken, wordIf,
    operatorIf, Token.operator, Token.operator.go]

theorem yields_nullArms (hvalue : ReadsExpr value e) (firstArrow comma lastArrow : Bool)
    (hn : 2 * (Token.sizeList value + 2) ≤ n) :
    Yields (iterate (armStep (ofDepth (n + 2))) []) (nullArms value firstArrow comma lastArrow)
      (nullCases e) [] := by
  have hsome : ReadsOperand [.word "Some", .group .paren value]
      (.call (.words ["Some"]) [e] false) :=
    .chain ((IsPath.word (Or.inl isName_some)).readsCall (.last hvalue))
  have hsomeSize : 2 * Token.sizeList [.word "Some", .group .paren value] ≤ n := by
    simp only [Token.sizeList_word, Token.sizeList_group, Token.sizeList_nil]
    omega
  have hnone : ReadsOperand [.word "None"] (.words ["None"]) :=
    .chain (IsPath.word (Or.inl isName_none)).readsChain
  have hnoneSize : 2 * Token.sizeList [.word "None"] ≤ n := by
    simp only [Token.sizeList_word, Token.sizeList_nil]
    omega
  have hfirst := yields_arm hsome (Or.inl isName_some) hsomeSize
    (yields_someArm n firstArrow
      (.word "Some" :: .group .paren value :: .punct ',' comma ::
        .word "None" :: .punct '=' true :: .punct '>' lastArrow :: [.word "None"]))
    (Or.inr ⟨_, _, rfl⟩)
  have hlast := yields_arm hnone (Or.inl isName_none) hnoneSize
    (yields_noneArm (n + 1) lastArrow [.word "None"]) (Or.inl rfl)
  have harms : Repeats (armStep (ofDepth (n + 2)))
      (nullArms value firstArrow comma lastArrow) [] [] (nullCases e) :=
    .next (yields_armStep hfirst []) (by simp [nullArms])
      (.next (yields_armStep hlast _) (by simp) .done)
  exact harms.iterate fun _ => rfl

theorem sizeList_nullArms (firstArrow comma lastArrow : Bool) :
    Token.sizeList (nullArms value firstArrow comma lastArrow) = Token.sizeList value + 12 := by
  simp only [nullArms, Token.sizeList_word, Token.sizeList_group, Token.sizeList_punct,
    Token.sizeList_nil]
  omega

/-- **A match is read once the value that it is on and its arms are.** -/
theorem yields_atom_match {tokens body : List Token} {scrutinee : Expr} {arms : List Arm}
    (hscrutinee : Yields (g.expr false) tokens scrutinee (.group .brace body :: rest))
    (harms : Yields (iterate (armStep g) []) body arms []) :
    Yields (g.atom allowRecord) (.word "match" :: tokens) (.matchOn scrutinee arms) rest := by
  have hmatch : Yields g.matchExpr (.word "match" :: tokens) (.matchOn scrutinee arms) rest := by
    refine Yields.via () tokens (fun _ => rfl) (hscrutinee.bind ?_)
    exact (Yields.inGroup harms).bind (yields_pure _ rest)
  unfold Grammar.atom
  refine (yields_rest _).bind (.ite_false rfl (.ite_false rfl (.ite_false rfl ?_)))
  refine .ite_false rfl (.ite_false rfl (.ite_false rfl (.ite_false rfl ?_)))
  refine (yields_word?_false rfl).bind (.ite_false rfl ?_)
  refine (yields_word?_false rfl).bind (.ite_false rfl ?_)
  refine .ite_false rfl (.ite_false rfl (.ite_false rfl ?_))
  exact .ite_false rfl (.ite_pos rfl hmatch)

/-- **A match on a term that converts what is present is an expression.** -/
theorem ReadsTerm.nullMatch (h : ReadsTerm ts e) {inner : Expr} (hvalue : ReadsExpr value inner)
    (firstArrow comma lastArrow : Bool) :
    ReadsExpr (.word "match" :: ts ++
      [.group .brace (nullArms value firstArrow comma lastArrow)])
      (.matchOn e (nullCases inner)) := by
  intro n hn rest hrest
  simp only [List.cons_append, Token.sizeList_word, Token.sizeList_append, Token.sizeList_group,
    Token.sizeList_nil, sizeList_nullArms] at hn
  obtain ⟨n, rfl⟩ : ∃ m, n = m + 3 := ⟨n - 3, by omega⟩
  have harms := yields_nullArms hvalue firstArrow comma lastArrow (n := n) (by omega)
  rw [List.cons_append, List.cons_append, List.append_assoc, List.singleton_append]
  generalize nullArms value firstArrow comma lastArrow = body at harms ⊢
  have hscrutinee : Yields ((ofDepth (n + 1)).parseExpr false) (ts ++ .group .brace body :: rest) e
      (.group .brace body :: rest) := h.yields (by omega) (.block rfl)
  have hatom : Yields ((ofDepth (n + 2)).atom true)
      (.word "match" :: (ts ++ .group .brace body :: rest)) (.matchOn e (nullCases inner)) rest :=
    yields_atom_match hscrutinee harms
  exact yields_parseExpr (noPrefix_word _ _) hatom rfl hrest

/-- Printed, the match is read back. -/
theorem PrintsTerm.nullMatch (h : PrintsTerm e) {inner : Expr} (hvalue : PrintsExpr inner) :
    PrintsExpr (.matchOn e (nullCases inner)) := by
  rw [PrintsExpr, Expr.tokens, tokensOf_nullCases]
  exact ReadsTerm.nullMatch h hvalue false false false

theorem IsTerm.nullMatch (h : IsTerm ts) (hvalue : IsExpr value)
    (firstArrow comma lastArrow : Bool) :
    IsExpr (.word "match" :: ts ++
      [.group .brace (nullArms value firstArrow comma lastArrow)]) := by
  obtain ⟨e, h, hprinted⟩ := h.reads
  obtain ⟨inner, hvalue, hvaluePrinted⟩ := hvalue
  exact ⟨.matchOn e (nullCases inner), h.nullMatch hvalue firstArrow comma lastArrow,
    hprinted.nullMatch hvaluePrinted⟩

end Grammar

end EntityTable.Source
