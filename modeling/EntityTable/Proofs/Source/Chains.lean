import EntityTable.Proofs.Source.Operands

/-! # Atoms and postfix forms on given tokens

A path, a literal and an expression in parentheses are atoms. A chain grows at its end: by arguments
after a path, by a field, a method call, an index into a tuple or a question mark. -/

namespace EntityTable.Source

open EntityTable.Source.Parser

section
variable {w : String} (rest : List Token)

/-- A word of a path starts no form that a keyword marks. -/
theorem IsSegment.noWord (h : IsSegment w) {k : String} (hk : k ∈ keywords)
    (hpath : k ∉ pathKeywords) : startsWord k (.word w :: rest) = false :=
  startsWord_eq_false (h.ne hk hpath)

theorem IsSegment.noClosure (h : IsSegment w) : startsClosure (.word w :: rest) = false := by
  simp only [startsClosure, h.noWord rest (k := "move") (by decide) (by decide),
    h.noWord rest (k := "for") (by decide) (by decide),
    h.noWord rest (k := "const") (by decide) (by decide),
    h.noWord rest (k := "static") (by decide) (by decide),
    h.noWord rest (k := "async") (by decide) (by decide), Bool.false_and, Bool.or_false]
  rfl

theorem IsSegment.noAsync (h : IsSegment w) : startsAsyncBlock (.word w :: rest) = false := by
  rw [startsAsyncBlock, h.noWord rest (by decide) (by decide), Bool.false_and]

theorem IsSegment.noTry (h : IsSegment w) : startsTryBlock (.word w :: rest) = false := by
  rw [startsTryBlock, h.noWord rest (by decide) (by decide), Bool.false_and]

theorem IsSegment.startsPath (h : IsSegment w) : startsPath (.word w :: rest) = true := by
  unfold Source.startsPath
  rcases h with h | h
  · rw [h.startsIdent]
    rfl
  · have hkeyword : ∀ k ∈ pathKeywords, k ∈ ["self", "Self", "super", "crate"] := by decide
    have hspecial : startsWordOf ["self", "Self", "super", "crate"] (.word w :: rest) = true :=
      List.contains_iff_mem.mpr (hkeyword w h)
    rw [hspecial, Bool.or_true, Bool.true_or]

end

theorem IsName.memberTokens {w : String} (h : IsName w) : memberTokens w = [.word w] := by
  rw [Source.memberTokens, h.noDigit]
  rfl

/-- A dot after a chain starts a postfix form. -/
theorem Expr.IsPlain.startsDot {base : Expr} (h : base.IsPlain) {joint : Bool} {token : Token}
    {rest : List Token} (htoken : ∀ c j, token ≠ .punct c j) :
    (startsDot (.punct '.' joint :: token :: rest) && !base.isRange) = true := by
  rw [h.noRange]
  cases token with
  | punct c j => exact absurd rfl (htoken c j)
  | _ => cases joint <;> rfl

namespace Grammar

variable {g : Grammar} {ws : List String} {ts ps args rest : List Token} {e : Expr}
  {es : List Expr} {trailing : Bool} {n : Nat} {allowRecord : Bool} {w : String}

/-! ### Atoms -/

/-- What follows a path in an expression and does not belong to it. -/
structure FollowsPath (allowRecord : Bool) (rest : List Token) : Prop where
  noMore : startsOperator "::" rest = false
  noMacro : startsMacroBody rest = false
  noRecord : (allowRecord && startsGroup .brace rest) = false

theorem Follow.followsPath {s : Stage} (h : Follow allowRecord s rest) :
    FollowsPath allowRecord rest := ⟨h.noPath, h.noMacro, h.noRecord⟩

/-- What is read as a path is that path as an expression. -/
theorem yields_pathExpr {tokens : List Token} {path : Path}
    (hfront : startsOperator "<" tokens = false)
    (hpath : Yields (g.plainPath true) tokens path rest) (hrest : FollowsPath allowRecord rest) :
    Yields (g.pathExpr allowRecord) tokens (.path (.plain path)) rest := by
  unfold Grammar.pathExpr
  refine (g.yields_qualifiedPath hfront hpath).bind ((yields_peek _ rest).bind ?_)
  rw [hrest.noMacro]
  split
  · rename_i heq
    cases heq
  · exact (yields_peek _ rest).bind (.ite_false hrest.noRecord (yields_pure _ rest))

/-- A path with fields in a brace is a record, where one may stand. -/
theorem yields_pathExpr_record {tokens body : List Token} {path : Path}
    (hfront : startsOperator "<" tokens = false)
    (hpath : Yields (g.plainPath true) tokens path (.group .brace body :: rest))
    (hfields : Yields (g.fieldInits (.plain path)) body e []) :
    Yields (g.pathExpr true) tokens e rest := by
  unfold Grammar.pathExpr
  refine (g.yields_qualifiedPath hfront hpath).bind ((yields_peek _ _).bind ?_)
  rw [show startsMacroBody (.group .brace body :: rest) = false from rfl]
  split
  · rename_i heq
    cases heq
  · exact (yields_peek _ _).bind (.ite_pos rfl (Yields.inGroup hfields))

/-- What starts with a word of a path is an atom. -/
theorem yields_atom_path (hw : IsSegment w)
    (h : Yields (g.pathExpr allowRecord) (.word w :: ts) e rest) :
    Yields (g.atom allowRecord) (.word w :: ts) e rest := by
  have htruth : startsWordOf ["true", "false"] (.word w :: ts) = false :=
    startsWordOf_eq_false (hw.notMem (by decide))
  unfold Grammar.atom
  refine (yields_rest _).bind (.ite_false htruth ?_)
  refine .ite_false (hw.noAsync _) (.ite_false (hw.noTry _) ?_)
  exact .ite_false (hw.noClosure _) (.ite_pos (hw.startsPath _) h)

/-- **A path is an atom.** -/
theorem IsPath.atom (h : IsPath ws ps) (hrest : FollowsPath allowRecord rest) :
    Yields (g.atom allowRecord) (ps ++ rest) (.path (.plain (.words ws))) rest := by
  have hend : EndsPath true rest := ⟨hrest.noMore, nofun⟩
  have hpath := h.plainPath g hend
  obtain ⟨w, ws, ts, rfl, hw, rfl⟩ := h.exists_cons
  exact yields_atom_path hw (yields_pathExpr rfl hpath hrest)

/-- **A path from the root is an atom.** -/
theorem IsPath.globalAtom (h : IsPath ws ps) (hrest : FollowsPath allowRecord rest) :
    Yields (g.atom allowRecord) (.punct ':' true :: .punct ':' false :: ps ++ rest)
      (.globalWords ws) rest := by
  have hend : EndsPath true rest := ⟨hrest.noMore, nofun⟩
  have hpath : Yields (g.plainPath true) (.punct ':' true :: .punct ':' false :: (ps ++ rest))
      (.mk true (ws.map .plain)) rest := by
    obtain ⟨w, tail, rfl, hsegment, hmore⟩ := h.segment g hend
    unfold Grammar.plainPath
    refine Yields.via true (.word w :: tail ++ rest) (fun _ => rfl) (hsegment.bind ?_)
    exact ((hmore []).iterate (g.yields_segmentStep_none hend _)).bind (yields_pure _ _)
  unfold Grammar.atom
  refine (yields_rest _).bind (.ite_false rfl (.ite_false rfl (.ite_false rfl ?_)))
  exact .ite_false rfl (.ite_pos rfl (yields_pathExpr rfl hpath hrest))

/-- **An expression in parentheses is an atom.** -/
theorem ReadsExpr.atom_paren (h : ReadsExpr ts e) (hn : 2 * Token.sizeList ts + 1 ≤ n)
    (allowRecord : Bool) (rest : List Token) :
    Yields ((ofDepth (n + 1)).atom allowRecord) (.group .paren ts :: rest) (.paren e) rest := by
  have he := h n hn [] .nil
  rw [List.append_nil] at he
  have hparen : Yields (ofDepth (n + 1)).parenExpr (.group .paren ts :: rest) (.paren e) rest := by
    have hempty : ts.isEmpty = false := List.isEmpty_eq_false_iff.mpr h.ne_nil
    refine Yields.inGroup ((yields_peek _ _).bind (.ite_false hempty ?_))
    exact Yields.bind (p := (ofDepth (n + 1)).expr true) he
      ((yields_peek _ []).bind (.ite_pos rfl (yields_pure _ [])))
  unfold Grammar.atom
  refine (yields_rest _).bind (.ite_false rfl (.ite_false rfl (.ite_false rfl ?_)))
  exact .ite_false rfl (.ite_false rfl (.ite_pos rfl hparen))

/-! ### Chains -/

theorem IsPath.startsChain (h : IsPath ws ps) {tail : List Token}
    (htail : startsAnyWord tail = false) : StartsChain (ps ++ tail) := by
  cases h with
  | word h => exact .word (h.ne (by decide) (by decide)) htail
  | cons h => exact .word (h.ne (by decide) (by decide)) rfl

theorem IsPath.readsChain (h : IsPath ws ps) : ReadsChain ps (.words ws) where
  starts := by
    have hstarts : StartsChain (ps ++ []) := h.startsChain rfl
    rwa [List.append_nil] at hstarts
  plain := ⟨rfl, rfl⟩
  read _ _ _ _ hrest := ⟨_, _, h.atom hrest.followsPath, .done⟩

theorem readsChain_literal (text : String) : ReadsChain [.literal text] (.lit text) where
  starts := .literal rfl
  plain := ⟨rfl, rfl⟩
  read _ _ _ _ _ := ⟨_, _, fun _ => rfl, .done⟩

theorem ReadsExpr.paren (h : ReadsExpr ts e) : ReadsChain [.group .paren ts] (.paren e) where
  starts := .paren rfl
  plain := ⟨rfl, rfl⟩
  read n hn allowRecord rest _ := by
    rw [Token.sizeList_group] at hn
    obtain ⟨n, rfl⟩ : ∃ m, n = m + 1 := ⟨n - 1, by omega⟩
    exact ⟨.paren e, rest, h.atom_paren (by omega) allowRecord rest, .done⟩

/-- An atom that arguments may follow makes a chain with them. -/
theorem readsCall {atom : Expr} (hstarts : StartsChain (ts ++ [.group .paren args]))
    (hatom : ∀ n allowRecord rest, FollowsPath allowRecord rest →
      Yields ((ofDepth n).atom allowRecord) (ts ++ rest) atom rest)
    (hargs : ReadsArgs args es trailing) :
    ReadsChain (ts ++ [.group .paren args]) (.call atom es trailing) where
  starts := hstarts
  plain := ⟨rfl, rfl⟩
  read n hn allowRecord rest _ := by
    rw [Token.sizeList_append, Token.sizeList_group] at hn
    obtain ⟨n, rfl⟩ : ∃ m, n = m + 1 := ⟨n - 1, by omega⟩
    have hvalues := hargs.commaList (n := n) (by omega)
    have hfollows : FollowsPath allowRecord (.group .paren args :: rest) :=
      ⟨rfl, rfl, Bool.and_false _⟩
    have hstep : Yields ((ofDepth (n + 1)).postfixStep atom) (.group .paren args :: rest)
        (some (.call atom es trailing)) rest := by
      unfold postfixStep
      refine (yields_rest _).bind (.ite_pos rfl ?_)
      exact (Yields.inGroup hvalues).bind (yields_pure _ rest)
    rw [List.append_assoc, List.singleton_append]
    exact ⟨atom, _, hatom _ _ _ hfollows, .next hstep (by simp) .done⟩

/-- **A path with arguments is a chain.** -/
theorem IsPath.readsCall (h : IsPath ws ps) (hargs : ReadsArgs args es trailing) :
    ReadsChain (ps ++ [.group .paren args]) (.call (.words ws) es trailing) :=
  Grammar.readsCall (h.startsChain rfl) (fun _ _ _ hrest => h.atom hrest) hargs

/-- **A path from the root with arguments is a chain.** -/
theorem IsPath.readsGlobalCall (h : IsPath ws ps) (hargs : ReadsArgs args es trailing) :
    ReadsChain (.punct ':' true :: .punct ':' false :: ps ++ [.group .paren args])
      (.call (.globalWords ws) es trailing) :=
  Grammar.readsCall .colons (fun _ _ _ hrest => h.globalAtom hrest) hargs

/-! ### Postfix forms -/

/-- **A postfix form after a chain makes a longer chain.** -/
theorem ReadsChain.extend (h : ReadsChain ts e) {form : List Token} {longer : Expr}
    (hplain : longer.IsPlain) (hword : startsAnyWord form = false) (hpos : 0 < form.length)
    (hfollow : ∀ allowRecord rest, Follow allowRecord .chain (form ++ rest))
    (hstep : ∀ n, 2 * Token.sizeList form ≤ n → ∀ allowRecord rest,
      Follow allowRecord .chain rest →
      Yields ((ofDepth n).postfixStep e) (form ++ rest) (some longer) rest) :
    ReadsChain (ts ++ form) longer where
  starts := by
    have happend {tail : List Token} (htail : startsAnyWord tail = false) :
        startsAnyWord (tail ++ form) = false := by
      match tail, htail with
      | [], _ => exact hword
      | .punct .. :: _, _ | .lifetime .. :: _, _ | .literal .. :: _, _ | .group .. :: _, _ => rfl
    cases h.starts with
    | word hw htail => exact .word hw (happend htail)
    | literal htail => exact .literal (happend htail)
    | paren htail => exact .paren (happend htail)
    | colons => exact .colons
  plain := hplain
  read n hn allowRecord rest hrest := by
    rw [Token.sizeList_append] at hn
    rw [List.append_assoc]
    obtain ⟨atom, middle, hatom, hmore⟩ :=
      h.read n (by omega) allowRecord _ (hfollow allowRecord rest)
    refine ⟨atom, middle, hatom, hmore.snoc (hstep n (by omega) allowRecord rest hrest) ?_⟩
    rw [List.length_append]
    omega

theorem ReadsChain.question (h : ReadsChain ts e) (joint : Bool) :
    ReadsChain (ts ++ [.punct '?' joint]) (.question e) := by
  refine h.extend ⟨rfl, rfl⟩ rfl (by simp) (fun _ _ => .question) fun n _ allowRecord rest _ => ?_
  have hmark : (startsOperator "?" (.punct '?' joint :: rest) && !e.isRange) = true := by
    rw [h.plain.noRange]
    rfl
  unfold postfixStep
  refine (yields_rest _).bind (.ite_false rfl (.ite_false rfl (.ite_false rfl ?_)))
  exact .ite_pos hmark (Yields.via () rest (fun _ => rfl) (yields_pure _ _))

/-- What a name after a dot is the start of: a field, or a call, with type arguments or without. -/
def afterMember (g : Grammar) (base : Expr) (w : String) : Parser Expr := do
  let method ←
    if ← peek (startsOperator "::") then do
      operator "::"
      g.angleArgs w true
    else pure (.plain w)
  if !method.isPlain || (← peek (startsGroup .paren)) then
    let (args, trailing) ← inGroup .paren (commaList (g.expr true))
    return .methodCall base method args trailing
  else return .field base w

theorem yields_member_name (hw : IsName w) (ts : List Token) :
    Yields member (.word w :: ts) w ts :=
  (yields_rest _).bind (.ite_pos (hw.startsIdent ts) (yields_ident hw.noKeyword ts))

theorem yields_member {base e : Expr} {joint : Bool} (hw : IsName w) (hbase : base.IsPlain)
    (h : Yields (afterMember g base w) ts e rest) :
    Yields (g.postfixStep base) (.punct '.' joint :: .word w :: ts) (some e) rest := by
  have hafter : Yields (g.afterDot base) (.word w :: ts) e rest := by
    unfold afterDot
    refine (yields_word?_false (startsWord_eq_false (hw.ne _ (by decide)))).bind
      (.ite_false rfl ((yields_member_name hw ts).bind ?_))
    simp only [hw.noDigit]
    exact h
  unfold postfixStep
  refine (yields_rest _).bind (.ite_false rfl (.ite_pos (hbase.startsDot nofun) ?_))
  refine Yields.via () (.word w :: ts) (fun _ => rfl) ?_
  exact (yields_rest _).bind (hafter.bind (yields_pure _ rest))

/-- **A future's result is a chain.** -/
theorem ReadsChain.await (h : ReadsChain ts e) (joint : Bool) :
    ReadsChain (ts ++ [.punct '.' joint, .word "await"]) (.await e) := by
  refine h.extend ⟨rfl, rfl⟩ rfl (by simp) (fun _ _ => .field) fun n _ allowRecord rest _ => ?_
  unfold postfixStep
  refine (yields_rest _).bind (.ite_false rfl (.ite_pos (h.plain.startsDot nofun) ?_))
  exact Yields.via () (.word "await" :: rest) (fun _ => rfl) fun _ => rfl

theorem ReadsChain.field (h : ReadsChain ts e) (hw : IsName w) (joint : Bool) :
    ReadsChain (ts ++ [.punct '.' joint, .word w]) (.field e w) := by
  refine h.extend ⟨rfl, rfl⟩ rfl (by simp) (fun _ _ => .field) fun n _ allowRecord rest hrest => ?_
  refine yields_member hw h.plain ?_
  unfold afterMember
  refine (yields_peek _ rest).bind (.ite_false hrest.noPath ((yields_pure _ rest).bind ?_))
  exact (yields_peek _ rest).bind (.ite_false hrest.noArgs (yields_pure _ rest))

theorem ReadsChain.method (h : ReadsChain ts e) (hw : IsName w) (joint : Bool)
    (hargs : ReadsArgs args es trailing) :
    ReadsChain (ts ++ [.punct '.' joint, .word w, .group .paren args])
      (.methodCall e (.plain w) es trailing) := by
  refine h.extend ⟨rfl, rfl⟩ rfl (by simp) (fun _ _ => .field) fun n hn allowRecord rest hrest => ?_
  rw [Token.sizeList_punct, Token.sizeList_word, Token.sizeList_group] at hn
  obtain ⟨n, rfl⟩ : ∃ m, n = m + 1 := ⟨n - 1, by omega⟩
  have hvalues := hargs.commaList (n := n) (by omega)
  refine yields_member hw h.plain ?_
  unfold afterMember
  refine (yields_peek _ _).bind (.ite_false rfl ((yields_pure _ _).bind ?_))
  refine (yields_peek _ _).bind (.ite_pos rfl ?_)
  exact (Yields.inGroup hvalues).bind (yields_pure _ rest)

/-- **A call with a type argument and one that is to be inferred.** -/
theorem ReadsChain.methodOfTypes (h : ReadsChain ts e) (hw : IsName w) {ty : List Token} {arg : Ty}
    (hty : ReadsTypeArg ty arg) (hargs : ReadsArgs args es trailing)
    (dot colon opening comma closing : Bool) :
    ReadsChain (ts ++ (.punct '.' dot :: .word w :: .punct ':' true :: .punct ':' colon ::
      .punct '<' opening ::
      (ty ++ [.punct ',' comma, .word "_", .punct '>' closing, .group .paren args])))
      (.methodCall e (.angle w true [.type arg, .type .infer] false) es trailing) := by
  refine h.extend ⟨rfl, rfl⟩ rfl (by simp) (fun _ _ => .field) fun n hn allowRecord rest hrest => ?_
  simp only [Token.sizeList_punct, Token.sizeList_word, Token.sizeList_append,
    Token.sizeList_group] at hn
  obtain ⟨n, rfl⟩ : ∃ m, n = m + 2 := ⟨n - 2, by omega⟩
  have hvalues := hargs.commaList (n := n + 1) (by omega)
  have harg := hty.angleArgs (ofDepth n) w opening comma closing (.group .paren args :: rest)
  simp only [List.cons_append, List.append_assoc, List.nil_append]
  refine yields_member hw h.plain ?_
  unfold afterMember
  refine (yields_peek _ _).bind (.ite_pos rfl ?_)
  refine Yields.via () (.punct '<' opening :: _) (fun _ => rfl) (Yields.bind harg ?_)
  refine (yields_peek _ _).bind (.ite_pos rfl ?_)
  exact (Yields.inGroup hvalues).bind (yields_pure _ rest)

/-! ### Fields of tuples -/

/-- The digits by which the fields of a small tuple are named. -/
def digitChars : List Char := ['0', '1', '2', '3', '4', '5', '6', '7', '8', '9']

theorem yields_member_digit {d : Char} (hd : d ∈ digitChars) (rest : List Token) :
    Literal.kind (String.singleton d) = .int ∧
      Yields member (.literal (String.singleton d) :: rest) (String.singleton d) rest := by
  simp only [digitChars, List.mem_cons, List.not_mem_nil, or_false] at hd
  rcases hd with rfl | rfl | rfl | rfl | rfl | rfl | rfl | rfl | rfl | rfl <;>
    exact ⟨rfl, fun _ => rfl⟩

theorem ReadsChain.index (h : ReadsChain ts e) {d : Char} (hd : d ∈ digitChars) (joint : Bool) :
    ReadsChain (ts ++ [.punct '.' joint, .literal (String.singleton d)])
      (.field e (String.singleton d)) := by
  refine h.extend ⟨rfl, rfl⟩ rfl (by simp) (fun _ _ => .index) fun n hn allowRecord rest hrest => ?_
  obtain ⟨hkind, hmember⟩ := yields_member_digit hd rest
  have hnoFloat : (Literal.kind (String.singleton d) == .float) = false := by
    rw [hkind]
    decide
  have hafter : Yields ((ofDepth n).afterDot e) (.literal (String.singleton d) :: rest)
      (.field e (String.singleton d)) rest := by
    unfold afterDot
    refine (yields_word?_false rfl).bind (.ite_false rfl (hmember.bind ?_))
    refine (yields_peek _ rest).bind (.ite_false ?_ ((yields_pure _ rest).bind ?_))
    · rw [hrest.noPath, Bool.and_false]
    · refine (yields_peek _ rest).bind (.ite_false ?_ (yields_pure _ rest))
      rw [hrest.noArgs, Bool.and_false]
      rfl
  unfold postfixStep
  refine (yields_rest _).bind (.ite_false rfl (.ite_pos (h.plain.startsDot nofun) ?_))
  refine Yields.via () (.literal (String.singleton d) :: rest) (fun _ => rfl) ?_
  exact (yields_rest _).bind (.ite_false hnoFloat (hafter.bind (yields_pure _ rest)))

/-! ### Chains that are printed again -/

theorem IsPath.printsChain (h : IsPath ws ps) : PrintsChain (.words ws) := h.printed.readsChain

theorem PrintsExpr.paren (h : PrintsExpr e) : PrintsChain (.paren e) := ReadsExpr.paren h

theorem IsPath.printsCall (h : IsPath ws ps) (hargs : PrintsArgs es trailing) :
    PrintsChain (.call (.words ws) es trailing) := h.printed.readsCall hargs

/-- A literal is printed as it is, unless it is spelled as a truth value. -/
theorem printsChain_literal {text : String} (h : text ∉ ["true", "false"]) :
    PrintsChain (.lit text) := by
  rw [PrintsChain, Expr.tokens, if_neg (by simpa using h)]
  exact readsChain_literal text

namespace PrintsChain
variable (h : PrintsChain e)
include h

theorem question : PrintsChain (.question e) := ReadsChain.question h false

theorem await : PrintsChain (.await e) := by
  rw [PrintsChain, Expr.tokens, List.append_assoc]
  exact ReadsChain.await h false

theorem field (hw : IsName w) : PrintsChain (.field e w) := by
  rw [PrintsChain, Expr.tokens, hw.memberTokens, List.append_assoc]
  exact ReadsChain.field h hw false

theorem method (hw : IsName w) (hargs : PrintsArgs es trailing) :
    PrintsChain (.methodCall e (.plain w) es trailing) := by
  rw [PrintsChain, Expr.tokens, Segment.tokens, List.append_assoc, List.append_assoc]
  exact ReadsChain.method h hw false hargs

theorem methodOfTypes (hw : IsName w) {arg : Ty} (hty : ReadsTypeArg arg.tokens arg)
    (hargs : PrintsArgs es trailing) :
    PrintsChain (.methodCall e (.angle w true [.type arg, .type .infer] false) es trailing) := by
  have hall := ReadsChain.methodOfTypes h hw hty hargs false false false false false
  rw [PrintsChain]
  simp only [Expr.tokens, Segment.tokens, angleTokens, GenericArg.tokensOf]
  simpa [GenericArg.tokens, Ty.tokens, wordToken, operatorIf, Token.operator,
    Token.operator.go] using hall

theorem index {d : Char} (hd : d ∈ digitChars) : PrintsChain (.field e (String.singleton d)) := by
  have hmember : memberTokens (String.singleton d) = [.literal (String.singleton d)] := by
    simp only [digitChars, List.mem_cons, List.not_mem_nil, or_false] at hd
    rcases hd with rfl | rfl | rfl | rfl | rfl | rfl | rfl | rfl | rfl | rfl <;> rfl
  rw [PrintsChain, Expr.tokens, hmember, List.append_assoc]
  exact ReadsChain.index h hd false

end PrintsChain

/-! ### Tokens of chains -/

theorem IsPath.chain (h : IsPath ws ps) : IsChain ps := ⟨.words ws, h.readsChain, h.printsChain⟩

theorem isChain_literal {text : String} (h : text ∉ ["true", "false"]) :
    IsChain [.literal text] := ⟨.lit text, readsChain_literal text, printsChain_literal h⟩

theorem IsExpr.paren (h : IsExpr ts) : IsChain [.group .paren ts] := by
  obtain ⟨e, h, hprinted⟩ := h
  exact ⟨.paren e, h.paren, hprinted.paren⟩

theorem IsPath.call (h : IsPath ws ps) (hargs : IsArgs args) :
    IsChain (ps ++ [.group .paren args]) := by
  obtain ⟨es, trailing, hargs, hprinted⟩ := hargs.reads
  exact ⟨_, h.readsCall hargs, h.printsCall hprinted⟩

theorem IsChain.question (h : IsChain ts) (joint : Bool) : IsChain (ts ++ [.punct '?' joint]) := by
  obtain ⟨e, h, hprinted⟩ := h
  exact ⟨.question e, h.question joint, hprinted.question⟩

theorem IsChain.field (h : IsChain ts) (hw : IsName w) (joint : Bool) :
    IsChain (ts ++ [.punct '.' joint, .word w]) := by
  obtain ⟨e, h, hprinted⟩ := h
  exact ⟨.field e w, h.field hw joint, hprinted.field hw⟩

theorem IsChain.method (h : IsChain ts) (hw : IsName w) (joint : Bool) (hargs : IsArgs args) :
    IsChain (ts ++ [.punct '.' joint, .word w, .group .paren args]) := by
  obtain ⟨e, h, hprinted⟩ := h
  obtain ⟨es, trailing, hargs, hargsPrinted⟩ := hargs.reads
  exact ⟨_, h.method hw joint hargs, hprinted.method hw hargsPrinted⟩

theorem IsChain.methodOfTypes (h : IsChain ts) (hw : IsName w) {ty : List Token}
    (hty : IsTypeArg ty) (hargs : IsArgs args) (dot colon opening comma closing : Bool) :
    IsChain (ts ++ (.punct '.' dot :: .word w :: .punct ':' true :: .punct ':' colon ::
      .punct '<' opening ::
      (ty ++ [.punct ',' comma, .word "_", .punct '>' closing, .group .paren args]))) := by
  obtain ⟨e, h, hprinted⟩ := h
  obtain ⟨arg, hty⟩ := hty
  obtain ⟨es, trailing, hargs, hargsPrinted⟩ := hargs.reads
  exact ⟨_, h.methodOfTypes hw hty hargs dot colon opening comma closing,
    hprinted.methodOfTypes hw hty.printed hargsPrinted⟩

theorem IsChain.index (h : IsChain ts) {d : Char} (hd : d ∈ digitChars) (joint : Bool) :
    IsChain (ts ++ [.punct '.' joint, .literal (String.singleton d)]) := by
  obtain ⟨e, h, hprinted⟩ := h
  exact ⟨.field e (String.singleton d), h.index hd joint, hprinted.index hd⟩

/-- A form after an operand belongs to the chain at its end. -/
theorem IsOperand.extend (h : IsOperand ts) {form : List Token}
    (hform : ∀ ts, IsChain ts → IsChain (ts ++ form)) : IsOperand (ts ++ form) := by
  induction h with
  | chain h => exact .chain (hform _ h)
  | reference joint _ ih => exact .reference joint ih
  | deref joint _ ih => exact .deref joint ih

end Grammar

end EntityTable.Source
