import EntityTable.Proofs.Source.Paths

/-! # Operands and arguments on given tokens

An atom with its postfix forms makes a chain; prefix operators before it make an operand, and casts
after that a term. Each is read up to tokens that cannot belong to it, whatever these are: `Follow`
lists them for every stage. The depth of the grammar that is needed is bounded by the number of
tokens, those in groups included. -/

namespace EntityTable.Source

open EntityTable.Source.Parser

/-! ### Sizes -/

namespace Token

@[simp] theorem sizeList_nil : sizeList [] = 0 := rfl

@[simp] theorem sizeList_word (w : String) (ts : List Token) :
    sizeList (.word w :: ts) = 1 + sizeList ts := rfl

@[simp] theorem sizeList_punct (c : Char) (joint : Bool) (ts : List Token) :
    sizeList (.punct c joint :: ts) = 1 + sizeList ts := rfl

@[simp] theorem sizeList_group (d : Delimiter) (body ts : List Token) :
    sizeList (.group d body :: ts) = sizeList body + 1 + sizeList ts := rfl

@[simp] theorem sizeList_append : ∀ a b : List Token, sizeList (a ++ b) = sizeList a + sizeList b
  | [], b => by rw [List.nil_append, sizeList, Nat.zero_add]
  | t :: a, b => by rw [List.cons_append, sizeList, sizeList, sizeList_append a b, Nat.add_assoc]

theorem sizeList_pos : ∀ {ts : List Token}, ts ≠ [] → 0 < sizeList ts
  | .group .. :: _, _ => by rw [sizeList_group]; omega
  | .word .. :: _, _ | .punct .. :: _, _ | .lifetime .. :: _, _ | .literal .. :: _, _ =>
    Nat.lt_of_lt_of_le Nat.one_pos (Nat.le_add_right 1 _)

end Token

/-- An element is no longer than the list. -/
theorem sizeList_le_separated (operator : String) (trailing : Bool) {x : List Token} :
    ∀ {xs : List (List Token)}, x ∈ xs →
      Token.sizeList x ≤ Token.sizeList (separated operator trailing xs)
  | [y], h => by
    rw [List.mem_singleton.mp h, separated, Token.sizeList_append]
    exact Nat.le_add_right _ _
  | y :: z :: ys, h => by
    rw [separated_cons_cons, Token.sizeList_append, Token.sizeList_append]
    rcases List.mem_cons.mp h with rfl | h
    · exact Nat.le_add_right _ _
    · have hle := sizeList_le_separated operator trailing h
      omega

/-- The expression is no range and does not end a statement, so more may follow it. -/
structure Expr.IsPlain (e : Expr) : Prop where
  noRange : e.isRange = false
  noBlock : e.isBlockLike = false

namespace Grammar

/-! ### What may follow -/

/-- How much of an expression has been read. -/
inductive Stage where
  /-- An atom with some postfix forms. -/
  | chain
  /-- An operand. -/
  | operand
  /-- A whole expression. -/
  | expr

/-- The tokens that may come after a stage; a brace ends it only where no record may stand. -/
inductive Follow (allowRecord : Bool) : Stage → List Token → Prop
  | nil {s : Stage} : Follow allowRecord s []
  | comma {s : Stage} {joint : Bool} {rest : List Token} :
      Follow allowRecord s (.punct ',' joint :: rest)
  | semicolon {s : Stage} {joint : Bool} {rest : List Token} :
      Follow allowRecord s (.punct ';' joint :: rest)
  | otherwise {s : Stage} {rest : List Token} : Follow allowRecord s (.word "else" :: rest)
  | block {s : Stage} {body rest : List Token} (h : allowRecord = false) :
      Follow allowRecord s (.group .brace body :: rest)
  | castOperand {rest : List Token} : Follow allowRecord .operand (.word "as" :: rest)
  | castChain {rest : List Token} : Follow allowRecord .chain (.word "as" :: rest)
  | question {joint : Bool} {rest : List Token} :
      Follow allowRecord .chain (.punct '?' joint :: rest)
  | field {joint : Bool} {w : String} {rest : List Token} :
      Follow allowRecord .chain (.punct '.' joint :: .word w :: rest)
  | index {joint : Bool} {n : String} {rest : List Token} :
      Follow allowRecord .chain (.punct '.' joint :: .literal n :: rest)

namespace Follow
variable {allowRecord : Bool} {s : Stage} {rest : List Token}

theorem chain (h : Follow allowRecord .operand rest) : Follow allowRecord .chain rest := by
  cases h with
  | nil => exact .nil
  | comma => exact .comma
  | semicolon => exact .semicolon
  | otherwise => exact .otherwise
  | block h => exact .block h
  | castOperand => exact .castChain

theorem operand (h : Follow allowRecord .expr rest) : Follow allowRecord .operand rest := by
  cases h with
  | nil => exact .nil
  | comma => exact .comma
  | semicolon => exact .semicolon
  | otherwise => exact .otherwise
  | block h => exact .block h

section Chain
variable (h : Follow allowRecord s rest)
include h

theorem noPath : startsOperator "::" rest = false := by cases h <;> rfl

theorem noMacro : startsMacroBody rest = false := by cases h <;> rfl

theorem noArgs : startsGroup .paren rest = false := by cases h <;> rfl

theorem noIndex : startsGroup .bracket rest = false := by cases h <;> rfl

theorem noRecord : (allowRecord && startsGroup .brace rest) = false := by
  cases h with
  | block h => rw [h, Bool.false_and]
  | _ => exact Bool.and_false allowRecord

end Chain

section Operand
variable (h : Follow allowRecord .operand rest)
include h

theorem noDot : startsDot rest = false := by cases h <;> rfl

theorem noQuestion : startsOperator "?" rest = false := by cases h <;> rfl

theorem noBinary : binaryOperator? rest = none := by cases h <;> rfl

theorem noAssign : startsAssign rest = false := by cases h <;> rfl

theorem noRange : startsOperator ".." rest = false := by cases h <;> rfl

theorem noSum : startsOperator "+" rest = false := by cases h <;> rfl

theorem noSuffix : castSuffix? rest = none := by cases h <;> rfl

theorem endsType : EndsPath false rest where
  noMore := h.noPath
  noArgs _ := by cases h <;> rfl

end Operand

theorem noCast (h : Follow allowRecord .expr rest) : startsWord "as" rest = false := by
  cases h <;> rfl

end Follow

/-! ### Forms -/

variable {ts rest : List Token} {e : Expr} {n : Nat} {allowRecord : Bool}

/-- What a chain starts with; no word comes next, so the first token marks no other form. -/
inductive StartsChain : List Token → Prop
  | word {w : String} {tail : List Token} (hw : w ≠ "mut") (h : startsAnyWord tail = false) :
      StartsChain (.word w :: tail)
  | literal {text : String} {tail : List Token} (h : startsAnyWord tail = false) :
      StartsChain (.literal text :: tail)
  | paren {body tail : List Token} (h : startsAnyWord tail = false) :
      StartsChain (.group .paren body :: tail)
  | colons {joint : Bool} {tail : List Token} : StartsChain (.punct ':' true :: .punct ':' joint :: tail)

/-- The tokens are read as this atom with postfix forms. -/
structure ReadsChain (ts : List Token) (e : Expr) : Prop where
  starts : StartsChain ts
  plain : e.IsPlain
  read : ∀ n, 2 * Token.sizeList ts ≤ n → ∀ allowRecord rest, Follow allowRecord .chain rest →
    ∃ atom middle, Yields ((ofDepth n).atom allowRecord) (ts ++ rest) atom middle ∧
      Repeats (ofDepth n).postfixStep middle atom rest e

/-- The tokens are read as this operand: a chain behind prefix operators. -/
inductive ReadsOperand : List Token → Expr → Prop
  | chain {ts : List Token} {e : Expr} (h : ReadsChain ts e) : ReadsOperand ts e
  | reference {ts : List Token} {e : Expr} (joint isMut : Bool) (h : ReadsOperand ts e) :
      ReadsOperand (.punct '&' joint :: (wordIf isMut "mut" ++ ts)) (.reference isMut e)
  | deref {ts : List Token} {e : Expr} (joint : Bool) (h : ReadsOperand ts e) :
      ReadsOperand (.punct '*' joint :: ts) (.unary .deref e)

/-- The tokens are read as this operand with casts. -/
inductive ReadsTerm : List Token → Expr → Prop
  | operand {ts : List Token} {e : Expr} (h : ReadsOperand ts e) : ReadsTerm ts e
  | cast {ts ps : List Token} {e : Expr} {ws : List String} (h : ReadsTerm ts e)
      (hpath : IsPath ws ps) : ReadsTerm (ts ++ .word "as" :: ps) (.cast e (.words ws))

/-- The tokens are read as this expression, which may be a record. -/
def ReadsExpr (ts : List Token) (e : Expr) : Prop :=
  ∀ n, 2 * Token.sizeList ts + 1 ≤ n → ∀ rest, Follow true .expr rest →
    Yields ((ofDepth n).parseExpr true) (ts ++ rest) e rest

/-- The tokens are read as these arguments between parentheses, separated by commas. -/
inductive ReadsArgs : List Token → List Expr → Bool → Prop
  | nil : ReadsArgs [] [] false
  | last {ts : List Token} {e : Expr} (h : ReadsExpr ts e) : ReadsArgs ts [e] false
  | cons {ts more : List Token} {e : Expr} {es : List Expr} {trailing : Bool} (joint : Bool)
      (h : ReadsExpr ts e) (hmore : ReadsArgs more es trailing) :
      ReadsArgs (ts ++ .punct ',' joint :: more) (e :: es) (trailing || es.isEmpty)

/-! ### Operands -/

theorem yields_attributes (g : Grammar) {tokens : List Token}
    (h : startsOperator "#" tokens = false) : Yields g.attributes tokens [] tokens :=
  Repeats.done.iterate ((yields_operator?_false h).bind (yields_pure none tokens))

theorem postfixStep_none {g : Grammar} (h : Follow allowRecord .operand rest) (e : Expr) :
    Yields (g.postfixStep e) rest none rest := by
  unfold postfixStep
  refine (yields_rest rest).bind (.ite_false h.noArgs (.ite_false ?_ (.ite_false h.noIndex ?_)))
  · rw [h.noDot, Bool.false_and]
  · refine .ite_false ?_ (yields_pure _ _)
    rw [h.noQuestion, Bool.false_and]

/-- No prefix of an operand stands here. -/
def NoPrefix (tokens : List Token) : Prop :=
  ∀ op ∈ ["#", "&", "*", "!", "-"], startsOperator op tokens = false

theorem noPrefix_word (w : String) (ts : List Token) : NoPrefix (.word w :: ts) := by
  simp only [NoPrefix, List.forall_mem_cons]
  exact ⟨rfl, rfl, rfl, rfl, rfl, nofun⟩

theorem StartsChain.noOperator (h : StartsChain ts) {op : String}
    (hop : op ∈ ["#", "&", "*", "!", "-", "->"]) (rest : List Token) :
    startsOperator op (ts ++ rest) = false := by
  simp only [List.mem_cons, List.not_mem_nil, or_false] at hop
  rcases hop with rfl | rfl | rfl | rfl | rfl | rfl <;> cases h <;> rfl

theorem StartsChain.noPrefix (h : StartsChain ts) (rest : List Token) : NoPrefix (ts ++ rest) := by
  have hmem : ∀ op ∈ ["#", "&", "*", "!", "-"], op ∈ ["#", "&", "*", "!", "-", "->"] := by decide
  exact fun op hop => h.noOperator (hmem op hop) rest

/-- An operand without prefix is an atom and what follows it. -/
theorem yields_parseOperand {g : Grammar} {tokens middle : List Token} {atom e : Expr}
    (hfront : NoPrefix tokens) (hatom : Yields (g.atom allowRecord) tokens atom middle)
    (hmembers : Repeats g.postfixStep middle atom rest e)
    (hrest : Follow allowRecord .operand rest) :
    Yields (g.parseOperand allowRecord) tokens e rest := by
  have hno (op : String) (hop : op ∈ ["#", "&", "*", "!", "-"]) :
      Yields (operator? op) tokens false tokens := yields_operator?_false (hfront op hop)
  unfold parseOperand
  refine (yields_attributes _ (hfront "#" (by decide))).bind ?_
  refine (hno "&" (by decide)).bind (.ite_false rfl ?_)
  refine (hno "*" (by decide)).bind (.ite_false rfl ?_)
  refine (hno "!" (by decide)).bind (.ite_false rfl ?_)
  refine (hno "-" (by decide)).bind (.ite_false rfl ?_)
  refine hatom.bind ((hmembers.iterate (postfixStep_none hrest e)).bind ?_)
  exact .ite_false rfl (yields_pure _ _)

theorem ReadsChain.yields (h : ReadsChain ts e) (hn : 2 * Token.sizeList ts ≤ n)
    (hrest : Follow allowRecord .operand rest) :
    Yields ((ofDepth n).parseOperand allowRecord) (ts ++ rest) e rest := by
  obtain ⟨atom, middle, hatom, hmembers⟩ := h.read n hn allowRecord rest hrest.chain
  exact yields_parseOperand (h.starts.noPrefix rest) hatom hmembers hrest

/-- An operand does not start with what a reference may have after its `&`. -/
theorem ReadsOperand.noMark (h : ReadsOperand ts e) (hrest : Follow allowRecord .operand rest) :
    startsWord "mut" (ts ++ rest) = false ∧ (startsWord "raw" (ts ++ rest) &&
      startsWordOf ["mut", "const"] ((ts ++ rest).drop 1)) = false := by
  have htail {tail : List Token} (h : startsAnyWord tail = false) :
      startsWordOf ["mut", "const"] (tail ++ rest) = false := by
    match tail, h with
    | [], _ => cases hrest <;> rfl
    | .punct .. :: _, _ | .lifetime .. :: _, _ | .literal .. :: _, _ | .group .. :: _, _ => rfl
  cases h with
  | chain h =>
    cases h.starts with
    | word hw hword =>
      refine ⟨startsWord_eq_false hw, ?_⟩
      rw [List.cons_append, List.drop_one, List.tail_cons, htail hword, Bool.and_false]
    | literal => exact ⟨rfl, rfl⟩
    | paren => exact ⟨rfl, rfl⟩
    | colons => exact ⟨rfl, rfl⟩
  | reference => exact ⟨rfl, rfl⟩
  | deref => exact ⟨rfl, rfl⟩

theorem ReadsOperand.isPlain (h : ReadsOperand ts e) : e.IsPlain := by
  cases h with
  | chain h => exact h.plain
  | reference => exact ⟨rfl, rfl⟩
  | deref => exact ⟨rfl, rfl⟩

/-- **An operand is read up to what cannot belong to it.** -/
theorem ReadsOperand.yields (h : ReadsOperand ts e) : ∀ {n : Nat}, 2 * Token.sizeList ts ≤ n →
    ∀ {allowRecord : Bool} {rest : List Token}, Follow allowRecord .operand rest →
    Yields ((ofDepth n).parseOperand allowRecord) (ts ++ rest) e rest := by
  induction h with
  | chain h => exact fun hn _ _ hrest => h.yields hn hrest
  | @reference ts e joint isMut h ih =>
    intro n hn allowRecord rest hrest
    rw [Token.sizeList_punct, Token.sizeList_append] at hn
    obtain ⟨n, rfl⟩ : ∃ m, n = m + 1 := ⟨n - 1, by omega⟩
    have he := ih (n := n) (by omega) hrest
    obtain ⟨hmut, hraw⟩ := h.noMark hrest
    unfold parseOperand
    refine (yields_attributes _ rfl).bind ?_
    refine Yields.via true (wordIf isMut "mut" ++ ts ++ rest) (fun _ => rfl) (.ite_pos rfl ?_)
    cases isMut with
    | true =>
      refine (yields_rest _).bind (.ite_false rfl ?_)
      exact Yields.via true (ts ++ rest) (fun _ => rfl) (he.bind (yields_pure _ _))
    | false =>
      refine (yields_rest _).bind (.ite_false hraw ((yields_word?_false hmut).bind ?_))
      exact he.bind (yields_pure _ _)
  | @deref ts e joint h ih =>
    intro n hn allowRecord rest hrest
    rw [Token.sizeList_punct] at hn
    obtain ⟨n, rfl⟩ : ∃ m, n = m + 1 := ⟨n - 1, by omega⟩
    have he := ih (n := n) (by omega) hrest
    unfold parseOperand
    refine (yields_attributes _ rfl).bind ?_
    refine (yields_operator?_false rfl).bind (.ite_false rfl ?_)
    refine Yields.via true (ts ++ rest) (fun _ => rfl) (.ite_pos rfl ?_)
    exact he.bind (yields_pure _ _)

/-! ### Casts -/

theorem ReadsTerm.isPlain (h : ReadsTerm ts e) : e.IsPlain := by
  cases h with
  | operand h => exact h.isPlain
  | cast => exact ⟨rfl, rfl⟩

/-- A term is an operand that casts follow one after the other. -/
theorem ReadsTerm.read (h : ReadsTerm ts e) : ∀ {n : Nat}, 2 * Token.sizeList ts ≤ n →
    ∀ {allowRecord : Bool} {rest : List Token}, Follow allowRecord .operand rest →
    ∃ first middle, Yields ((ofDepth n).parseOperand allowRecord) (ts ++ rest) first middle ∧
      Repeats ((ofDepth n).operatorStep allowRecord .jump) middle first rest e := by
  induction h with
  | operand h =>
    intro n hn allowRecord rest hrest
    exact ⟨_, rest, h.yields hn hrest, .done⟩
  | @cast ts ps e ws h hpath ih =>
    intro n hn allowRecord rest hrest
    rw [Token.sizeList_append, Token.sizeList_word] at hn
    obtain ⟨n, rfl⟩ : ∃ m, n = m + 1 := ⟨n - 1, by omega⟩
    have has : Follow allowRecord .operand (.word "as" :: (ps ++ rest)) := .castOperand
    obtain ⟨first, middle, hfirst, hcasts⟩ := ih (n := n + 1) (by omega) has
    have hty : Yields ((ofDepth (n + 1)).ty false) (ps ++ rest) (.words ws) rest :=
      hpath.parseTy (ofDepth n) hrest.endsType hrest.noMacro hrest.noSum
    rw [List.append_assoc, List.cons_append]
    refine ⟨first, middle, hfirst, hcasts.snoc ?_ ?_⟩
    · unfold operatorStep
      refine (yields_rest _).bind (.ite_false h.isPlain.noRange ?_)
      rw [has.noBinary]
      refine .ite_false rfl (.ite_false rfl (.ite_pos rfl ?_))
      refine Yields.via () (ps ++ rest) (fun _ => rfl) ?_
      refine hty.bind ((yields_rest rest).bind ?_)
      rw [hrest.noSuffix]
      exact yields_pure _ rest
    · rw [List.length_cons, List.length_append]
      omega

/-! ### Expressions -/

theorem operatorStep_none {g : Grammar} {e : Expr} (hrest : Follow allowRecord .expr rest)
    (hrange : e.isRange = false) : Yields (g.operatorStep allowRecord .jump e) rest none rest := by
  unfold operatorStep
  refine (yields_rest rest).bind (.ite_false hrange ?_)
  rw [hrest.operand.noBinary, hrest.operand.noAssign, hrest.operand.noRange, hrest.noCast]
  exact .ite_false (Bool.and_false _) (.ite_false (Bool.and_false _)
    (.ite_false rfl (yields_pure _ _)))

/-- **A term is read as an expression**, also where no record may stand. -/
theorem ReadsTerm.yields (h : ReadsTerm ts e) (hn : 2 * Token.sizeList ts + 1 ≤ n)
    (hrest : Follow allowRecord .expr rest) :
    Yields ((ofDepth n).parseExpr allowRecord) (ts ++ rest) e rest := by
  obtain ⟨n, rfl⟩ : ∃ m, n = m + 1 := ⟨n - 1, by omega⟩
  obtain ⟨first, middle, hfirst, hcasts⟩ := h.read (n := n) (by omega) hrest.operand
  exact Yields.bind (p := (ofDepth (n + 1)).operand allowRecord) hfirst
    (hcasts.iterate (operatorStep_none hrest h.isPlain.noRange))

theorem ReadsTerm.expr (h : ReadsTerm ts e) : ReadsExpr ts e := fun _ hn _ hrest => h.yields hn hrest

/-- An atom that ends where an expression may end is an expression. -/
theorem yields_parseExpr {tokens : List Token} {e : Expr} (hfront : NoPrefix tokens)
    (hatom : Yields ((ofDepth n).atom allowRecord) tokens e rest) (hrange : e.isRange = false)
    (hrest : Follow allowRecord .expr rest) :
    Yields ((ofDepth (n + 1)).parseExpr allowRecord) tokens e rest :=
  Yields.bind (p := (ofDepth (n + 1)).operand allowRecord)
    (yields_parseOperand hfront hatom .done hrest.operand)
    (Repeats.done.iterate (operatorStep_none (g := ofDepth n) hrest hrange))

/-- There is nothing to read in no tokens. -/
theorem ReadsExpr.ne_nil (h : ReadsExpr ts e) : ts ≠ [] := by
  rintro rfl
  have he := h 1 (by decide) [] .nil
  have herror : ((ofDepth 1).parseExpr true).run ⟨[], none⟩ =
      .error (.expected true ["an expression"]) := rfl
  cases herror.symm.trans (he none)

/-! ### Arguments -/

section Arguments
variable {es : List Expr} {trailing : Bool}

/-- **Arguments are read to their end.** -/
theorem ReadsArgs.yields (h : ReadsArgs ts es trailing) (hn : 2 * Token.sizeList ts + 1 ≤ n) :
    ∀ {fuel : Nat}, ts.length < fuel → Yields
      (listUntil.go List.isEmpty "," ((ofDepth n).parseExpr true) fuel) ts (es, trailing) [] := by
  induction h with
  | nil =>
    intro fuel hfuel
    obtain ⟨fuel, rfl⟩ : ∃ m, fuel = m + 1 := ⟨fuel - 1, by omega⟩
    exact yields_listUntil_stop rfl
  | @last ts e h =>
    intro fuel hfuel
    obtain ⟨fuel, rfl⟩ : ∃ m, fuel = m + 1 := ⟨fuel - 1, by omega⟩
    have he := h n hn [] .nil
    rw [List.append_nil] at he
    exact he.listUntil_last (List.isEmpty_eq_false_iff.mpr h.ne_nil) rfl
  | @cons ts more e es trailing joint h hmore ih =>
    intro fuel hfuel
    obtain ⟨fuel, rfl⟩ : ∃ m, fuel = m + 1 := ⟨fuel - 1, by omega⟩
    rw [Token.sizeList_append, Token.sizeList_punct] at hn
    rw [List.length_append, List.length_cons] at hfuel
    have he := h n (by omega) (.punct ',' joint :: more) .comma
    have hargs := ih (by omega) (show more.length < fuel by omega)
    have hne : (ts ++ .punct ',' joint :: more).isEmpty = false :=
      List.isEmpty_eq_false_iff.mpr (List.append_ne_nil_of_right_ne_nil ts (List.cons_ne_nil _ _))
    exact he.listUntil_cons hne rfl (fun _ => rfl) hargs

theorem ReadsArgs.commaList (h : ReadsArgs ts es trailing) (hn : 2 * Token.sizeList ts + 1 ≤ n) :
    Yields (Parser.commaList ((ofDepth n).parseExpr true)) ts (es, trailing) [] :=
  (yields_rest ts).bind (h.yields hn (Nat.lt_succ_self _))

end Arguments

/-! ### Forms that are printed again -/

/-- Printed, the expression is read back as an atom with postfix forms. -/
def PrintsChain (e : Expr) : Prop := ReadsChain e.tokens e

/-- Printed, the expression is read back as an operand. -/
def PrintsOperand (e : Expr) : Prop := ReadsOperand e.tokens e

/-- Printed, the expression is read back as an operand with casts. -/
def PrintsTerm (e : Expr) : Prop := ReadsTerm e.tokens e

/-- Printed, the expression is read back. -/
def PrintsExpr (e : Expr) : Prop := ReadsExpr e.tokens e

/-- Printed, the arguments are read back. -/
def PrintsArgs (es : List Expr) (trailing : Bool) : Prop :=
  ReadsArgs (separated "," trailing (Expr.tokensOf es)) es trailing

theorem PrintsChain.operand (h : PrintsChain e) : PrintsOperand e := .chain h

theorem PrintsOperand.term (h : PrintsOperand e) : PrintsTerm e := .operand h

theorem PrintsTerm.expr (h : PrintsTerm e) : PrintsExpr e := ReadsTerm.expr h

theorem PrintsOperand.reference (h : PrintsOperand e) (isMut : Bool) :
    PrintsOperand (.reference isMut e) := by
  rw [PrintsOperand, Expr.tokens, List.append_assoc]
  exact .reference false isMut h

theorem PrintsOperand.deref (h : PrintsOperand e) : PrintsOperand (.unary .deref e) :=
  ReadsOperand.deref false h

theorem PrintsTerm.cast {ws : List String} {ps : List Token} (h : PrintsTerm e)
    (hpath : IsPath ws ps) : PrintsTerm (.cast e (.words ws)) := by
  rw [PrintsTerm, Expr.tokens, wordToken, List.append_assoc, List.singleton_append]
  exact .cast h hpath.printed

theorem printsArgs_nil : PrintsArgs [] false := .nil

theorem PrintsExpr.args (h : PrintsExpr e) : PrintsArgs [e] false := by
  rw [PrintsArgs, Expr.tokensOf, Expr.tokensOf, separated, operatorIf, if_neg Bool.false_ne_true,
    List.append_nil]
  exact .last h

theorem PrintsExpr.cons {es : List Expr} {trailing : Bool} (h : PrintsExpr e)
    (hmore : PrintsArgs es trailing) : PrintsArgs (e :: es) (trailing || es.isEmpty) := by
  have htokens : separated "," (trailing || es.isEmpty) (Expr.tokensOf (e :: es)) =
      e.tokens ++ .punct ',' false :: separated "," trailing (Expr.tokensOf es) := by
    cases es with
    | nil =>
      rw [List.isEmpty_nil, Bool.or_true]
      rfl
    | cons e' es =>
      rw [List.isEmpty_cons, Bool.or_false, Expr.tokensOf, Expr.tokensOf, separated_cons_cons]
      rfl
  rw [PrintsArgs, htokens]
  exact .cons false h hmore

/-- The tokens form an atom with postfix forms, and printed again they still do. -/
def IsChain (ts : List Token) : Prop := ∃ e, ReadsChain ts e ∧ PrintsChain e

/-- The tokens form an operand: a chain behind prefix operators. -/
inductive IsOperand : List Token → Prop
  | chain {ts : List Token} (h : IsChain ts) : IsOperand ts
  | reference {ts : List Token} (joint : Bool) (h : IsOperand ts) :
      IsOperand (.punct '&' joint :: ts)
  | deref {ts : List Token} (joint : Bool) (h : IsOperand ts) : IsOperand (.punct '*' joint :: ts)

/-- The tokens form an operand with casts. -/
inductive IsTerm : List Token → Prop
  | operand {ts : List Token} (h : IsOperand ts) : IsTerm ts
  | cast {ts ps : List Token} {ws : List String} (h : IsTerm ts) (hpath : IsPath ws ps) :
      IsTerm (ts ++ .word "as" :: ps)

/-- The tokens form an expression, and printed again they still do. -/
def IsExpr (ts : List Token) : Prop := ∃ e, ReadsExpr ts e ∧ PrintsExpr e

/-- The tokens form arguments between parentheses, separated by commas. -/
inductive IsArgs : List Token → Prop
  | nil : IsArgs []
  | last {ts : List Token} (h : IsExpr ts) : IsArgs ts
  | cons {ts more : List Token} (joint : Bool) (h : IsExpr ts) (hmore : IsArgs more) :
      IsArgs (ts ++ .punct ',' joint :: more)

theorem IsOperand.reads (h : IsOperand ts) : ∃ e, ReadsOperand ts e ∧ PrintsOperand e := by
  induction h with
  | chain h =>
    obtain ⟨e, h, hprinted⟩ := h
    exact ⟨e, .chain h, hprinted.operand⟩
  | reference joint _ ih =>
    obtain ⟨e, h, hprinted⟩ := ih
    exact ⟨.reference false e, .reference joint false h, hprinted.reference false⟩
  | deref joint _ ih =>
    obtain ⟨e, h, hprinted⟩ := ih
    exact ⟨.unary .deref e, .deref joint h, hprinted.deref⟩

theorem IsTerm.reads (h : IsTerm ts) : ∃ e, ReadsTerm ts e ∧ PrintsTerm e := by
  induction h with
  | operand h =>
    obtain ⟨e, h, hprinted⟩ := h.reads
    exact ⟨e, .operand h, hprinted.term⟩
  | @cast ts ps ws _ hpath ih =>
    obtain ⟨e, h, hprinted⟩ := ih
    exact ⟨.cast e (.words ws), .cast h hpath, hprinted.cast hpath⟩

theorem IsTerm.expr (h : IsTerm ts) : IsExpr ts := by
  obtain ⟨e, h, hprinted⟩ := h.reads
  exact ⟨e, h.expr, hprinted.expr⟩

theorem IsArgs.reads (h : IsArgs ts) : ∃ es trailing, ReadsArgs ts es trailing ∧
    PrintsArgs es trailing := by
  induction h with
  | nil => exact ⟨[], false, .nil, printsArgs_nil⟩
  | last h =>
    obtain ⟨e, h, hprinted⟩ := h
    exact ⟨[e], false, .last h, hprinted.args⟩
  | cons joint h _ ih =>
    obtain ⟨e, h, hprinted⟩ := h
    obtain ⟨es, trailing, hmore, hmorePrinted⟩ := ih
    exact ⟨e :: es, trailing || es.isEmpty, .cons joint h hmore, hprinted.cons hmorePrinted⟩

end Grammar

end EntityTable.Source
