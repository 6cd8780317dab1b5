import EntityTable.Proofs.Source.Statements
import EntityTable.Proofs.Source.Types
import EntityTable.Proofs.Source.UseTrees

/-! # Items on given tokens

An item that is printed is read back: a `use` declaration, a struct with a field, and an
implementation that holds constants and functions. A function whose parameter is a reference to an
open sum is not read at all, whatever its body is. -/

namespace EntityTable.Source

open EntityTable.Source.Parser

namespace Grammar

variable {g : Grammar} {ts rest : List Token} {e : Expr} {n : Nat} {w : String}

/-! ### Attributes and visibility -/

/-- Printed, the attribute is read back. -/
def PrintsAttribute (a : Attribute) : Prop :=
  ∃ body, a.tokens = [.punct '#' false, .group .bracket body] ∧
    ∀ g : Grammar, Yields (g.attributeContent false) body a []

theorem printsAttribute_doc (spelled : String) : PrintsAttribute (.doc spelled) :=
  ⟨[.word "doc", .punct '=' false, .literal spelled], rfl, fun _ _ => rfl⟩

theorem printsAttribute_listing (hw : IsName w) (words : List String) :
    PrintsAttribute (.listing w words) := by
  refine ⟨[.word w, .group .paren (separated "," false (words.map wordToken))], rfl, fun g => ?_⟩
  have hpath : Yields modulePath
      [.word w, .group .paren (separated "," false (words.map wordToken))] (.words [w]) _ :=
    (IsPath.word (Or.inl hw)).modulePath rfl
  unfold attributeContent
  refine (yields_word?_false (startsWord_eq_false (hw.ne _ (by decide)))).bind ?_
  exact .ite_false rfl (hpath.bind (Yields.bind (fun _ => rfl) (yields_pure _ _)))

/-- One more attribute. -/
def attributeStep (g : Grammar) (attrs : List Attribute) : Parser (Option (List Attribute)) := do
  if ← operator? "#" then return some (attrs ++ [← inGroup .bracket (g.attributeContent false)])
  else return none

/-- **Attributes are read up to what is none.** -/
theorem yields_printedAttributes {attrs : List Attribute} (h : ∀ a ∈ attrs, PrintsAttribute a)
    (hrest : startsOperator "#" rest = false) :
    Yields g.attributes (attributeTokens attrs ++ rest) attrs rest := by
  have hsteps : ∀ before, Repeats (attributeStep g) (attributeTokens attrs ++ rest) before rest
      (before ++ attrs) := by
    induction attrs with
    | nil =>
      intro before
      rw [List.append_nil]
      exact .done
    | cons a attrs ih =>
      intro before
      obtain ⟨body, htokens, hbody⟩ := h a List.mem_cons_self
      have hmore := ih (fun b hb => h b (List.mem_cons_of_mem a hb)) (before ++ [a])
      rw [List.append_assoc, List.singleton_append] at hmore
      have hstep : Yields (attributeStep g before)
          (.punct '#' false :: .group .bracket body :: (attributeTokens attrs ++ rest))
          (some (before ++ [a])) (attributeTokens attrs ++ rest) :=
        Yields.via true (.group .bracket body :: (attributeTokens attrs ++ rest)) (fun _ => rfl)
          (.ite_pos rfl ((Yields.inGroup (hbody g)).bind (yields_pure _ _)))
      rw [attributeTokens, List.flatMap_cons, htokens]
      exact .next hstep (by simp only [attributeTokens, List.length_append, List.length_cons]; omega)
        hmore
  exact (hsteps []).iterate ((yields_operator?_false hrest).bind (yields_pure none rest))

/-- Public or not. -/
def visibilityOf (isPublic : Bool) : Visibility := if isPublic then .everywhere else .inherited

theorem yields_visibility (isPublic : Bool) (hpub : startsWord "pub" rest = false)
    (hparen : startsGroup .paren rest = false) :
    Yields visibility ((visibilityOf isPublic).tokens ++ rest) (visibilityOf isPublic) rest := by
  cases isPublic with
  | false => exact (yields_word?_false hpub).bind (.ite_false rfl (yields_pure _ rest))
  | true =>
    unfold visibility
    refine Yields.via true rest (fun _ => rfl) (.ite_pos rfl ((yields_rest rest).bind ?_))
    match rest, hparen with
    | [], _ | .word .. :: _, _ | .punct .. :: _, _ | .lifetime .. :: _, _ | .literal .. :: _, _
    | .group .bracket _ :: _, _ | .group .brace _ :: _, _ => exact yields_pure _ _

/-! ### Parameters -/

/-- What follows a parameter. -/
def EndsParam (rest : List Token) : Prop := rest = [] ∨ ∃ ts, rest = .punct ',' false :: ts

theorem EndsParam.endsTy (h : EndsParam rest) : EndsTy rest := by
  rcases h with rfl | ⟨ts, rfl⟩
  · exact .nil
  · exact .comma false ts

/-- Printed, the parameter is read back. -/
structure PrintsParam (p : FnParam) : Prop where
  starts : ∃ t ts, p.tokens = t :: ts
  read : ∀ n, 2 * Token.sizeList p.tokens ≤ n → ∀ rest, EndsParam rest →
    Yields (ofDepth n).fnParam (p.tokens ++ rest) p rest

/-- **The receiver by reference is a parameter.** -/
theorem printsParam_self : PrintsParam (.receiver [] (some none) false) := by
  refine ⟨⟨_, _, rfl⟩, fun n _ rest hrest => ?_⟩
  rcases hrest with rfl | ⟨ts, rfl⟩ <;> exact fun _ => rfl

/-- A parameter with a name is read as its type is. -/
theorem run_fnParam_typed (hw : IsName w) (n : Nat) (ts : List Token) (unread : Option Delimiter) :
    (ofDepth (n + 1)).fnParam.run ⟨.word w :: .punct ':' false :: ts, unread⟩ =
      (do return .typed [] (.var w) (← (ofDepth (n + 1)).ty true) : Parser FnParam).run
        ⟨ts, unread⟩ := by
  have hpat : Yields (ofDepth (n + 1)).pat (.word w :: .punct ':' false :: ts) (.var w)
      (.punct ':' false :: ts) := yields_parsePat (g := ofDepth n) hw ⟨rfl, rfl⟩
  have hcolon : Yields (operator ":") (.punct ':' false :: ts) () ts := fun _ => rfl
  have hmut : startsWord "mut" (.word w :: .punct ':' false :: ts) = false :=
    startsWord_eq_false (hw.ne _ (by decide))
  have hself : (startsWord "self" (.word w :: .punct ':' false :: ts) && _) = false :=
    congrArg (· && !startsOperator ":" (.punct ':' false :: ts))
      (startsWord_eq_false (hw.ne "self" (by decide)))
  unfold fnParam
  rw [(yields_attributes _ rfl).run_bind, (yields_rest _).run_bind]
  dsimp only
  rw [hmut, if_neg Bool.false_ne_true]
  refine (congrArg (StateT.run · _) (if_neg (ne_true_of_eq_false hself))).trans ?_
  rw [hpat.run_bind, hcolon.run_bind]

theorem tokens_typed (w : String) (ty : Ty) : (FnParam.typed [] (.var w) ty).tokens =
    .word w :: .punct ':' false :: ty.tokens := by
  rw [FnParam.tokens, Pat.var, Pat.tokens]
  rfl

/-- **A name with its type is a parameter.** -/
theorem printsParam_typed {ty : Ty} (hw : IsName w) (h : ty.IsWritten) :
    PrintsParam (.typed [] (.var w) ty) := by
  refine ⟨⟨_, _, tokens_typed w ty⟩, fun n hn rest hrest => ?_⟩
  rw [tokens_typed] at hn ⊢
  rw [Token.sizeList_word, Token.sizeList_punct] at hn
  obtain ⟨n, rfl⟩ : ∃ m, n = m + 1 := ⟨n - 1, by omega⟩
  have hty := (readsTypes_ofDepth (n + 1)).openTy h (by omega) hrest.endsTy
  exact .of_run (run_fnParam_typed hw n _) (hty.bind (yields_pure _ rest))

/-- **Of a parameter that is a reference to an open sum only the first bound is read.** -/
theorem leaves_sharedParam {ty : Ty} (hw : IsName w) (h : ty.IsWritten) (hopen : ty.isOpenSum = true)
    (hn : 2 * Token.sizeList (FnParam.typed [] (.var w) ty.shared).tokens ≤ n) (rest : List Token) :
    ∃ left, Leaves (ofDepth n).fnParam ((FnParam.typed [] (.var w) ty.shared).tokens ++ rest)
      (.punct '+' false :: left) := by
  have hsize : Token.sizeList ty.tokens + 1 = Token.sizeList ty.shared.tokens := by
    rw [Ty.shared, Ty.tokens, Token.sizeList_append, Token.sizeList_append, Nat.add_comm]
    rfl
  rw [tokens_typed] at hn ⊢
  rw [Token.sizeList_word, Token.sizeList_punct, ← hsize] at hn
  obtain ⟨n, rfl⟩ : ∃ m, n = m + 1 := ⟨n - 1, by omega⟩
  obtain ⟨left, hty⟩ : ∃ left, Leaves ((ofDepth n).parseTy true) (ty.shared.tokens ++ rest)
      (.punct '+' false :: left) :=
    (readsTypes_ofDepth n).leaves_sharedSum h (by omega) hopen rest
  exact ⟨left, .of_run (run_fnParam_typed hw n _)
    (Leaves.bind (p := (ofDepth (n + 1)).ty true) hty fun _ => leaves_pure _ _)⟩

/-! ### Signatures -/

section Signature
variable {params : List FnParam} {output : Ty} {isAsync : Bool}

/-- The signature of a function with a result. -/
def signatureOf (isAsync : Bool) (name : String) (params : List FnParam) (output : Ty) : Signature :=
  ⟨false, isAsync, false, name, params, false, some output⟩

theorem tokens_signatureOf (isAsync : Bool) (name : String) (params : List FnParam) (output : Ty) :
    (signatureOf isAsync name params output).tokens = wordIf isAsync "async" ++ .word "fn" ::
      .word name :: .group .paren (separated "," false (params.map FnParam.tokens)) ::
        (Token.operator "->" ++ output.tokens) := by
  cases isAsync <;> rfl

/-- After the name of a function come its parameters and its result. -/
theorem run_signature (g : Grammar) (hw : IsName w) (isAsync : Bool) (ts : List Token)
    (unread : Option Delimiter) :
    g.signature.run ⟨wordIf isAsync "async" ++ .word "fn" :: .word w :: ts, unread⟩ =
      (do
        let (params, trailing) ← inGroup .paren (commaList g.fnParam)
        return ⟨false, isAsync, false, w, params, trailing, ← g.output?⟩ : Parser Signature).run
        ⟨ts, unread⟩ := by
  have hfn : Yields (word "fn") (.word "fn" :: .word w :: ts) () (.word w :: ts) := fun _ => rfl
  have hasync : Yields (word? "async") (wordIf isAsync "async" ++ .word "fn" :: .word w :: ts)
      isAsync (.word "fn" :: .word w :: ts) := by
    cases isAsync with
    | true => exact fun _ => rfl
    | false => exact yields_word?_false rfl
  have hconst : startsWord "const" (wordIf isAsync "async" ++ .word "fn" :: .word w :: ts) = false := by
    cases isAsync <;> rfl
  unfold signature
  rw [(yields_word?_false hconst).run_bind, hasync.run_bind, (yields_word?_false rfl).run_bind,
    hfn.run_bind, (yields_ident hw.noKeyword ts).run_bind]

/-- Printed before the body of a function, the signature is read back. -/
def PrintsSignature (s : Signature) : Prop :=
  ∀ n, 2 * Token.sizeList s.tokens ≤ n → ∀ body rest, Yields (ofDepth n).signature
    (s.tokens ++ .group .brace body :: rest) s (.group .brace body :: rest)

/-- **A function whose parameters and result are read has a signature.** -/
theorem printsSignature (hw : IsName w) (hparams : ∀ p ∈ params, PrintsParam p)
    (houtput : output.IsWritten) : PrintsSignature (signatureOf isAsync w params output) := by
  intro n hn body rest
  rw [tokens_signatureOf] at hn ⊢
  rw [Token.sizeList_append, Token.sizeList_word, Token.sizeList_word, Token.sizeList_group,
    Token.sizeList_append] at hn
  have hlist : Yields (commaList (ofDepth n).fnParam)
      (separated "," false (params.map FnParam.tokens)) (params, false) [] := by
    refine yields_commaList (fun _ => rfl) fun p hp rest hrest => ?_
    obtain ⟨t, ts, htokens⟩ := (hparams p hp).starts
    have hle := sizeList_le_separated "," false (List.mem_map_of_mem (f := FnParam.tokens) hp)
    refine ⟨by rw [htokens]; exact List.cons_ne_nil _ _, (hparams p hp).read n (by omega) rest hrest⟩
  have hty := (readsTypes_ofDepth n).openTy houtput (by omega) (.block body rest)
  have hresult : Yields (ofDepth n).output?
      (Token.operator "->" ++ (output.tokens ++ .group .brace body :: rest)) (some output)
      (.group .brace body :: rest) :=
    (yields_operator? "->" _).bind (.ite_pos rfl (hty.bind (yields_pure _ _)))
  simp only [List.append_assoc, List.cons_append]
  exact .of_run (run_signature _ hw isAsync _)
    ((Yields.inGroup hlist).bind (hresult.bind (yields_pure _ _)))

/-- **A function that takes a reference to an open sum has no signature.** -/
theorem fails_signature {v : String} {ty : Ty} (hw : IsName w) (hv : IsName v) (h : ty.IsWritten)
    (hopen : ty.isOpenSum = true)
    (hn : 2 * Token.sizeList (signatureOf isAsync w
      [.receiver [] (some none) false, .typed [] (.var v) ty.shared] output).tokens ≤ n)
    (rest : List Token) :
    Fails (ofDepth n).signature ((signatureOf isAsync w
      [.receiver [] (some none) false, .typed [] (.var v) ty.shared] output).tokens ++ rest) := by
  have hself : FnParam.tokens (.receiver [] (some none) false) =
    [.punct '&' false, .word "self"] := rfl
  have hkey : (FnParam.typed [] (.var v) ty.shared).tokens ≠ [] := by
    rw [tokens_typed]
    exact List.cons_ne_nil _ _
  rw [tokens_signatureOf, Token.sizeList_append, Token.sizeList_word, Token.sizeList_word,
    Token.sizeList_group] at hn
  rw [tokens_signatureOf]
  have hparams : separated "," false (([.receiver [] (some none) false,
      .typed [] (.var v) ty.shared] : List FnParam).map FnParam.tokens) =
      .punct '&' false :: .word "self" :: .punct ',' false ::
        (FnParam.typed [] (.var v) ty.shared).tokens := by
    simp [separated, operatorIf, hself, Token.operator, Token.operator.go]
  rw [hparams] at hn ⊢
  simp only [Token.sizeList_punct, Token.sizeList_word] at hn
  obtain ⟨left, hleaves⟩ := leaves_sharedParam hv h hopen (n := n) (by omega) []
  rw [List.append_nil] at hleaves
  generalize (FnParam.typed [] (.var v) ty.shared).tokens = key at hkey hleaves ⊢
  have hfails : Fails (commaList (ofDepth n).fnParam)
      (.punct '&' false :: .word "self" :: .punct ',' false :: key) := by
    refine (yields_rest _).fails ?_
    have hfirst : Yields (ofDepth n).fnParam (.punct '&' false :: .word "self" ::
        .punct ',' false :: key) (.receiver [] (some none) false) (.punct ',' false :: key) :=
      fun _ => rfl
    have hlast : Fails (listUntil.go List.isEmpty "," (ofDepth n).fnParam (key.length + 3)) key :=
      hleaves.listUntil_fails (List.isEmpty_eq_false_iff.mpr hkey) rfl rfl
    exact hfirst.listUntil_fails rfl rfl (fun _ => rfl) hlast
  simp only [List.append_assoc, List.cons_append]
  exact .of_run (run_signature _ hw isAsync _) (Fails.inGroup hfails).first

end Signature

/-! ### Items of implementations -/

section Member
variable {attrs : List Attribute} {isPublic : Bool}

/-- Printed in an implementation, the item is read back. -/
structure PrintsMember (i : Item) : Prop where
  ne_nil : i.tokens ≠ []
  read : ∀ n, 2 * Token.sizeList i.tokens + 2 ≤ n → ∀ rest,
    Yields (ofDepth n).implItem (i.tokens ++ rest) i rest

/-- The item is left behind where it stands in an implementation, if it is read at all. -/
structure LeavesMember (i : Item) : Prop where
  ne_nil : i.tokens ≠ []
  leaves : ∀ n, 2 * Token.sizeList i.tokens + 2 ≤ n → ∀ rest,
    Leaves (ofDepth n).implItem (i.tokens ++ rest) rest

/-- The item is not read in an implementation. -/
structure FailsMember (i : Item) : Prop where
  ne_nil : i.tokens ≠ []
  fails : ∀ n, 2 * Token.sizeList i.tokens + 2 ≤ n → ∀ rest,
    Fails (ofDepth n).implItem (i.tokens ++ rest)

theorem PrintsMember.leavesMember {i : Item} (h : PrintsMember i) : LeavesMember i :=
  ⟨h.ne_nil, fun n hn rest => (h.read n hn rest).leaves⟩

/-- An item of an implementation goes on after its attributes and its visibility. -/
theorem run_implItem (g : Grammar) (hattrs : ∀ a ∈ attrs, PrintsAttribute a) (isPublic : Bool)
    (hw : w ≠ "pub") (ts : List Token) (unread : Option Delimiter) :
    g.implItem.run ⟨attributeTokens attrs ++ ((visibilityOf isPublic).tokens ++ .word w :: ts),
        unread⟩ =
      (do
        if (← peek (startsWord "const")) &&
            !(← peekAfter 1 (startsWordOf ["async", "unsafe", "fn"])) then
          word "const"
          let (name, ty, value) ← g.typedValue
          return .const attrs (visibilityOf isPublic) name ty value
        else g.fnItem attrs (visibilityOf isPublic) : Parser Item).run ⟨.word w :: ts, unread⟩ := by
  have hmark : startsOperator "#" ((visibilityOf isPublic).tokens ++ .word w :: ts) = false := by
    cases isPublic <;> rfl
  unfold implItem
  rw [(yields_printedAttributes hattrs hmark).run_bind,
    (yields_visibility isPublic (startsWord_eq_false hw) rfl).run_bind]

/-- A constant up to its semicolon. -/
theorem yields_typedValue {ty : Ty} (hw : IsName w) (hty : ty.IsWritten) (he : PrintsExpr e)
    (hn : 2 * (Token.sizeList ty.tokens + Token.sizeList e.tokens) + 2 ≤ n) (rest : List Token) :
    Yields (ofDepth n).typedValue (.word w :: .punct ':' false :: (ty.tokens ++
      .punct '=' false :: (e.tokens ++ .punct ';' false :: rest))) (w, ty, e) rest := by
  obtain ⟨n, rfl⟩ : ∃ m, n = m + 1 := ⟨n - 1, by omega⟩
  have hty := (readsTypes_ofDepth (n + 1)).openTy hty (by omega)
    (.equals false (e.tokens ++ .punct ';' false :: rest))
  have hvalue : Yields ((ofDepth (n + 1)).expr true) (e.tokens ++ .punct ';' false :: rest) e
      (.punct ';' false :: rest) := he n (by omega) _ .semicolon
  unfold typedValue
  refine (yields_peek _ _).bind (.ite_false (startsWord_eq_false (hw.ne _ (by decide))) ?_)
  refine (yields_ident hw.noKeyword _).bind ?_
  refine Yields.via () (ty.tokens ++ .punct '=' false :: (e.tokens ++ .punct ';' false :: rest))
    (fun _ => rfl) (hty.bind ?_)
  refine Yields.via () (e.tokens ++ .punct ';' false :: rest) (fun _ => rfl) (hvalue.bind ?_)
  exact Yields.via () rest (fun _ => rfl) (yields_pure _ rest)

/-- **A constant is an item of an implementation.** -/
theorem printsMember_const {ty : Ty} (hattrs : ∀ a ∈ attrs, PrintsAttribute a) (isPublic : Bool)
    (hw : IsName w) (hty : ty.IsWritten) (he : PrintsExpr e) :
    PrintsMember (.const attrs (visibilityOf isPublic) w ty e) := by
  have htokens : (Item.const attrs (visibilityOf isPublic) w ty e).tokens =
      attributeTokens attrs ++ ((visibilityOf isPublic).tokens ++ .word "const" :: .word w ::
        .punct ':' false :: (ty.tokens ++ .punct '=' false :: (e.tokens ++ [.punct ';' false]))) := by
    simp [Item.tokens, wordToken, Token.operator, Token.operator.go]
  refine ⟨by rw [htokens]; simp, fun n hn rest => ?_⟩
  rw [htokens] at hn ⊢
  simp only [Token.sizeList_append, Token.sizeList_word, Token.sizeList_punct,
    Token.sizeList_nil] at hn
  have hvalue := yields_typedValue (n := n) hw hty he (by omega) rest
  have hnext : startsWordOf ["async", "unsafe", "fn"] (.word w :: .punct ':' false ::
      (ty.tokens ++ .punct '=' false :: (e.tokens ++ .punct ';' false :: rest))) = false :=
    startsWordOf_eq_false (hw.notMem (by decide))
  simp only [List.append_assoc, List.cons_append, List.nil_append]
  refine .of_run (run_implItem _ hattrs isPublic (by decide) _) ?_
  refine (yields_peek _ _).bind ((yields_peekAfter 1 _ _).bind (.ite_pos (congrArg not hnext) ?_))
  exact Yields.via () (.word w :: _) (fun _ => rfl) (hvalue.bind (yields_pure _ rest))

/-- A function is read as its signature and its body are. -/
theorem run_implItem_fn (g : Grammar) (hattrs : ∀ a ∈ attrs, PrintsAttribute a) (isPublic : Bool)
    (hw : w ∈ ["async", "fn"]) (ts : List Token) (unread : Option Delimiter) :
    g.implItem.run ⟨attributeTokens attrs ++ ((visibilityOf isPublic).tokens ++ .word w :: ts),
        unread⟩ = (g.fnItem attrs (visibilityOf isPublic)).run ⟨.word w :: ts, unread⟩ := by
  have hpub : w ≠ "pub" := by rintro rfl; exact absurd hw (by decide)
  have hconst : w ≠ "const" := by rintro rfl; exact absurd hw (by decide)
  have htest : (startsWord "const" (.word w :: ts) &&
      !startsWordOf ["async", "unsafe", "fn"] ((Token.word w :: ts).drop 1)) = false := by
    rw [startsWord_eq_false hconst, Bool.false_and]
  rw [run_implItem g hattrs isPublic hpub, (yields_peek _ _).run_bind,
    (yields_peekAfter 1 _ _).run_bind, htest, if_neg Bool.false_ne_true]

section Function
variable {isAsync : Bool} {params : List FnParam} {output : Ty} {body : List Stmt}

theorem tokens_fn (attrs : List Attribute) (isPublic : Bool) (isAsync : Bool) (w : String)
    (params : List FnParam) (output : Ty) (body : List Stmt) :
    ∃ k ts, k ∈ ["async", "fn"] ∧ (signatureOf isAsync w params output).tokens = .word k :: ts ∧
      (Item.fn attrs (visibilityOf isPublic) (signatureOf isAsync w params output) body).tokens =
        attributeTokens attrs ++ ((visibilityOf isPublic).tokens ++ .word k ::
          (ts ++ [.group .brace (Stmt.tokensOf body)])) := by
  cases isAsync with
  | true =>
    refine ⟨"async", _, by decide, rfl, ?_⟩
    rw [Item.tokens, List.append_assoc, List.append_assoc]
    rfl
  | false =>
    refine ⟨"fn", _, by decide, rfl, ?_⟩
    rw [Item.tokens, List.append_assoc, List.append_assoc]
    rfl

theorem fn_ne_nil (attrs : List Attribute) (isPublic : Bool) (isAsync : Bool) (w : String)
    (params : List FnParam) (output : Ty) (body : List Stmt) :
    (Item.fn attrs (visibilityOf isPublic) (signatureOf isAsync w params output) body).tokens ≠ [] := by
  obtain ⟨k, ts, -, -, htokens⟩ := tokens_fn attrs isPublic isAsync w params output body
  rw [htokens]
  simp

/-- **A function is an item of an implementation.** -/
theorem printsMember_fn (hattrs : ∀ a ∈ attrs, PrintsAttribute a) (isPublic : Bool)
    (hsignature : PrintsSignature (signatureOf isAsync w params output)) (hbody : PrintsBody body) :
    PrintsMember (.fn attrs (visibilityOf isPublic) (signatureOf isAsync w params output) body) := by
  obtain ⟨k, ts, hk, hstarts, htokens⟩ := tokens_fn attrs isPublic isAsync w params output body
  refine ⟨fn_ne_nil _ _ _ _ _ _ _, fun n hn rest => ?_⟩
  rw [htokens] at hn ⊢
  simp only [Token.sizeList_append, Token.sizeList_word, Token.sizeList_group,
    Token.sizeList_nil] at hn
  obtain ⟨n, rfl⟩ : ∃ m, n = m + 1 := ⟨n - 1, by omega⟩
  have hread := hsignature (n + 1) (by rw [hstarts, Token.sizeList_word]; omega)
    (Stmt.tokensOf body) rest
  have hblock : Yields (ofDepth (n + 1)).block (.group .brace (Stmt.tokensOf body) :: rest) body
      rest := hbody.yields (n := n) (by omega) rest
  rw [hstarts] at hread
  simp only [List.append_assoc, List.cons_append, List.nil_append]
  exact .of_run (run_implItem_fn _ hattrs isPublic hk _)
    (hread.bind (hblock.bind (yields_pure _ rest)))

/-- **A function with a signature is left behind**, whatever its body is. -/
theorem leavesMember_fn (hattrs : ∀ a ∈ attrs, PrintsAttribute a) (isPublic : Bool)
    (hsignature : PrintsSignature (signatureOf isAsync w params output)) (body : List Stmt) :
    LeavesMember (.fn attrs (visibilityOf isPublic) (signatureOf isAsync w params output) body) := by
  obtain ⟨k, ts, hk, hstarts, htokens⟩ := tokens_fn attrs isPublic isAsync w params output body
  refine ⟨fn_ne_nil _ _ _ _ _ _ _, fun n hn rest => ?_⟩
  rw [htokens] at hn ⊢
  simp only [Token.sizeList_append, Token.sizeList_word, Token.sizeList_group,
    Token.sizeList_nil] at hn
  obtain ⟨n, rfl⟩ : ∃ m, n = m + 1 := ⟨n - 1, by omega⟩
  have hread := hsignature (n + 1) (by rw [hstarts, Token.sizeList_word]; omega)
    (Stmt.tokensOf body) rest
  have hblock : Leaves (ofDepth (n + 1)).block (.group .brace (Stmt.tokensOf body) :: rest) rest :=
    leaves_inGroup _ _ _ _
  rw [hstarts] at hread
  simp only [List.append_assoc, List.cons_append, List.nil_append]
  exact .of_run (run_implItem_fn _ hattrs isPublic hk _)
    (hread.bind_leaves (hblock.bind fun _ => leaves_pure _ rest))

/-- **A function that takes a reference to an open sum is no item.** -/
theorem failsMember_fn {v : String} {ty : Ty} (hattrs : ∀ a ∈ attrs, PrintsAttribute a)
    (isPublic : Bool) (hw : IsName w) (hv : IsName v) (h : ty.IsWritten)
    (hopen : ty.isOpenSum = true) (body : List Stmt) :
    FailsMember (.fn attrs (visibilityOf isPublic) (signatureOf isAsync w
      [.receiver [] (some none) false, .typed [] (.var v) ty.shared] output) body) := by
  obtain ⟨k, ts, hk, hstarts, htokens⟩ := tokens_fn attrs isPublic isAsync w
    [.receiver [] (some none) false, .typed [] (.var v) ty.shared] output body
  refine ⟨fn_ne_nil _ _ _ _ _ _ _, fun n hn rest => ?_⟩
  rw [htokens] at hn ⊢
  simp only [Token.sizeList_append, Token.sizeList_word, Token.sizeList_group,
    Token.sizeList_nil] at hn
  have hfails := fails_signature (n := n) hw hv h hopen
    (by rw [hstarts, Token.sizeList_word]; omega) (.group .brace (Stmt.tokensOf body) :: rest)
  rw [hstarts] at hfails
  simp only [List.append_assoc, List.cons_append, List.nil_append]
  exact .of_run (run_implItem_fn _ hattrs isPublic hk _) hfails.first

end Function

end Member

end Grammar

end EntityTable.Source
