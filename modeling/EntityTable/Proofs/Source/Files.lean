import EntityTable.Proofs.Source.Items

/-! # Files on given tokens

A file is read item by item. The items that can be read back are `use` declarations, structs of one
field and implementations (`PrintsItem`); a file of such items is read back, and a file that begins
with some of them has these as its first items, whatever comes after. Where a member of an
implementation is not read, neither is the file. -/

namespace EntityTable.Source

open EntityTable.Source.Parser

namespace Parser
variable {α β : Type} {move : α → Parser (Option α)} {tokens middle : List Token} {a b : α}

/-- An iteration goes on from where the repeated steps lead. -/
theorem Repeats.run_go (h : Repeats move tokens a middle b) {fuel : Nat}
    (hfuel : tokens.length < fuel) : ∃ fuel', middle.length < fuel' ∧ ∀ unread,
      (iterate.go move fuel a).run ⟨tokens, unread⟩ =
        (iterate.go move fuel' b).run ⟨middle, unread⟩ := by
  induction h generalizing fuel with
  | done => exact ⟨fuel, hfuel, fun _ => rfl⟩
  | next hfirst hshorter _ ih =>
    obtain ⟨fuel, rfl⟩ := Nat.exists_eq_add_of_lt (Nat.zero_lt_of_lt hfuel)
    obtain ⟨fuel', hfuel', hgo⟩ := @ih (0 + fuel) (by omega)
    exact ⟨fuel', hfuel', fun unread => (hfirst.run_bind unread).trans (hgo unread)⟩

end Parser

theorem Item.tokensOf_append (items more : List Item) :
    Item.tokensOf (items ++ more) = Item.tokensOf items ++ Item.tokensOf more := by
  induction items with
  | nil => rfl
  | cons i items ih => rw [List.cons_append, Item.tokensOf, ih, Item.tokensOf, List.append_assoc]

namespace Grammar

variable {g : Grammar} {ts rest : List Token} {n : Nat} {w v : String} {attrs : List Attribute}

/-! ### Steps -/

/-- An item of a file, with its attributes. -/
def topItem (g : Grammar) : Parser Item := do g.itemAfter (← g.attributes)

/-- Elements are read one by one up to the end. -/
def elementStep (p : Parser Item) (items : List Item) : Parser (Option (List Item)) := do
  if ← atEnd then return none else return some (items ++ [← p])

theorem items_eq (g : Grammar) : g.items = iterate (elementStep g.topItem) [] := by
  refine congrArg (iterate · []) (funext fun items => ?_)
  simp only [elementStep, topItem, bind_assoc]

section Elements
variable {p : Parser Item} {i : Item}

/-- Where something is left, a step is an element. -/
theorem run_elementStep {β : Type} (hts : ts ≠ []) (f : Option (List Item) → Parser β)
    (items : List Item) (unread : Option Delimiter) :
    (elementStep p items >>= f).run ⟨ts, unread⟩ =
      (p >>= fun i => f (some (items ++ [i]))).run ⟨ts, unread⟩ := by
  have hend : List.isEmpty ts = false := List.isEmpty_eq_false_iff.mpr hts
  unfold elementStep
  rw [bind_assoc, atEnd, (yields_peek _ _).run_bind, hend, if_neg Bool.false_ne_true, bind_assoc]
  simp only [pure_bind]

theorem yields_elementStep (hts : ts ≠ []) (h : Yields p ts i rest) (items : List Item) :
    Yields (elementStep p items) ts (some (items ++ [i])) rest := by
  refine (yields_peek _ _).bind (.ite_false (List.isEmpty_eq_false_iff.mpr hts) ?_)
  exact h.bind (yields_pure _ rest)

/-- What has been read stays in front. -/
theorem exists_more_of_go : ∀ {fuel : Nat} {before items : List Item} {input out : Input},
    (iterate.go (elementStep p) fuel before).run input = .ok (items, out) →
      ∃ more, items = before ++ more
  | 0, before, items, _, _, h => by
    cases h
    exact ⟨[], (List.append_nil _).symm⟩
  | fuel + 1, before, items, _, _, h => by
    obtain ⟨next, middle, hstep, h⟩ := run_bind h
    obtain ⟨stopped, _, -, hstep⟩ := run_bind hstep
    split at hstep
    · cases hstep
      cases h
      exact ⟨[], (List.append_nil _).symm⟩
    · obtain ⟨i, _, -, hstep⟩ := run_bind hstep
      cases hstep
      obtain ⟨more, hmore⟩ := exists_more_of_go h
      exact ⟨i :: more, by rw [hmore, List.append_assoc, List.singleton_append]⟩

/-- An element that is not read fails the iteration, behind others that are left behind. -/
theorem fails_elements {before : List Item} (hbefore : ∀ j ∈ before, j.tokens ≠ [] ∧
      ∀ ts, Leaves p (j.tokens ++ ts) ts)
    (hts : ts ≠ []) (h : Fails p ts) : ∀ {fuel : Nat} (items : List Item),
      (Item.tokensOf before ++ ts).length < fuel →
      Fails (iterate.go (elementStep p) fuel items) (Item.tokensOf before ++ ts) := by
  induction before with
  | nil =>
    intro fuel items hfuel
    obtain ⟨fuel, rfl⟩ := Nat.exists_eq_add_of_lt (Nat.zero_lt_of_lt hfuel)
    exact .of_run (run_elementStep hts _ items) h.first
  | cons j before ih =>
    intro fuel items hfuel
    obtain ⟨fuel, rfl⟩ := Nat.exists_eq_add_of_lt (Nat.zero_lt_of_lt hfuel)
    obtain ⟨hnonempty, hleaves⟩ := hbefore j List.mem_cons_self
    have hpos := List.length_pos_iff.mpr hnonempty
    rw [Item.tokensOf, List.append_assoc] at hfuel ⊢
    rw [List.length_append] at hfuel
    refine .of_run (run_elementStep (List.append_ne_nil_of_left_ne_nil hnonempty _) _ items) ?_
    exact (hleaves _).fails fun i =>
      ih (fun k hk => hbefore k (List.mem_cons_of_mem j hk)) _ (by omega)

end Elements

/-! ### Items -/

/-- Printed in a file, the item is read back. -/
structure PrintsItem (i : Item) : Prop where
  ne_nil : i.tokens ≠ []
  read : ∀ n, 2 * Token.sizeList i.tokens + 2 ≤ n → ∀ rest,
    Yields (ofDepth n).topItem (i.tokens ++ rest) i rest

/-- **A tree of names is imported by an item.** -/
theorem printsItem_use {tree : UseTree} (h : tree.IsWritten) :
    PrintsItem (.use [] .inherited false tree) := by
  have htokens : (Item.use [] .inherited false tree).tokens =
      .word "use" :: (tree.tokens ++ [.punct ';' false]) := by
    simp [Item.tokens, attributeTokens, Visibility.tokens, wordToken, operatorIf, Token.operator,
      Token.operator.go]
  refine ⟨by rw [htokens]; simp, fun n hn rest => ?_⟩
  rw [htokens] at hn ⊢
  simp only [Token.sizeList_append, Token.sizeList_word, Token.sizeList_punct,
    Token.sizeList_nil] at hn
  obtain ⟨n, rfl⟩ : ∃ m, n = m + 1 := ⟨n - 1, by omega⟩
  have htree : Yields (ofDepth (n + 1)).useTree (tree.tokens ++ .punct ';' false :: rest) tree
      (.punct ';' false :: rest) := h.yields (by omega) (.semicolon false rest)
  have hlocal : startsOperator "::" (tree.tokens ++ .punct ';' false :: rest) = false := by
    cases h <;> rfl
  simp only [List.cons_append, List.append_assoc, List.nil_append]
  refine (yields_attributes _ rfl).bind ((yields_visibility false rfl rfl).bind ?_)
  refine (yields_rest _).bind ?_
  refine Yields.via true (tree.tokens ++ .punct ';' false :: rest) (fun _ => rfl) (.ite_pos rfl ?_)
  refine (yields_operator?_false hlocal).bind (htree.bind ?_)
  exact Yields.via () rest (fun _ => rfl) (yields_pure _ rest)

/-- **A struct with one field is an item.** -/
theorem printsItem_struct (hattrs : ∀ a ∈ attrs, PrintsAttribute a) (isPublic : Bool)
    (hw : IsName w) (hv : IsName v) {ty : Ty} (hty : ty.IsWritten) :
    PrintsItem (.struct attrs (visibilityOf isPublic) w
      (.named [⟨[], .inherited, some v, ty⟩] false)) := by
  have htokens : (Item.struct attrs (visibilityOf isPublic) w
      (.named [⟨[], .inherited, some v, ty⟩] false)).tokens =
      attributeTokens attrs ++ ((visibilityOf isPublic).tokens ++ [.word "struct", .word w,
        .group .brace (.word v :: .punct ':' false :: ty.tokens)]) := by
    simp [Item.tokens, StructBody.tokens, FieldDef.tokens, separated, attributeTokens,
      Visibility.tokens, wordToken, operatorIf, Token.operator, Token.operator.go]
  refine ⟨by rw [htokens]; simp, fun n hn rest => ?_⟩
  rw [htokens] at hn ⊢
  simp only [Token.sizeList_append, Token.sizeList_word, Token.sizeList_group,
    Token.sizeList_punct, Token.sizeList_nil] at hn
  simp only [List.cons_append, List.append_assoc, List.nil_append]
  have hmark : startsOperator "#" ((visibilityOf isPublic).tokens ++ .word "struct" :: .word w ::
      .group .brace (.word v :: .punct ':' false :: ty.tokens) :: rest) = false := by
    cases isPublic <;> rfl
  have hfieldTy := (readsTypes_ofDepth n).openTy hty (by omega) .nil
  rw [List.append_nil] at hfieldTy
  have hfield : Yields (ofDepth n).namedField (.word v :: .punct ':' false :: ty.tokens)
      ⟨[], .inherited, some v, ty⟩ [] := by
    have hvis : Yields visibility (.word v :: .punct ':' false :: ty.tokens) .inherited _ :=
      yields_visibility false (startsWord_eq_false (hv.ne _ (by decide))) rfl
    have hname : startsWord "_" (.word v :: .punct ':' false :: ty.tokens) = false :=
      startsWord_eq_false (hv.ne _ (by decide))
    refine (yields_attributes _ rfl).bind (hvis.bind ((yields_peek _ _).bind ?_))
    refine .ite_false hname ((yields_ident hv.noKeyword _).bind ?_)
    exact Yields.via () ty.tokens (fun _ => rfl) (hfieldTy.bind (yields_pure _ []))
  have hfields : Yields (ofDepth n).namedFields
      (.group .brace (.word v :: .punct ':' false :: ty.tokens) :: rest)
      (.named [⟨[], .inherited, some v, ty⟩] false) rest :=
    (Yields.inGroup ((yields_rest _).bind (hfield.listUntil_last rfl rfl))).bind (yields_pure _ rest)
  refine (yields_printedAttributes hattrs hmark).bind ?_
  refine (yields_visibility isPublic rfl rfl).bind ((yields_rest _).bind ?_)
  refine (yields_word?_false rfl).bind (.ite_false rfl ((yields_word?_false rfl).bind ?_))
  refine .ite_false rfl (.ite_false rfl ?_)
  refine Yields.via true (.word w :: _) (fun _ => rfl) (.ite_pos rfl ?_)
  refine (yields_ident hw.noKeyword _).bind ((yields_rest _).bind (.ite_pos rfl ?_))
  exact hfields.bind (yields_pure _ rest)

/-! ### Implementations -/

/-- The name of a type is a type. -/
theorem isWritten_word (hw : IsName w) : (Ty.word w).IsWritten := by
  refine .path (.mk (List.cons_ne_nil _ _) fun s hs => ?_)
  cases List.mem_singleton.mp hs
  exact .plain (Or.inl hw)

section Impl
variable {members : List Item}

theorem tokens_impl (w : String) (members : List Item) :
    (Item.impl [] .inherited (.word w) members).tokens =
      [.word "impl", .word w, .group .brace (Item.tokensOf members)] := by
  simp [Item.tokens, attributeTokens, Visibility.tokens, wordToken, Ty.word, Ty.tokens,
    QualifiedPath.tokens, Path.word, Path.tokens, Segment.tokensOf, Segment.tokens, separated,
    operatorIf]

/-- An implementation is read as its members are. -/
theorem run_topItem_impl (hw : IsName w) (hn : 6 ≤ n) (body rest : List Token)
    (unread : Option Delimiter) :
    (ofDepth n).topItem.run ⟨.word "impl" :: .word w :: .group .brace body :: rest, unread⟩ =
      (do
        let items ← inGroup .brace (iterate (elementStep (ofDepth n).implItem) [])
        return .impl [] .inherited (.word w) items : Parser Item).run
        ⟨.group .brace body :: rest, unread⟩ := by
  obtain ⟨n, rfl⟩ : ∃ m, n = m + 1 := ⟨n - 1, by omega⟩
  have htokens : (Ty.word w).tokens = [.word w] := by
    simp [Ty.word, Ty.tokens, QualifiedPath.tokens, Path.word, Path.tokens, Segment.tokensOf,
      Segment.tokens, separated, wordToken, operatorIf]
  have htarget : Yields ((ofDepth (n + 1)).ty true) (.word w :: .group .brace body :: rest)
      (.word w) (.group .brace body :: rest) := by
    have h := (readsTypes_ofDepth (n + 1)).openTy (isWritten_word hw)
      (by rw [htokens, Token.sizeList_word, Token.sizeList_nil]; omega) (.block body rest)
    rwa [htokens] at h
  have himpl : Yields (word? "impl") (.word "impl" :: .word w :: .group .brace body :: rest) true
      (.word w :: .group .brace body :: rest) := fun _ => rfl
  have hconst : ¬ (startsWord "const" (.word "impl" :: .word w :: .group .brace body :: rest) &&
      !startsWordOf ["async", "unsafe", "fn"] (.word w :: .group .brace body :: rest)) = true :=
    Bool.false_ne_true
  have hvisibility : Yields visibility (.word "impl" :: .word w :: .group .brace body :: rest)
      .inherited _ := yields_visibility false rfl rfl
  unfold topItem itemAfter
  rw [(yields_attributes _ rfl).run_bind, hvisibility.run_bind, (yields_rest _).run_bind,
    (yields_word?_false rfl).run_bind, if_neg Bool.false_ne_true,
    (yields_word?_false rfl).run_bind, if_neg Bool.false_ne_true]
  rw [List.drop_one, List.tail_cons, if_neg hconst, (yields_word?_false rfl).run_bind,
    if_neg Bool.false_ne_true, (yields_word?_false rfl).run_bind, if_neg Bool.false_ne_true,
    himpl.run_bind, if_pos rfl, htarget.run_bind]
  rfl

/-- **An implementation of members that are read back is an item.** -/
theorem printsItem_impl (hw : IsName w) (h : ∀ i ∈ members, PrintsMember i) :
    PrintsItem (.impl [] .inherited (.word w) members) := by
  have htokens := tokens_impl w members
  refine ⟨by rw [htokens]; simp, fun n hn rest => ?_⟩
  rw [htokens] at hn ⊢
  simp only [Token.sizeList_word, Token.sizeList_group, Token.sizeList_nil] at hn
  have hsteps : ∀ before, Repeats (elementStep (ofDepth n).implItem) (Item.tokensOf members) before
      [] (before ++ members) := by
    have hsize : 2 * Token.sizeList (Item.tokensOf members) + 2 ≤ n := by omega
    clear hn htokens
    induction members with
    | nil =>
      intro before
      rw [List.append_nil]
      exact .done
    | cons i members ih =>
      intro before
      have hi := h i List.mem_cons_self
      rw [Item.tokensOf, Token.sizeList_append] at hsize
      have hmore := ih (fun j hj => h j (List.mem_cons_of_mem i hj)) (by omega) (before ++ [i])
      rw [List.append_assoc, List.singleton_append] at hmore
      rw [Item.tokensOf]
      have hpos := List.length_pos_iff.mpr hi.ne_nil
      refine .next (yields_elementStep (List.append_ne_nil_of_left_ne_nil hi.ne_nil _)
        (hi.read n (by omega) _) before) ?_ hmore
      rw [List.length_append]
      omega
  have hmembers : Yields (iterate (elementStep (ofDepth n).implItem) []) (Item.tokensOf members)
      members [] := (hsteps []).iterate ((yields_peek _ _).bind (.ite_pos rfl (yields_pure _ _)))
  exact .of_run (run_topItem_impl hw (by omega) _ rest)
    ((Yields.inGroup hmembers).bind (yields_pure _ rest))

theorem sizeList_le_tokensOf {items : List Item} {i : Item} (h : i ∈ items) :
    Token.sizeList i.tokens ≤ Token.sizeList (Item.tokensOf items) := by
  induction items with
  | nil => cases h
  | cons j items ih =>
    rw [Item.tokensOf, Token.sizeList_append]
    rcases List.mem_cons.mp h with rfl | h
    · exact Nat.le_add_right _ _
    · exact (ih h).trans (Nat.le_add_left _ _)

/-- Where some members are not read and all others are left behind, one of the former is the first. -/
theorem exists_first_fails (h : ∀ i ∈ members, LeavesMember i ∨ FailsMember i)
    (hfails : ∃ i ∈ members, FailsMember i) : ∃ before i after, members = before ++ i :: after ∧
      (∀ j ∈ before, LeavesMember j) ∧ FailsMember i := by
  induction members with
  | nil =>
    obtain ⟨i, hi, -⟩ := hfails
    cases hi
  | cons i members ih =>
    rcases h i List.mem_cons_self with hleaves | hi
    · by_cases hmore : ∃ j ∈ members, FailsMember j
      · obtain ⟨before, j, after, rfl, hbefore, hj⟩ :=
          ih (fun j hj => h j (List.mem_cons_of_mem i hj)) hmore
        exact ⟨i :: before, j, after, rfl, List.forall_mem_cons.mpr ⟨hleaves, hbefore⟩, hj⟩
      · obtain ⟨j, hj, hfails⟩ := hfails
        rcases List.mem_cons.mp hj with rfl | hj
        · exact ⟨[], j, members, rfl, nofun, hfails⟩
        · exact absurd ⟨j, hj, hfails⟩ hmore
    · exact ⟨[], i, members, rfl, nofun, hi⟩

/-- **An implementation with a member that is not read is no item.** -/
theorem fails_topItem_impl (hw : IsName w) (h : ∀ i ∈ members, LeavesMember i ∨ FailsMember i)
    (hfails : ∃ i ∈ members, FailsMember i)
    (hn : 2 * Token.sizeList (Item.impl [] .inherited (.word w) members).tokens ≤ n)
    (rest : List Token) :
    Fails (ofDepth n).topItem ((Item.impl [] .inherited (.word w) members).tokens ++ rest) := by
  obtain ⟨before, i, after, rfl, hbefore, hi⟩ := exists_first_fails h hfails
  rw [tokens_impl, Token.sizeList_word, Token.sizeList_word, Token.sizeList_group] at hn
  have hsmall {j : Item} (hj : j ∈ before ++ i :: after) : 2 * Token.sizeList j.tokens + 2 ≤ n := by
    have hle := sizeList_le_tokensOf hj
    omega
  rw [tokens_impl, Item.tokensOf_append, Item.tokensOf]
  refine .of_run (run_topItem_impl hw (by omega) _ rest) (Fails.first (Fails.inGroup ?_))
  refine (yields_rest _).fails ?_
  refine fails_elements (fun j hj => ⟨(hbefore j hj).ne_nil, (hbefore j hj).leaves n ?_⟩)
    (List.append_ne_nil_of_left_ne_nil hi.ne_nil _) (hi.fails n ?_ _) [] (Nat.lt_succ_self _)
  · exact hsmall (List.mem_append_left _ hj)
  · exact hsmall (List.mem_append_right _ List.mem_cons_self)

end Impl

/-! ### Files -/

/-- Items are read one by one. -/
theorem repeats_items {items : List Item} (h : ∀ i ∈ items, PrintsItem i) (before : List Item)
    (hn : 2 * Token.sizeList (Item.tokensOf items) + 2 ≤ n) (rest : List Token) :
    Repeats (elementStep (ofDepth n).topItem) (Item.tokensOf items ++ rest) before rest
      (before ++ items) := by
  induction items generalizing before with
  | nil =>
    rw [List.append_nil]
    exact .done
  | cons i items ih =>
    have hi := h i List.mem_cons_self
    rw [Item.tokensOf, Token.sizeList_append] at hn
    have hmore := ih (fun j hj => h j (List.mem_cons_of_mem i hj)) (before ++ [i]) (by omega)
    rw [List.append_assoc, List.singleton_append] at hmore
    rw [Item.tokensOf, List.append_assoc]
    have hpos := List.length_pos_iff.mpr hi.ne_nil
    refine .next (yields_elementStep (List.append_ne_nil_of_left_ne_nil hi.ne_nil _)
      (hi.read n (by omega) _) before) ?_ hmore
    simp only [List.length_append]
    omega

end Grammar

namespace File

open Grammar

variable {before items : List Item} {ts : List Token}

/-- The depth that is taken for a file is large enough for its first items. -/
theorem exists_forTokens (before : List Item) (ts : List Token) :
    ∃ n, forTokens (Item.tokensOf before ++ ts) = ofDepth n ∧
      2 * Token.sizeList (Item.tokensOf before) + 2 * Token.sizeList ts + 6 ≤ n := by
  refine ⟨_, rfl, ?_⟩
  rw [Token.sizeList_append]
  omega

/-- A file that begins with items is read as these are and goes on behind them. -/
theorem exists_run_items (h : ∀ i ∈ before, PrintsItem i) (ts : List Token) : ∃ n fuel,
    2 * Token.sizeList ts + 6 ≤ n ∧ ts.length < fuel ∧ ∀ unread,
      (forTokens (Item.tokensOf before ++ ts)).items.run
        ⟨Item.tokensOf before ++ ts, unread⟩ =
      (iterate.go (elementStep (ofDepth n).topItem) fuel before).run ⟨ts, unread⟩ := by
  obtain ⟨n, hn, hdepth⟩ := exists_forTokens before ts
  obtain ⟨fuel, hfuel, hgo⟩ :=
    (repeats_items (n := n) h [] (by omega) ts).run_go (Nat.lt_succ_self _)
  refine ⟨n, fuel, by omega, hfuel, fun unread => ?_⟩
  rw [hn, items_eq, List.nil_append] at *
  exact ((yields_rest _).run_bind unread).trans (hgo unread)

/-- **A file of items is read back.** -/
theorem ofTokens_tokensOf (h : ∀ i ∈ items, PrintsItem i) :
    File.ofTokens (Item.tokensOf items) = .ok ⟨items⟩ := by
  obtain ⟨n, fuel, -, hfuel, hrun⟩ := exists_run_items h []
  obtain ⟨fuel, rfl⟩ := Nat.exists_eq_add_of_lt (Nat.zero_lt_of_lt hfuel)
  simp only [List.append_nil] at hrun
  have hitems : Yields (forTokens (Item.tokensOf items)).items (Item.tokensOf items) items [] :=
    fun unread => (hrun unread).trans rfl
  exact (hitems.map File.mk).runAll

/-- **A file begins with the items that its tokens begin with.** -/
theorem exists_more_of_ofTokens {file : File} (h : ∀ i ∈ before, PrintsItem i)
    (hfile : File.ofTokens (Item.tokensOf before ++ ts) = .ok file) :
    ∃ more, file.items = before ++ more := by
  obtain ⟨n, fuel, -, -, hrun⟩ := exists_run_items h ts
  obtain ⟨out, hfile⟩ := run_of_runAll hfile
  rw [map_eq_pure_bind] at hfile
  obtain ⟨items, _, hitems, hfile⟩ := run_bind hfile
  cases hfile
  exact exists_more_of_go ((hrun none).symm.trans hitems)

/-- **There is no file where an item is not read.** -/
theorem ofTokens_ne_ok (h : ∀ i ∈ before, PrintsItem i) (hts : ts ≠ [])
    (hfails : ∀ n, 2 * Token.sizeList ts + 6 ≤ n → Fails (ofDepth n).topItem ts) (file : File) :
    File.ofTokens (Item.tokensOf before ++ ts) ≠ .ok file := by
  obtain ⟨n, fuel, hn, hfuel, hrun⟩ := exists_run_items h ts
  have hgo : Fails (iterate.go (elementStep (ofDepth n).topItem) fuel before) ts :=
    fails_elements (List.forall_mem_nil _) hts (hfails n hn) before hfuel
  have hitems : Fails (forTokens (Item.tokensOf before ++ ts)).items (Item.tokensOf before ++ ts) :=
    fun unread => (hgo unread).imp fun _ he => (hrun unread).trans he
  refine Fails.runAll ?_ file
  rw [map_eq_pure_bind]
  exact hitems.first

end File

end EntityTable.Source
