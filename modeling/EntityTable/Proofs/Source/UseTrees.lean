import EntityTable.Proofs.Source.Globs

/-! # Trees of names that are read back

A tree of names that has been read is printed as tokens that are read as the same tree. -/

namespace EntityTable.Source

open EntityTable.Source.Parser

/-! ### Lists that have been read -/

namespace Parser
variable {α : Type} {stop : List Token → Bool} {separator : String} {p : Parser α} {I : α → Prop}

/-- **What holds of each element that is read holds of all elements of a list.** No separator is
read before the first element. -/
theorem forall_of_listUntil_go (hp : ∀ {input out a}, p.run input = .ok (a, out) → I a) :
    ∀ {fuel input out xs trailing},
      (listUntil.go stop separator p fuel).run input = .ok ((xs, trailing), out) →
      (∀ x ∈ xs, I x) ∧ (xs = [] → trailing = false)
  | 0, _, _, _, _, h => by
    cases h
    exact ⟨nofun, fun _ => rfl⟩
  | fuel + 1, _, _, _, _, h => by
    obtain ⟨stopped, _, -, h⟩ := run_bind h
    split at h
    · cases h
      exact ⟨nofun, fun _ => rfl⟩
    obtain ⟨first, _, hfirst, h⟩ := run_bind h
    obtain ⟨stopped, _, -, h⟩ := run_bind h
    split at h
    · cases h
      exact ⟨fun x hx => by cases List.mem_singleton.mp hx; exact hp hfirst, nofun⟩
    obtain ⟨_, _, -, h⟩ := run_bind h
    obtain ⟨⟨more, trailing⟩, _, hmore, h⟩ := run_bind h
    cases h
    refine ⟨fun x hx => ?_, nofun⟩
    rcases List.mem_cons.mp hx with rfl | hx
    · exact hp hfirst
    · exact (forall_of_listUntil_go hp hmore).1 x hx

theorem forall_of_commaList (hp : ∀ {input out a}, p.run input = .ok (a, out) → I a)
    {input out : Input} {xs : List α} {trailing : Bool}
    (h : (commaList p).run input = .ok ((xs, trailing), out)) :
    (∀ x ∈ xs, I x) ∧ (xs = [] → trailing = false) := by
  obtain ⟨_, _, -, h⟩ := run_bind h
  exact forall_of_listUntil_go hp h

/-- What is read in a group is read by the parser for its contents. -/
theorem run_of_inGroup {d : Delimiter} {input out : Input} {a : α}
    (h : (inGroup d p).run input = .ok (a, out)) :
    ∃ inside left, p.run inside = .ok (a, left) := by
  obtain ⟨_, _, hget, h⟩ := run_bind h
  cases hget
  split at h
  · split at h
    · rename_i body tokens _ _
      obtain ⟨⟨b, left⟩, _, hlift, h⟩ := run_bind h
      have hlift : (p.run ⟨body, input.unread⟩ >>= fun r => .ok (r, input)) = _ := hlift
      obtain ⟨_, hinside, hsame⟩ := bind_eq_ok.mp hlift
      cases hsame
      cases h
      exact ⟨_, left, hinside⟩
    · obtain ⟨_, _, -, h⟩ := run_bind h
      cases h
  · obtain ⟨_, _, -, h⟩ := run_bind h
    cases h

end Parser

/-! ### Written trees -/

/-- The tree is one that is read from tokens. -/
inductive UseTree.IsWritten : UseTree → Prop
  | path {w : String} {rest : UseTree} (hw : IsNode w) (h : UseTree.IsWritten rest) :
      UseTree.IsWritten (.path w rest)
  | leaf {w : String} (hw : IsNode w) : UseTree.IsWritten (.leaf w)
  | rename {w v : String} (hw : IsNode w) (hv : keywords.contains v = false ∨ v = "_") :
      UseTree.IsWritten (.rename w v)
  | glob : UseTree.IsWritten .glob
  | group {trees : List UseTree} {trailing : Bool} (h : ∀ tree ∈ trees, UseTree.IsWritten tree)
      (htrailing : trees = [] → trailing = false) : UseTree.IsWritten (.group trees trailing)

namespace Grammar

variable {g : Grammar}

/-- A tree is written if those inside it are. -/
theorem isWritten_of_useTree
    (hg : ∀ {input out tree}, g.useTree.run input = .ok (tree, out) → tree.IsWritten)
    {input out : Input} {tree : UseTree} (h : g.parseUseTree.run input = .ok (tree, out)) :
    tree.IsWritten := by
  obtain ⟨tokens, _, hrest, h⟩ := run_bind h
  cases hrest
  split at h
  · rename_i hstarts
    obtain ⟨w, _, hword, h⟩ := run_bind h
    have hw : IsNode w := by
      obtain ⟨ts, htokens⟩ := head_of_anyWord hword
      rw [htokens] at hstarts
      exact startsNode_iff.mp hstarts
    obtain ⟨colons, _, -, h⟩ := run_bind h
    split at h
    · obtain ⟨rest, _, hrest, h⟩ := run_bind h
      cases h
      exact .path hw (hg hrest)
    obtain ⟨renamed, _, -, h⟩ := run_bind h
    split at h
    · obtain ⟨isIdent, _, hident, h⟩ := run_bind h
      obtain ⟨isWild, _, hwild, h⟩ := run_bind h
      cases hident
      cases hwild
      split at h
      · rename_i hstarts
        obtain ⟨v, _, hname, h⟩ := run_bind h
        cases h
        obtain ⟨ts, htokens⟩ := head_of_anyWord hname
        rw [htokens] at hstarts
        refine .rename hw ?_
        rcases Bool.or_eq_true_iff.mp hstarts with hstarts | hstarts
        · exact Or.inl ((Bool.not_eq_true' _).mp hstarts)
        · exact Or.inr (eq_of_beq hstarts)
      · obtain ⟨_, _, -, h⟩ := run_bind h
        cases h
    · cases h
      exact .leaf hw
  obtain ⟨star, _, -, h⟩ := run_bind h
  split at h
  · cases h
    exact .glob
  split at h
  · obtain ⟨⟨trees, trailing⟩, _, htrees, h⟩ := run_bind h
    cases h
    obtain ⟨_, _, hlist⟩ := run_of_inGroup htrees
    obtain ⟨hall, htrailing⟩ := forall_of_commaList (I := UseTree.IsWritten) hg hlist
    exact .group hall htrailing
  · obtain ⟨_, _, -, h⟩ := run_bind h
    cases h

/-- **A tree that has been read is written.** -/
theorem isWritten_of_parseUseTree : ∀ {depth : Nat} {input out : Input} {tree : UseTree},
    (ofDepth depth).parseUseTree.run input = .ok (tree, out) → tree.IsWritten
  | 0, _, _, _, h => isWritten_of_useTree (g := ofDepth 0) (fun h => by cases h) h
  | depth + 1, _, _, _, h =>
    isWritten_of_useTree (g := ofDepth (depth + 1)) (fun h => isWritten_of_parseUseTree h) h

end Grammar

theorem UseTree.isWritten_of_ofText {text : String} {tree : UseTree}
    (h : UseTree.ofText text = .ok tree) : tree.IsWritten := by
  unfold UseTree.ofText runText at h
  split at h
  · obtain ⟨out, hrun⟩ := run_of_runAll h
    exact Grammar.isWritten_of_parseUseTree hrun
  · cases h

/-! ### Reading trees back -/

/-- The tokens that may come after a tree of names. -/
inductive EndsUse : List Token → Prop
  | nil : EndsUse []
  | comma (joint : Bool) (rest : List Token) : EndsUse (.punct ',' joint :: rest)
  | semicolon (joint : Bool) (rest : List Token) : EndsUse (.punct ';' joint :: rest)

theorem EndsUse.noPath {rest : List Token} (h : EndsUse rest) : startsOperator "::" rest = false := by
  cases h <;> rfl

theorem EndsUse.noRename {rest : List Token} (h : EndsUse rest) : startsWord "as" rest = false := by
  cases h <;> rfl

theorem UseTree.tokensOf_eq (trees : List UseTree) :
    UseTree.tokensOf trees = trees.map UseTree.tokens := by
  induction trees with
  | nil => rfl
  | cons tree trees ih => rw [UseTree.tokensOf, ih, List.map_cons]

theorem UseTree.IsWritten.ne_nil {tree : UseTree} (h : tree.IsWritten) : tree.tokens ≠ [] := by
  cases h <;> exact List.cons_ne_nil _ _

/-- **A written tree is read back.** -/
theorem UseTree.IsWritten.yields {tree : UseTree} (h : tree.IsWritten) :
    ∀ {depth : Nat}, Token.sizeList tree.tokens ≤ depth + 1 → ∀ {rest : List Token}, EndsUse rest →
      Yields (Grammar.ofDepth depth).parseUseTree (tree.tokens ++ rest) tree rest := by
  induction h with
  | @path w tree hw h ih =>
    intro depth hdepth rest hrest
    have hcolons : Token.sizeList (Token.operator "::") = 2 := rfl
    rw [UseTree.tokens] at hdepth ⊢
    simp only [wordToken, Token.sizeList_append, Token.sizeList_word, Token.sizeList_nil,
      hcolons] at hdepth
    obtain ⟨depth, rfl⟩ : ∃ below, depth = below + 1 := ⟨depth - 1, by omega⟩
    have hmore : Yields (Grammar.ofDepth (depth + 1)).useTree (tree.tokens ++ rest) tree rest :=
      ih (by omega) hrest
    rw [List.append_assoc, List.append_assoc]
    refine (yields_rest _).bind (.ite_pos (startsNode_iff.mpr hw) ?_)
    refine Yields.via w (Token.operator "::" ++ (tree.tokens ++ rest)) (fun _ => rfl) ?_
    exact (yields_operator? "::" _).bind (.ite_pos rfl (hmore.bind (yields_pure _ rest)))
  | @leaf w hw =>
    intro depth _ rest hrest
    refine (yields_rest _).bind (.ite_pos (startsNode_iff.mpr hw) ?_)
    refine Yields.via w rest (fun _ => rfl) ?_
    refine (yields_operator?_false hrest.noPath).bind (.ite_false rfl ?_)
    exact (yields_word?_false hrest.noRename).bind (.ite_false rfl (yields_pure _ rest))
  | @rename w v hw hv =>
    intro depth _ rest hrest
    have hname : (startsIdent (.word v :: rest) || startsWord "_" (.word v :: rest)) = true := by
      rcases hv with hv | rfl
      · show (!keywords.contains v || _) = true
        rw [hv]
        rfl
      · rfl
    refine (yields_rest _).bind (.ite_pos (startsNode_iff.mpr hw) ?_)
    refine Yields.via w (.word "as" :: .word v :: rest) (fun _ => rfl) ?_
    refine (yields_operator?_false rfl).bind (.ite_false rfl ?_)
    refine Yields.via true (.word v :: rest) (fun _ => rfl) (.ite_pos rfl ?_)
    refine (yields_peek _ _).bind ((yields_peek _ _).bind (.ite_pos hname ?_))
    exact Yields.via v rest (fun _ => rfl) (yields_pure _ rest)
  | glob => exact fun _ _ _ => fun _ => rfl
  | @group trees trailing h htrailing ih =>
    intro depth hdepth rest hrest
    rw [UseTree.tokens, Token.sizeList_group, UseTree.tokensOf_eq] at hdepth
    have hlist : Yields (commaList (Grammar.ofDepth depth).useTree)
        (separated "," trailing (trees.map UseTree.tokens)) (trees, trailing) [] := by
      refine yields_commaList htrailing fun tree htree next hnext => ?_
      refine ⟨List.append_ne_nil_of_left_ne_nil (h tree htree).ne_nil next, ?_⟩
      have hle := sizeList_le_separated "," trailing (List.mem_map_of_mem (f := UseTree.tokens) htree)
      obtain ⟨below, rfl⟩ : ∃ below, depth = below + 1 := by
        have hpos := Token.sizeList_pos (h tree htree).ne_nil
        exact ⟨depth - 1, by omega⟩
      refine ih tree htree (by omega) ?_
      rcases hnext with rfl | ⟨ts, rfl⟩
      · exact .nil
      · exact .comma false ts
    rw [UseTree.tokens, UseTree.tokensOf_eq]
    refine (yields_rest _).bind (.ite_false rfl ?_)
    refine (yields_operator?_false rfl).bind (.ite_false rfl (.ite_pos rfl ?_))
    exact (Yields.inGroup hlist).bind (yields_pure _ rest)

end EntityTable.Source
