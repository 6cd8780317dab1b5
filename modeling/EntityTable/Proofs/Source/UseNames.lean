import EntityTable.Proofs.Source.UseTrees

/-! # The names in a tree of names

Every name in a tree that is read from a text is a word of the text, be it inside braces or not, so
it is spelled as one (`UseTree.isWord_of_ofText`). -/

namespace EntityTable.Source

open EntityTable.Source.Parser

mutual

/-- The words in a token tree. -/
def Token.words : Token → List String
  | .word w => [w]
  | .group _ body => Token.wordsOf body
  | .literal _ => []
  | .punct _ _ => []
  | .lifetime _ => []

/-- The words in a token sequence. -/
def Token.wordsOf : List Token → List String
  | [] => []
  | t :: rest => t.words ++ Token.wordsOf rest

end

mutual

/-- The names in a tree. -/
def UseTree.names : UseTree → List String
  | .path name rest => name :: rest.names
  | .leaf name => [name]
  | .rename name newName => [name, newName]
  | .glob => []
  | .group trees _ => UseTree.namesOf trees

/-- The names in trees. -/
def UseTree.namesOf : List UseTree → List String
  | [] => []
  | tree :: rest => tree.names ++ UseTree.namesOf rest

end

namespace Token
variable {w : String} {ts ts' : List Token}

theorem wordsOf_append : ∀ ts ts' : List Token, wordsOf (ts ++ ts') = wordsOf ts ++ wordsOf ts'
  | [], _ => rfl
  | t :: ts, ts' => by rw [List.cons_append, wordsOf, wordsOf, wordsOf_append ts, List.append_assoc]

theorem mem_wordsOf_of_suffix (h : ts' <:+ ts) (hw : w ∈ wordsOf ts') : w ∈ wordsOf ts := by
  obtain ⟨front, rfl⟩ := h
  rw [wordsOf_append]
  exact List.mem_append_right _ hw

end Token

theorem UseTree.exists_of_mem_namesOf {w : String} : ∀ {trees : List UseTree},
    w ∈ namesOf trees → ∃ tree ∈ trees, w ∈ tree.names
  | tree :: trees, h => by
    rw [namesOf] at h
    rcases List.mem_append.mp h with h | h
    · exact ⟨tree, List.mem_cons_self, h⟩
    · obtain ⟨tree', htree', h⟩ := exists_of_mem_namesOf h
      exact ⟨tree', List.mem_cons_of_mem tree htree', h⟩

/-! ### Words of a text -/

namespace Lexer
variable {cs rest final : List Char} {tokens : List Token} {name : String}

theorem wordsOf_doc? {doc : List Token} (h : doc? cs = some (doc, rest)) :
    Token.wordsOf doc = ["doc"] := by
  unfold doc? at h
  split at h
  · split at h
    · cases h
    · cases h
      unfold docTokens
      split <;> simp [Token.wordsOf, Token.words]
  · cases h

/-- A token that is no group has at most one word, its own. -/
theorem isWord_of_mem_leaf? {token : Token} (h : leaf? cs = some (token, rest))
    (hmem : name ∈ token.words) : IsWord name.toList := by
  cases token with
  | word w =>
    cases List.mem_singleton.mp hmem
    exact isWord_of_identifier? (leaf?_eq_word h)
  | group d body =>
    unfold leaf? at h
    split at h
    · cases h
    · split at h
      · rename_i hpunct
        cases h
        unfold punct? at hpunct
        split at hpunct
        · split at hpunct
          · obtain ⟨⟨lifetime, after⟩, -, hlifetime⟩ := Option.bind_eq_some_iff.mp hpunct
            simp at hlifetime
          · cases hpunct
          · cases hpunct
        · cases hpunct
      · obtain ⟨_, -, heq⟩ := Option.map_eq_some_iff.mp h
        cases heq
  | literal text => cases hmem
  | punct c joint => cases hmem
  | lifetime text => cases hmem

/-- **Every word of a text is spelled as one**, at whatever depth. -/
theorem isWord_of_mem_wordsOf : ∀ {fuel : Nat} {cs final : List Char} {tokens : List Token},
    sequence fuel cs = some (tokens, final) → name ∈ Token.wordsOf tokens → IsWord name.toList
  | 0, _, _, _, h, _ => by cases h
  | fuel + 1, cs, final, tokens, h, hmem => by
    rw [sequence] at h
    split at h
    · rename_i doc rest hdoc
      obtain ⟨⟨more, after⟩, hmore, heq⟩ := Option.bind_eq_some_iff.mp h
      cases heq
      rw [Token.wordsOf_append, wordsOf_doc? hdoc] at hmem
      rcases List.mem_append.mp hmem with hmem | hmem
      · cases List.mem_singleton.mp hmem
        exact .of_isPlainWord (by decide)
      · exact isWord_of_mem_wordsOf hmore hmem
    · split at h
      · cases h
        cases hmem
      · split at h
        · obtain ⟨⟨body, after⟩, hbody, heq⟩ := Option.bind_eq_some_iff.mp h
          dsimp only at heq
          split at heq
          · split at heq
            · obtain ⟨⟨more, last⟩, hmore, heq⟩ := Option.bind_eq_some_iff.mp heq
              cases heq
              rcases List.mem_append.mp hmem with hmem | hmem
              · exact isWord_of_mem_wordsOf hbody hmem
              · exact isWord_of_mem_wordsOf hmore hmem
            · cases heq
          · cases heq
        · split at h
          · cases h
            cases hmem
          · obtain ⟨⟨token, after⟩, hleaf, heq⟩ := Option.bind_eq_some_iff.mp h
            obtain ⟨⟨more, last⟩, hmore, heq⟩ := Option.bind_eq_some_iff.mp heq
            cases heq
            rcases List.mem_append.mp hmem with hmem | hmem
            · exact isWord_of_mem_leaf? hleaf hmem
            · exact isWord_of_mem_wordsOf hmore hmem

end Lexer

/-! ### Names of a tree -/

namespace Parser
variable {α : Type} {p : Parser α} {input out : Input}

/-- Each element of a list is read from an end of the tokens. -/
theorem exists_of_listUntil_go [hp : ReadsFront p] {stop : List Token → Bool} {separator : String} :
    ∀ {fuel : Nat} {input out : Input} {xs : List α} {trailing : Bool},
      (listUntil.go stop separator p fuel).run input = .ok ((xs, trailing), out) → ∀ x ∈ xs,
      ∃ before after, before.tokens <:+ input.tokens ∧ p.run before = .ok (x, after)
  | 0, _, _, _, _, h, x, hx => by
    cases h
    cases hx
  | fuel + 1, _, _, _, _, h, x, hx => by
    obtain ⟨stopped, _, hpeek, h⟩ := run_bind h
    cases hpeek
    split at h
    · cases h
      cases hx
    obtain ⟨first, _, hfirst, h⟩ := run_bind h
    have hfront := hp.suffix hfirst
    obtain ⟨stopped, _, hpeek, h⟩ := run_bind h
    cases hpeek
    split at h
    · cases h
      cases List.mem_singleton.mp hx
      exact ⟨_, _, List.suffix_rfl, hfirst⟩
    obtain ⟨_, _, hseparator, h⟩ := run_bind h
    have hnext := (instOperator separator).suffix hseparator
    obtain ⟨⟨more, trailing⟩, _, hmore, h⟩ := run_bind h
    cases h
    rcases List.mem_cons.mp hx with rfl | hx
    · exact ⟨_, _, List.suffix_rfl, hfirst⟩
    · obtain ⟨before, after, hbefore, hrun⟩ := exists_of_listUntil_go hmore x hx
      exact ⟨before, after, (hbefore.trans hnext).trans hfront, hrun⟩

/-- What is read in a group is read from what the group holds. -/
theorem exists_body_of_inGroup {d : Delimiter} {a : α}
    (h : (inGroup d p).run input = .ok (a, out)) : ∃ body rest left, input.tokens =
      .group d body :: rest ∧ p.run ⟨body, input.unread⟩ = .ok (a, left) := by
  obtain ⟨_, _, hget, h⟩ := run_bind h
  cases hget
  split at h
  · split at h
    · rename_i d' body tokens heq hd
      obtain ⟨⟨b, left⟩, _, hlift, h⟩ := run_bind h
      have hlift : (p.run ⟨body, input.unread⟩ >>= fun r => .ok (r, input)) = _ := hlift
      obtain ⟨_, hinside, hsame⟩ := bind_eq_ok.mp hlift
      cases hsame
      cases h
      exact ⟨body, tokens, left, hd ▸ heq, hinside⟩
    · obtain ⟨_, _, -, h⟩ := run_bind h
      cases h
  · obtain ⟨_, _, -, h⟩ := run_bind h
    cases h

end Parser

namespace Grammar

variable {g : Grammar}

instance instParseUseTree [ReadsFront g.useTree] : ReadsFront g.parseUseTree := by
  unfold parseUseTree
  refine readsFront_bind fun _ => readsFront_ite inferInstance ?_
  exact readsFront_bind fun _ => readsFront_ite inferInstance (readsFront_ite inferInstance
    inferInstance)

instance instUseTree : ∀ depth, ReadsFront (ofDepth depth).useTree
  | 0 => Parser.instThrow _
  | depth + 1 =>
    have := instUseTree depth
    instParseUseTree (g := ofDepth depth)

/-- The names of a tree are words if those of the trees inside it are. -/
theorem names_of_useTree [ReadsFront g.useTree] (hg : ∀ {input out tree},
      g.useTree.run input = .ok (tree, out) → ∀ w ∈ tree.names, w ∈ Token.wordsOf input.tokens)
    {input out : Input} {tree : UseTree} (h : g.parseUseTree.run input = .ok (tree, out)) :
    ∀ w ∈ tree.names, w ∈ Token.wordsOf input.tokens := by
  obtain ⟨tokens, _, hrest, h⟩ := run_bind h
  cases hrest
  split at h
  · obtain ⟨w, _, hword, h⟩ := run_bind h
    have hw : w ∈ Token.wordsOf input.tokens := by
      obtain ⟨ts, htokens⟩ := head_of_anyWord hword
      rw [htokens]
      exact List.mem_append_left _ (List.mem_singleton_self w)
    have hfront := instAnyWord.suffix hword
    obtain ⟨colons, _, hcolons, h⟩ := run_bind h
    have hfront := ((instOperator? "::").suffix hcolons).trans hfront
    split at h
    · obtain ⟨rest, _, hrest, h⟩ := run_bind h
      cases h
      rintro v (_ | ⟨_, hv⟩)
      · exact hw
      · exact Token.mem_wordsOf_of_suffix hfront (hg hrest v hv)
    obtain ⟨renamed, _, hrenamed, h⟩ := run_bind h
    have hfront := ((instWord? "as").suffix hrenamed).trans hfront
    split at h
    · obtain ⟨isIdent, _, hident, h⟩ := run_bind h
      obtain ⟨isWild, _, hwild, h⟩ := run_bind h
      cases hident
      cases hwild
      split at h
      · obtain ⟨v, _, hname, h⟩ := run_bind h
        cases h
        obtain ⟨ts, htokens⟩ := head_of_anyWord hname
        rintro v' (_ | ⟨_, _ | ⟨_, hv⟩⟩)
        · exact hw
        · refine Token.mem_wordsOf_of_suffix hfront ?_
          rw [htokens]
          exact List.mem_append_left _ (List.mem_singleton_self v)
        · cases hv
      · obtain ⟨_, _, -, h⟩ := run_bind h
        cases h
    · cases h
      intro v hv
      cases List.mem_singleton.mp hv
      exact hw
  obtain ⟨star, _, hstar, h⟩ := run_bind h
  have hfront := (instOperator? "*").suffix hstar
  split at h
  · cases h
    exact nofun
  split at h
  · obtain ⟨⟨trees, trailing⟩, _, htrees, h⟩ := run_bind h
    cases h
    intro v hv
    obtain ⟨tree, htree, hv⟩ := UseTree.exists_of_mem_namesOf hv
    obtain ⟨body, rest, _, hbody, hlist⟩ := exists_body_of_inGroup htrees
    obtain ⟨_, _, hrest, hlist⟩ := run_bind hlist
    cases hrest
    obtain ⟨before, _, hbefore, hrun⟩ := exists_of_listUntil_go hlist tree htree
    refine Token.mem_wordsOf_of_suffix hfront ?_
    rw [hbody]
    exact List.mem_append_left _ (Token.mem_wordsOf_of_suffix hbefore (hg hrun v hv))
  · obtain ⟨_, _, -, h⟩ := run_bind h
    cases h

theorem names_of_parseUseTree : ∀ {depth : Nat} {input out : Input} {tree : UseTree},
    (ofDepth depth).parseUseTree.run input = .ok (tree, out) →
      ∀ w ∈ tree.names, w ∈ Token.wordsOf input.tokens
  | 0, _, _, _, h => names_of_useTree (g := ofDepth 0) (fun h => by cases h) h
  | depth + 1, _, _, _, h =>
    names_of_useTree (g := ofDepth (depth + 1)) (fun h => names_of_parseUseTree h) h

end Grammar

/-- **The names of a tree that is read from a text are spelled as words.** -/
theorem UseTree.isWord_of_ofText {text : String} {tree : UseTree}
    (h : UseTree.ofText text = .ok tree) : ∀ w ∈ tree.names, Lexer.IsWord w.toList := by
  unfold UseTree.ofText runText at h
  split at h
  · rename_i tokens htokens
    obtain ⟨out, hrun⟩ := run_of_runAll h
    intro w hw
    have hmem := Grammar.names_of_parseUseTree hrun w hw
    unfold Token.ofText? at htokens
    split at htokens
    · rename_i heq
      cases htokens
      exact Lexer.isWord_of_mem_wordsOf heq hmem
    · cases htokens
  · cases h

end EntityTable.Source
