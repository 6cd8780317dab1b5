import EntityTable.Proofs.Source.Remainders
import EntityTable.Proofs.Source.Spelling
import EntityTable.Source.Import
import EntityTable.Source.Tree.TypeView

/-! # Paths that are read again as trees of names

The words of a path, joined by `::` and with a `*` behind, are read again, now as a tree of names. A
path allows more than such a tree does: it may start with `::`, and `Self` may stand in it. So the
words of a path are followed from the text that it was read from to the new text (`names_of_ofText`),
and a glob over them is read exactly if none of them is `Self` (`IsGlob.yields`, `IsGlob.fails`). -/

namespace EntityTable.Source

open EntityTable.Source.Lexer EntityTable.Source.Parser

/-- The word may stand in a tree of names. -/
def IsNode (w : String) : Prop := keywords.contains w = false ∨ w ∈ pathWords

theorem not_isNode_self : ¬ IsNode "Self" := by
  rintro (h | h) <;> revert h <;> decide

/-! ### The words of a path that is read -/

namespace Parser

variable {α : Type} {input out : Input} {w : String}

theorem head_of_anyWord (h : anyWord.run input = .ok (w, out)) :
    ∃ ts, input.tokens = .word w :: ts := by
  obtain ⟨tokens, middle, hrest, h⟩ := run_bind h
  cases hrest
  split at h
  · rename_i v ts heq
    cases h
    exact ⟨ts, heq⟩
  · cases h

theorem head_of_ident (h : ident.run input = .ok (w, out)) :
    keywords.contains w = false ∧ ∃ ts, input.tokens = .word w :: ts := by
  obtain ⟨tokens, middle, hrest, h⟩ := run_bind h
  cases hrest
  split at h
  · rename_i v ts heq
    split at h
    · cases h
    · rename_i hkeyword
      cases h
      exact ⟨Bool.eq_false_iff.mpr hkeyword, ts, heq⟩
  · cases h

/-- **What each step keeps holds at the end of an iteration.** Each step starts at an end of the
tokens with which the iteration starts. -/
theorem iterate_induction {step : α → Parser (Option α)} [∀ a, ReadsFront (step a)] {I : α → Prop}
    {start final : α} (hstep : ∀ a b before after, before.tokens <:+ input.tokens → I a →
      (step a).run before = .ok (some b, after) → I b)
    (hstart : I start) (h : (iterate step start).run input = .ok (final, out)) : I final := by
  obtain ⟨tokens, middle, hrest, h⟩ := run_bind h
  cases hrest
  have hgo : ∀ fuel a before, before.tokens <:+ input.tokens → I a →
      (iterate.go step fuel a).run before = .ok (final, out) → I final := by
    intro fuel
    induction fuel with
    | zero =>
      intro a before _ ha hrun
      cases hrun
      exact ha
    | succ fuel ih =>
      intro a before hsuffix ha hrun
      obtain ⟨next, after, hnext, hrun⟩ := run_bind hrun
      cases next with
      | none =>
        cases hrun
        exact ha
      | some b =>
        have hb := hstep a b before after hsuffix ha hnext
        exact ih b after ((ReadsFront.suffix hnext).trans hsuffix) hb hrun
  exact hgo _ start input List.suffix_rfl hstart h

theorem run_of_runAll {p : Parser α} {tokens : List Token} {a : α} (h : runAll p tokens = .ok a) :
    ∃ out, p.run ⟨tokens, none⟩ = .ok (a, out) := by
  obtain ⟨⟨b, out⟩, hrun, h⟩ := bind_eq_ok.mp h
  dsimp only at h
  split at h <;> cases h
  exact ⟨out, hrun⟩

end Parser

namespace Grammar

variable (g : Grammar) {inExpr : Bool} {input out : Input}

theorem name_of_angleArgs {name : String} {turbofish : Bool} {s : Segment}
    (h : (g.angleArgs name turbofish).run input = .ok (s, out)) : s.name = name := by
  obtain ⟨_, _, -, h⟩ := run_bind h
  obtain ⟨_, _, -, h⟩ := run_bind h
  obtain ⟨_, _, -, h⟩ := run_bind h
  cases h
  rfl

/-- The segment has a word of the tokens, one that may stand in a tree of names or `Self`. -/
structure IsSegmentOf (tokens : List Token) (s : Segment) : Prop where
  mem : .word s.name ∈ tokens
  node : IsNode s.name ∨ s.name = "Self"

theorem isSegmentOf_of_segment {s : Segment} (h : (g.segment inExpr).run input = .ok (s, out)) :
    IsSegmentOf input.tokens s := by
  have hargs {name : String} {middle : Input} (h : StateT.run (do
      let tokens ← rest
      if !inExpr && startsArgs tokens then g.angleArgs name false
      else if startsTurbofish tokens then
        operator "::"
        g.angleArgs name true
      else return .plain name) middle = .ok (s, out)) : s.name = name := by
    obtain ⟨tokens, _, -, h⟩ := run_bind h
    split at h
    · exact g.name_of_angleArgs h
    · split at h
      · obtain ⟨_, _, -, h⟩ := run_bind h
        exact g.name_of_angleArgs h
      · cases h
        rfl
  obtain ⟨tokens, _, hrest, h⟩ := run_bind h
  cases hrest
  split at h
  · rename_i hstarts
    obtain ⟨w, _, hword, h⟩ := run_bind h
    cases h
    obtain ⟨ts, htokens⟩ := head_of_anyWord hword
    rw [htokens] at hstarts ⊢
    exact ⟨List.mem_cons_self, Or.inl (Or.inr (List.contains_iff_mem.mp hstarts))⟩
  · split at h
    · rename_i hself
      obtain ⟨name, middle, hname, h⟩ := run_bind h
      rw [← hargs h] at hname
      obtain ⟨ts, htokens⟩ := head_of_anyWord hname
      rw [htokens] at hself ⊢
      exact ⟨List.mem_cons_self, Or.inr (eq_of_beq hself)⟩
    · obtain ⟨name, middle, hname, h⟩ := run_bind h
      rw [← hargs h] at hname
      obtain ⟨hkeyword, ts, htokens⟩ := head_of_ident hname
      rw [htokens]
      exact ⟨List.mem_cons_self, Or.inl (Or.inl hkeyword)⟩

/-- **The segments of a path that is read have words of the tokens.** -/
theorem isSegmentOf_of_plainPath [g.TypesReadFront] {p : Path} (h : (g.plainPath inExpr).run input = .ok (p, out)) :
    p.segments ≠ [] ∧ ∀ s ∈ p.segments, IsSegmentOf input.tokens s := by
  obtain ⟨isGlobal, afterColons, hcolons, h⟩ := run_bind h
  obtain ⟨first, afterFirst, hfirst, h⟩ := run_bind h
  obtain ⟨segments, _, hsegments, h⟩ := run_bind h
  cases h
  have hcolons := ReadsFront.suffix hcolons
  have hafter := (ReadsFront.suffix hfirst).trans hcolons
  have widen {tokens : List Token} (hsuffix : tokens <:+ input.tokens) {s : Segment}
      (hs : IsSegmentOf tokens s) : IsSegmentOf input.tokens s :=
    ⟨hsuffix.subset hs.mem, hs.node⟩
  refine iterate_induction
    (I := fun segments => segments ≠ [] ∧ ∀ s ∈ segments, IsSegmentOf input.tokens s)
    ?_ ⟨List.cons_ne_nil _ _, ?_⟩ hsegments
  · rintro segments more middle last hmiddle ⟨-, hall⟩ hstep
    obtain ⟨tokens, _, hrest, hstep⟩ := run_bind hstep
    cases hrest
    split at hstep
    · obtain ⟨_, afterMore, hmore, hstep⟩ := run_bind hstep
      obtain ⟨s, _, hs, hstep⟩ := run_bind hstep
      cases hstep
      have hsuffix := ((ReadsFront.suffix hmore).trans hmiddle).trans hafter
      refine ⟨by simp, fun x hx => ?_⟩
      rcases List.mem_append.mp hx with hx | hx
      · exact hall x hx
      · cases List.mem_singleton.mp hx
        exact widen hsuffix (g.isSegmentOf_of_segment hs)
    · cases hstep
  · intro s hs
    cases List.mem_singleton.mp hs
    exact widen hcolons (g.isSegmentOf_of_segment hfirst)

end Grammar

/-- **The words of a path are words of its text**, each one that may stand in a tree of names or
`Self`. -/
theorem Path.names_of_ofText {text : String} {p : Path} (h : Path.ofText text = .ok p) :
    p.segments ≠ [] ∧
      ∀ w ∈ p.segments.map Segment.name, IsWord w.toList ∧ (IsNode w ∨ w = "Self") := by
  unfold Path.ofText runText at h
  split at h
  · rename_i tokens htokens
    obtain ⟨out, hrun⟩ := run_of_runAll h
    have := Grammar.readsFront_ofDepth (8 * Token.sizeList tokens + 16)
    obtain ⟨hne, hall⟩ := Grammar.isSegmentOf_of_plainPath (Grammar.ofDepth _) hrun
    refine ⟨hne, fun w hw => ?_⟩
    obtain ⟨s, hs, rfl⟩ := List.mem_map.mp hw
    exact ⟨isWord_of_ofText? htokens (hall s hs).mem, (hall s hs).node⟩
  · cases h

/-! ### Globs -/

/-- The tree of everything below some names. -/
def globTree : List String → UseTree
  | [] => .glob
  | w :: ws => .path w (globTree ws)

/-- The text of everything below some names. -/
def globText : List String → List Char
  | [] => ['*']
  | w :: ws => w.toList ++ ':' :: ':' :: globText ws

/-- The tokens of everything below some names. -/
inductive IsGlob : List String → List Token → Prop
  | star (joint : Bool) : IsGlob [] [.punct '*' joint]
  | node {w : String} {ws : List String} {ts : List Token} (joint : Bool) (h : IsGlob ws ts) :
      IsGlob (w :: ws) (.word w :: .punct ':' true :: .punct ':' joint :: ts)

theorem spells_glob : ∀ {names : List String}, (∀ w ∈ names, IsWord w.toList) →
    Spells Anything (globText names) (IsGlob names)
  | [], _ => Spells.nil.mark (by decide) fun joint _ hts => hts ▸ .star joint
  | w :: ws, h => by
    have hmore : Spells Anything (':' :: ':' :: globText ws) fun ts => ∃ joint tail,
        IsGlob ws tail ∧ ts = .punct ':' true :: .punct ':' joint :: tail :=
      (spells_glob fun v hv => h v (List.mem_cons_of_mem w hv)).operator (by decide) (by decide)
        fun joint tail htail => ⟨joint, tail, htail, rfl⟩
    refine (spells_word (h w List.mem_cons_self)).append hmore
      (fun _ _ => stops_cons (by decide)) ?_
    rintro _ _ rfl ⟨joint, tail, htail, rfl⟩
    rw [String.ofList_toList]
    exact .node joint htail

theorem startsNode_iff {w : String} {ts : List Token} :
    (startsIdent (.word w :: ts) || startsWordOf pathWords (.word w :: ts)) = true ↔ IsNode w := by
  rw [Bool.or_eq_true_iff]
  refine or_congr ?_ List.contains_iff_mem
  show (!keywords.contains w) = true ↔ _
  rw [Bool.not_eq_true']

/-- No tree of names starts with the tokens. -/
theorem Grammar.fails_parseUseTree (g : Grammar) {ts : List Token}
    (hword : (startsIdent ts || startsWordOf pathWords ts) = false)
    (hstar : startsOperator "*" ts = false) (hbrace : startsGroup .brace ts = false) :
    Fails g.parseUseTree ts := by
  refine (yields_rest ts).fails (.ite_false hword ?_)
  refine (yields_operator?_false hstar).fails (.ite_false rfl (.ite_false hbrace ?_))
  exact fails_expected useTreeStarts ts

namespace IsGlob

variable {names : List String} {ts : List Token}

theorem length_le (h : IsGlob names ts) : names.length ≤ Token.sizeList ts := by
  induction h with
  | star joint => exact Nat.zero_le _
  | node joint h ih =>
    simp only [Token.sizeList_word, Token.sizeList_punct, List.length_cons]
    omega

/-- **A glob over names that may stand in a tree of names is read as that tree.** -/
theorem yields (h : IsGlob names ts) (hnames : ∀ w ∈ names, IsNode w) {depth : Nat}
    (hdepth : names.length ≤ depth) :
    Yields (Grammar.ofDepth depth).parseUseTree ts (globTree names) [] := by
  induction h generalizing depth with
  | star joint => exact fun _ => rfl
  | @node w ws ts joint h ih =>
    obtain ⟨depth, rfl⟩ : ∃ below, depth = below + 1 :=
      ⟨depth - 1, (Nat.sub_add_cancel (Nat.one_le_of_lt hdepth)).symm⟩
    have hmore : Yields (Grammar.ofDepth (depth + 1)).useTree ts (globTree ws) [] :=
      ih (fun v hv => hnames v (List.mem_cons_of_mem w hv)) (Nat.le_of_succ_le_succ hdepth)
    refine (yields_rest _).bind (.ite_pos (startsNode_iff.mpr (hnames w List.mem_cons_self)) ?_)
    refine Yields.via w _ (fun _ => rfl) (Yields.via true ts (fun _ => rfl) (.ite_pos rfl ?_))
    exact hmore.bind (yields_pure _ [])

/-- **A glob over names one of which is `Self` is no tree of names.** -/
theorem fails (h : IsGlob names ts) (hself : "Self" ∈ names) (depth : Nat) :
    Fails (Grammar.ofDepth depth).parseUseTree ts := by
  induction h generalizing depth with
  | star joint => cases hself
  | @node w ws ts joint h ih =>
    by_cases hw : IsNode w
    · have hself : "Self" ∈ ws :=
        (List.mem_cons.mp hself).resolve_left fun heq => not_isNode_self (heq ▸ hw)
      have hmore : Fails (Grammar.ofDepth depth).useTree ts := by
        cases depth with
        | zero => exact fails_throw _ ts
        | succ depth => exact ih hself depth
      refine (yields_rest _).fails (.ite_pos (startsNode_iff.mpr hw) ?_)
      have hname : Yields anyWord (.word w :: .punct ':' true :: .punct ':' joint :: ts) w
          (.punct ':' true :: .punct ':' joint :: ts) := fun _ => rfl
      have hcolons : Yields (operator? "::") (.punct ':' true :: .punct ':' joint :: ts) true ts :=
        fun _ => rfl
      exact hname.fails (hcolons.fails (.ite_pos rfl hmore.first))
    · exact Grammar.fails_parseUseTree _ (Bool.eq_false_iff.mpr (mt startsNode_iff.mp hw)) rfl rfl

end IsGlob

/-! ### The glob of a path -/

namespace Import
variable {text : String} {ts : List Token}

theorem ofText?_eq_some {tree : UseTree} (htokens : Token.ofText? text = some ts)
    (h : Yields (Grammar.forTokens ts).parseUseTree ts tree []) :
    ofText? text = some ⟨text, tree⟩ := by
  rw [ofText?, UseTree.ofText, runText, htokens]
  dsimp only
  rw [h.runAll]
  rfl

theorem ofText?_eq_none (htokens : Token.ofText? text = some ts)
    (h : Fails (Grammar.forTokens ts).parseUseTree ts) : ofText? text = none := by
  rw [ofText?, UseTree.ofText, runText, htokens]
  dsimp only
  cases htree : runAll (Grammar.forTokens ts).parseUseTree ts with
  | error e => rfl
  | ok tree => exact absurd htree (h.runAll tree)

end Import

namespace Path

/-- The words of the path may be read as a tree of names. -/
def IsImportable (p : Path) : Prop := p.isGlobal = false ∧ "Self" ∉ p.segments.map Segment.name

instance (p : Path) : Decidable p.IsImportable := inferInstanceAs (Decidable (_ ∧ _))

/-- The text of everything below the path. -/
def globText (p : Path) : List Char :=
  (if p.isGlobal then [':', ':'] else []) ++ Source.globText (p.segments.map Segment.name)

/-- The tree of everything below the path. -/
def globTree (p : Path) : UseTree := Source.globTree (p.segments.map Segment.name)

/-- **The glob of a path that has been read is an import exactly if the path does not start with
`::` and has no `Self` in it.** -/
theorem ofText?_glob {text glob : String} {p : Path} (h : ofText text = .ok p)
    (hglob : glob.toList = p.globText) : Import.ofText? glob =
      if p.IsImportable then some ⟨glob, p.globTree⟩ else none := by
  obtain ⟨-, hnames⟩ := names_of_ofText h
  have hspells := spells_glob fun w hw => (hnames w hw).1
  rw [globText] at hglob
  cases hglobal : p.isGlobal with
  | true =>
    have hcolons : Spells Anything (':' :: ':' :: Source.globText (p.segments.map Segment.name))
        fun ts => ∃ joint tail, ts = .punct ':' true :: .punct ':' joint :: tail :=
      hspells.operator (by decide) (by decide) fun joint tail _ => ⟨joint, tail, rfl⟩
    obtain ⟨_, ⟨joint, tail, rfl⟩, hreads⟩ := hcolons trivial reads_nil
    rw [hglobal, if_pos rfl] at hglob
    have hreads : Reads glob.toList (.punct ':' true :: .punct ':' joint :: tail) [] := by
      rw [List.append_nil, List.append_nil] at hreads
      rw [hglob]
      exact hreads
    rw [if_neg fun himportable => by rw [himportable.1] at hglobal; cases hglobal]
    exact Import.ofText?_eq_none (ofText?_of_reads hreads)
      (Grammar.fails_parseUseTree _ rfl rfl rfl)
  | false =>
    rw [hglobal, if_neg Bool.false_ne_true, List.nil_append] at hglob
    obtain ⟨ts, hts, hreads⟩ := hspells trivial reads_nil
    rw [List.append_nil, List.append_nil, ← hglob] at hreads
    have htokens := ofText?_of_reads hreads
    by_cases hself : "Self" ∈ p.segments.map Segment.name
    · rw [if_neg fun himportable => himportable.2 hself]
      exact Import.ofText?_eq_none htokens (hts.fails hself _)
    · rw [if_pos ⟨hglobal, hself⟩]
      have hnodes : ∀ w ∈ p.segments.map Segment.name, IsNode w := fun w hw =>
        (hnames w hw).2.resolve_right fun heq => hself (heq ▸ hw)
      have hlength := hts.length_le
      exact Import.ofText?_eq_some htokens (hts.yields hnodes (by omega))

end Path

end EntityTable.Source
