import EntityTable.Proofs.Source.Parsing
import EntityTable.Source.Parser.Item
import EntityTable.Source.Tree.Build

/-! # Paths and types on given tokens

Words joined by `::` are read as a path, in an expression and in a type, up to what cannot belong to
them. As arguments in angle brackets such a path and `Option` of it are read; that is how the type
of a column stands in generated code. -/

namespace EntityTable.Source

open EntityTable.Source.Parser

/-! ### Words -/

/-- The word is an identifier. -/
structure IsName (w : String) : Prop where
  noKeyword : keywords.contains w = false
  noDigit : w.toList.head?.any Char.isDigit = false

instance (w : String) : Decidable (IsName w) :=
  decidable_of_iff (keywords.contains w = false ∧ w.toList.head?.any Char.isDigit = false)
    ⟨fun h => ⟨h.1, h.2⟩, fun h => ⟨h.noKeyword, h.noDigit⟩⟩

/-- The keywords that may stand in a path. -/
def pathKeywords : List String := ["super", "self", "Self", "crate"]

/-- The word may stand in a path. -/
def IsSegment (w : String) : Prop := IsName w ∨ w ∈ pathKeywords

instance (w : String) : Decidable (IsSegment w) :=
  inferInstanceAs (Decidable (IsName w ∨ w ∈ pathKeywords))

section
variable {w k : String} {ws : List String} {rest : List Token}

theorem startsWord_eq_false (h : w ≠ k) : startsWord k (.word w :: rest) = false :=
  beq_false_of_ne h

theorem startsWordOf_eq_false (h : w ∉ ws) : startsWordOf ws (.word w :: rest) = false := by
  rw [startsWordOf, List.contains_eq_mem, decide_eq_false h]

theorem IsName.ne (h : IsName w) : ∀ k ∈ keywords, w ≠ k := by
  rintro k hk rfl
  have hkeyword := h.noKeyword
  rw [List.contains_iff_mem.mpr hk] at hkeyword
  cases hkeyword

theorem IsName.notMem (h : IsName w) (hws : ∀ k ∈ ws, k ∈ keywords) : w ∉ ws :=
  fun hw => h.ne w (hws w hw) rfl

theorem IsName.startsIdent (h : IsName w) (rest : List Token) :
    startsIdent (.word w :: rest) = true := by
  show (!keywords.contains w) = true
  rw [h.noKeyword]
  rfl

theorem IsSegment.notMem (h : IsSegment w) (hws : ∀ k ∈ ws, k ∈ keywords ∧ k ∉ pathKeywords) :
    w ∉ ws := by
  intro hw
  rcases h with h | h
  · exact h.ne w (hws w hw).1 rfl
  · exact (hws w hw).2 h

theorem IsSegment.ne (h : IsSegment w) (hk : k ∈ keywords) (hpath : k ∉ pathKeywords) : w ≠ k := by
  rintro rfl
  rcases h with h | h
  · exact h.ne w hk rfl
  · exact hpath h

theorem IsSegment.noLiteral (h : IsSegment w) (rest : List Token) :
    startsLiteral (.word w :: rest) = false := by
  show (w == "true" || w == "false") = false
  rw [beq_false_of_ne (h.ne (by decide) (by decide)),
    beq_false_of_ne (h.ne (by decide) (by decide))]
  rfl

end

namespace Grammar

variable (g : Grammar) {rest : List Token} {w : String} {ws : List String} {ts : List Token}

/-! ### Paths -/

/-- The tokens of words joined by `::`. -/
inductive IsPath : List String → List Token → Prop
  | word {w : String} (h : IsSegment w) : IsPath [w] [.word w]
  | cons {w : String} {ws : List String} {ts : List Token} (h : IsSegment w) (joint : Bool)
      (hpath : IsPath ws ts) :
      IsPath (w :: ws) (.word w :: .punct ':' true :: .punct ':' joint :: ts)

theorem tokens_words_cons (w v : String) (ws : List String) : (Ty.words (w :: v :: ws)).tokens =
    .word w :: .punct ':' true :: .punct ':' false :: (Ty.words (v :: ws)).tokens := by
  simp [Ty.words, Ty.tokens, Path.words, QualifiedPath.tokens, Path.tokens, Segment.tokensOf,
    Segment.tokens, separated, wordToken, operatorIf, Token.operator, Token.operator.go]

/-- A path of words is written out as tokens of one. -/
theorem IsPath.printed (h : IsPath ws ts) : IsPath ws (Ty.words ws).tokens := by
  induction h with
  | word h => exact .word h
  | @cons w ws ts h joint hpath ih =>
    obtain ⟨v, names, rfl⟩ : ∃ v names, ws = v :: names := by cases hpath <;> exact ⟨_, _, rfl⟩
    rw [tokens_words_cons]
    exact .cons h false ih

theorem IsPath.exists_cons (h : IsPath ws ts) :
    ∃ w names tail, ws = w :: names ∧ IsSegment w ∧ ts = .word w :: tail := by
  cases h with
  | word h => exact ⟨_, _, _, rfl, h, rfl⟩
  | cons h joint hpath => exact ⟨_, _, _, rfl, h, rfl⟩

/-- The tokens go on with nothing that would belong to a path. -/
structure EndsPath (inExpr : Bool) (rest : List Token) : Prop where
  noMore : startsOperator "::" rest = false
  noArgs : inExpr = false → startsArgs rest = false

/-- One more segment of a path. -/
def segmentStep (inExpr : Bool) (segments : List Segment) : Parser (Option (List Segment)) := do
  let tokens ← Parser.rest
  if startsOperator "::" tokens && !startsGroup .paren (tokens.drop 2) then
    operator "::"
    return some (segments ++ [← g.segment inExpr])
  else return none

section
variable {inExpr : Bool}

/-- A word that may have arguments, with what follows it. -/
theorem yields_segment_of {s : Segment} (h : IsSegment w) (hw : w ∉ pathWords)
    (hrest : Yields (Parser.rest >>= fun tokens =>
      if (!inExpr && startsArgs tokens) = true then g.angleArgs w false
      else if startsTurbofish tokens = true then do operator "::"; g.angleArgs w true
      else return .plain w) ts s rest) :
    Yields (g.segment inExpr) (.word w :: ts) s rest := by
  unfold segment
  refine (yields_rest _).bind (.ite_false (startsWordOf_eq_false hw) ?_)
  by_cases hself : w = "Self"
  · subst hself
    exact .ite_pos rfl (Yields.bind (fun _ => rfl) hrest)
  · have hname : IsName w := by
      refine h.resolve_right fun hmem => ?_
      have hothers : ∀ k ∈ pathKeywords, k ≠ "Self" → k ∈ pathWords := by decide
      exact hw (hothers w hmem hself)
    exact .ite_false (startsWord_eq_false hself) ((yields_ident hname.noKeyword ts).bind hrest)

theorem yields_segment (h : IsSegment w) (hargs : inExpr = false → startsArgs rest = false)
    (hfish : startsTurbofish rest = false) :
    Yields (g.segment inExpr) (.word w :: rest) (.plain w) rest := by
  by_cases hpath : w ∈ pathWords
  · unfold segment
    exact (yields_rest _).bind (.ite_pos (List.contains_iff_mem.mpr hpath) fun _ => rfl)
  · have hargs : (!inExpr && startsArgs rest) = false := by
      cases inExpr with
      | true => rfl
      | false => exact hargs rfl
    exact g.yields_segment_of h hpath
      ((yields_rest rest).bind (.ite_false hargs (.ite_false hfish (yields_pure _ rest))))

variable (hend : EndsPath inExpr rest)
include hend

theorem yields_segmentStep_none (segments : List Segment) :
    Yields (g.segmentStep inExpr segments) rest none rest := by
  refine (yields_rest rest).bind (.ite_false ?_ (yields_pure _ _))
  rw [hend.noMore, Bool.false_and]

/-- The first word of a path and, one by one, the others. -/
theorem IsPath.segment (h : IsPath ws ts) : ∃ w tail, ts = .word w :: tail ∧
    Yields (g.segment inExpr) (ts ++ rest) (.plain w) (tail ++ rest) ∧
    ∀ segments, Repeats (g.segmentStep inExpr) (tail ++ rest) (segments ++ [.plain w]) rest
      (segments ++ ws.map .plain) := by
  induction h with
  | @word w h =>
    have hfish : startsTurbofish rest = false := by
      rw [startsTurbofish, hend.noMore, Bool.false_and]
    exact ⟨w, [], rfl, g.yields_segment h hend.noArgs hfish, fun segments => .done⟩
  | @cons w ws ts h joint hpath ih =>
    obtain ⟨v, tail, rfl, hsegment, hmore⟩ := ih
    refine ⟨w, _, rfl, g.yields_segment h (fun _ => rfl) rfl, fun segments => ?_⟩
    have hstep : Yields (g.segmentStep inExpr (segments ++ [.plain w]))
        (.punct ':' true :: .punct ':' joint :: .word v :: tail ++ rest)
        (some (segments ++ [.plain w] ++ [.plain v])) (tail ++ rest) := by
      refine (yields_rest _).bind (.ite_pos rfl ?_)
      exact Yields.via () (.word v :: tail ++ rest) (fun _ => rfl)
        (hsegment.bind (yields_pure _ _))
    have hmore := hmore (segments ++ [.plain w])
    rw [List.append_assoc segments [.plain w] (ws.map .plain)] at hmore
    exact .next hstep (by simp only [List.cons_append, List.length_cons]; omega) hmore

/-- **A path is read up to what cannot belong to it.** -/
theorem IsPath.plainPath (h : IsPath ws ts) :
    Yields (g.plainPath inExpr) (ts ++ rest) (.words ws) rest := by
  obtain ⟨w, tail, rfl, hsegment, hmore⟩ := h.segment g hend
  unfold Grammar.plainPath
  refine (yields_operator?_false rfl).bind (hsegment.bind ?_)
  exact ((hmore []).iterate (g.yields_segmentStep_none hend _)).bind (yields_pure _ _)

end

/-- A path that stands for itself, with no type before it. -/
theorem yields_qualifiedPath {inExpr : Bool} {tokens : List Token} {path : Path}
    (hfront : startsOperator "<" tokens = false)
    (hpath : Yields (g.plainPath inExpr) tokens path rest) :
    Yields (g.qualifiedPath inExpr) tokens (.plain path) rest := by
  unfold qualifiedPath
  exact (yields_peek _ _).bind (.ite_false hfront (hpath.bind (yields_pure _ _)))

/-! ### Types -/

/-- What starts with a word of a path, maybe behind its own lifetimes, is a type. -/
theorem yields_parseTy_word {allowPlus : Bool} {tokens : List Token} {binder : Option Binder}
    {ty : Ty} (hw : IsSegment w) (hbinder : Yields binder? tokens binder (.word w :: ts))
    (hty : Yields (g.pathTy binder allowPlus) (.word w :: ts) ty rest) :
    Yields (g.parseTy allowPlus) tokens ty rest := by
  have hfn : startsWordOf ["fn", "unsafe", "extern"] (.word w :: ts) = false :=
    startsWordOf_eq_false (hw.notMem (by decide))
  have hkeyword (hw : w ∈ pathKeywords) : startsWordOf pathKeywords (.word w :: ts) = true :=
    List.contains_iff_mem.mpr hw
  have hstarts : (startsIdent (.word w :: ts) ||
      startsWordOf ["super", "self", "Self", "crate"] (.word w :: ts)) = true := by
    rcases hw with hw | hw
    · rw [hw.startsIdent, Bool.true_or]
    · exact Bool.or_eq_true_iff.mpr (Or.inr (hkeyword hw))
  have hallowed : (startsIdent (.word w :: ts) ||
      startsWordOf ["fn", "unsafe", "extern", "super", "self", "Self", "crate"]
        (.word w :: ts)) = true := by
    rcases hw with hw | hw
    · rw [hw.startsIdent, Bool.true_or]
    · refine Bool.or_eq_true_iff.mpr (Or.inr (List.contains_iff_mem.mpr ?_))
      have hmem : ∀ k ∈ pathKeywords,
          k ∈ ["fn", "unsafe", "extern", "super", "self", "Self", "crate"] := by decide
      exact hmem w hw
  unfold Grammar.parseTy
  refine hbinder.bind ((yields_rest _).bind (.ite_false ?_ (.ite_false rfl (.ite_false hfn ?_))))
  · rw [hallowed, Bool.not_true, Bool.and_false]
  · refine .ite_pos ?_ hty
    rw [hstarts]
    rfl

/-- A path that lifetimes before it or a `+` after it make a sum. -/
theorem yields_pathTy_sum {allowPlus : Bool} {tokens middle : List Token} {path : Path}
    {binder : Option Binder} {bounds : List Bound} {trailing : Bool}
    (hfront : startsOperator "<" tokens = false)
    (hpath : Yields (g.plainPath false) tokens path middle) (hbang : startsMacroBody middle = false)
    (hplus : (binder.isSome || (allowPlus && startsOperator "+" middle)) = true)
    (hbounds : Yields (if allowPlus then g.moreBounds (.trait false false binder path)
      else pure ([.trait false false binder path], false)) middle (bounds, trailing) rest) :
    Yields (g.pathTy binder allowPlus) tokens (.traitObject false bounds trailing) rest := by
  unfold pathTy
  refine (g.yields_qualifiedPath hfront hpath).bind ?_
  refine (yields_peek _ _).bind (.ite_false (by rw [hbang, Bool.and_false]) ?_)
  refine (yields_peek _ _).bind (.ite_pos hplus ?_)
  cases allowPlus <;> exact hbounds.bind (yields_pure _ rest)

/-- A path is a type unless it goes on as a macro call or as a sum. -/
theorem yields_pathTy {allowPlus : Bool} {tokens : List Token} {path : Path}
    (hfront : startsOperator "<" tokens = false)
    (hpath : Yields (g.plainPath false) tokens path rest) (hbang : startsMacroBody rest = false)
    (hplus : (allowPlus && startsOperator "+" rest) = false) :
    Yields (g.pathTy none allowPlus) tokens (.path (.plain path)) rest := by
  unfold pathTy
  refine (g.yields_qualifiedPath hfront hpath).bind ?_
  refine (yields_peek _ _).bind (.ite_false (by rw [hbang, Bool.and_false]) ?_)
  exact (yields_peek _ _).bind (.ite_false hplus (yields_pure _ _))

/-- A type that starts with a word of a path is that path. -/
theorem yields_parseTy {allowPlus : Bool} {path : Path} (hw : IsSegment w)
    (hpath : Yields (g.plainPath false) (.word w :: ts) path rest)
    (hbang : startsMacroBody rest = false) (hplus : (allowPlus && startsOperator "+" rest) = false) :
    Yields (g.parseTy allowPlus) (.word w :: ts) (.path (.plain path)) rest := by
  have hfor : startsWord "for" (.word w :: ts) = false :=
    startsWord_eq_false (hw.ne (by decide) (by decide))
  exact g.yields_parseTy_word hw ((yields_peek _ _).bind (.ite_false hfor (yields_pure _ _)))
    (g.yields_pathTy rfl hpath hbang hplus)

/-- **A path of words is read as a type.** -/
theorem IsPath.parseTy {allowPlus : Bool} (h : IsPath ws ts) (hend : EndsPath false rest)
    (hbang : startsMacroBody rest = false) (hplus : startsOperator "+" rest = false) :
    Yields (g.parseTy allowPlus) (ts ++ rest) (.words ws) rest := by
  have hpath := h.plainPath g hend
  obtain ⟨w, names, tail, rfl, hw, rfl⟩ := h.exists_cons
  exact g.yields_parseTy hw hpath hbang (by rw [hplus, Bool.and_false])

/-! ### Arguments in angle brackets -/

/-- The tokens that follow an argument in angle brackets. -/
inductive FollowsArg : List Token → Prop
  | comma (joint : Bool) (rest : List Token) : FollowsArg (.punct ',' joint :: rest)
  | close (joint : Bool) (rest : List Token) : FollowsArg (.punct '>' joint :: rest)

namespace FollowsArg
variable (h : FollowsArg rest)
include h

theorem endsPath : EndsPath false rest := by cases h <;> exact ⟨rfl, fun _ => rfl⟩

theorem noMacro : startsMacroBody rest = false := by cases h <;> rfl

theorem noSum : startsOperator "+" rest = false := by cases h <;> rfl

theorem noBinding : startsOperator "=" rest = false := by cases h <;> rfl

theorem noBounds : startsOperator ":" rest = false := by cases h <;> rfl

end FollowsArg

/-- A type that starts neither as a lifetime nor as a constant is an argument. -/
theorem yields_typeArg {tokens : List Token} {ty : Ty} (hlifetime : startsLifetime tokens = false)
    (hliteral : startsLiteral tokens = false) (hbrace : startsGroup .brace tokens = false)
    (hty : Yields (g.ty true) tokens ty rest) (hrest : FollowsArg rest) :
    Yields g.genericArg tokens (.type ty) rest := by
  unfold Grammar.genericArg
  refine (yields_rest _).bind (.ite_false ?_ (.ite_false ?_ (hty.bind ?_)))
  · rw [hlifetime, Bool.false_and]
  · rw [hliteral, hbrace]
    rfl
  · split
    · refine (yields_operator?_false hrest.noBinding).bind (.ite_false rfl ?_)
      exact (yields_operator?_false hrest.noBounds).bind (.ite_false rfl (yields_pure _ rest))
    · exact yields_pure _ rest

theorem IsPath.genericArg (h : IsPath ws ts) (hrest : FollowsArg rest) :
    Yields g.deeper.genericArg (ts ++ rest) (.type (.words ws)) rest := by
  have hty : Yields (g.deeper.ty true) (ts ++ rest) (.words ws) rest :=
    h.parseTy g hrest.endsPath hrest.noMacro hrest.noSum
  obtain ⟨w, names, tail, rfl, hw, rfl⟩ := h.exists_cons
  exact g.deeper.yields_typeArg rfl (hw.noLiteral _) rfl hty hrest

/-- The tokens are read as this argument: a path of words, or `Option` of one. -/
inductive ReadsTypeArg : List Token → Ty → Prop
  | path {ws : List String} {ts : List Token} (h : IsPath ws ts) : ReadsTypeArg ts (.words ws)
  | option {ws : List String} {ts : List Token} (opening closing : Bool) (h : IsPath ws ts) :
      ReadsTypeArg (.word "Option" :: .punct '<' opening :: ts ++ [.punct '>' closing])
        (.applied "Option" [.words ws])

/-- The tokens form a path of words, or `Option` of one. -/
def IsTypeArg (ts : List Token) : Prop := ∃ ty, ReadsTypeArg ts ty

/-- An argument is written out as tokens of the same argument. -/
theorem ReadsTypeArg.printed {ty : Ty} (h : ReadsTypeArg ts ty) : ReadsTypeArg ty.tokens ty := by
  cases h with
  | path h => exact .path h.printed
  | @option ws ts opening closing h =>
    have htokens : (Ty.applied "Option" [.words ws]).tokens =
        .word "Option" :: .punct '<' false :: (Ty.words ws).tokens ++ [.punct '>' false] := by
      simp [Ty.applied, Ty.tokens, QualifiedPath.tokens, Path.tokens, Segment.tokensOf,
        Segment.tokens, separated, wordToken, operatorIf, angleTokens, GenericArg.tokensOf,
        GenericArg.tokens, Token.operator, Token.operator.go]
    rw [htokens]
    exact .option false false h.printed

theorem isName_option : IsName "Option" := ⟨by decide, by decide⟩

/-- `Option` with its argument is read as a path. -/
theorem IsPath.option (h : IsPath ws ts) (opening closing : Bool) (hrest : FollowsArg rest) :
    Yields (g.deeper.plainPath false)
      (.word "Option" :: .punct '<' opening :: (ts ++ .punct '>' closing :: rest))
      (.mk false [.angle "Option" false [.type (.words ws)] false]) rest := by
  have hopen : startsOperator ">" (ts ++ .punct '>' closing :: rest) = false ∧
      startsArgs (.punct '<' opening :: (ts ++ .punct '>' closing :: rest)) = true := by
    obtain ⟨w, names, tail, rfl, hw, rfl⟩ := h.exists_cons
    exact ⟨rfl, by cases opening <;> rfl⟩
  have hargs : Yields (g.deeper.angleArgs "Option" false)
      (.punct '<' opening :: (ts ++ .punct '>' closing :: rest))
      (.angle "Option" false [.type (.words ws)] false) rest := by
    have hlist : Yields (listUntil (startsOperator ">") "," g.deeper.genericArg)
        (ts ++ .punct '>' closing :: rest) ([.type (.words ws)], false)
        (.punct '>' closing :: rest) :=
      (yields_rest _).bind ((h.genericArg g (.close closing rest)).listUntil_last hopen.1 rfl)
    refine Yields.via () (ts ++ .punct '>' closing :: rest) (fun _ => rfl) (hlist.bind ?_)
    exact Yields.via () rest (fun _ => rfl) (yields_pure _ rest)
  have hsegment : Yields (g.deeper.segment false)
      (.word "Option" :: .punct '<' opening :: (ts ++ .punct '>' closing :: rest))
      (.angle "Option" false [.type (.words ws)] false) rest := by
    refine g.deeper.yields_segment_of (Or.inl isName_option) (by decide) ?_
    refine (yields_rest _).bind (.ite_pos ?_ hargs)
    rw [hopen.2]
    rfl
  refine (yields_operator?_false rfl).bind (hsegment.bind ?_)
  exact (Repeats.done.iterate (g.deeper.yields_segmentStep_none hrest.endsPath _)).bind
    (yields_pure _ rest)

theorem ReadsTypeArg.genericArg {ty : Ty} (h : ReadsTypeArg ts ty) (hrest : FollowsArg rest) :
    Yields g.deeper.deeper.genericArg (ts ++ rest) (.type ty) rest := by
  cases h with
  | path h => exact h.genericArg g.deeper hrest
  | @option ws ts opening closing h =>
    have hty : Yields (g.deeper.deeper.ty true) _ _ rest :=
      g.deeper.yields_parseTy (Or.inl isName_option) (h.option g opening closing hrest)
        hrest.noMacro hrest.noSum
    rw [List.append_assoc, List.singleton_append, List.cons_append, List.cons_append]
    exact g.deeper.deeper.yields_typeArg rfl (IsSegment.noLiteral (Or.inl isName_option) _) rfl hty
      hrest

theorem ReadsTypeArg.noClose {ty : Ty} (h : ReadsTypeArg ts ty) (rest : List Token) :
    startsOperator ">" (ts ++ rest) = false := by
  cases h with
  | path h => cases h <;> rfl
  | option => rfl

/-- **A type before one that is to be inferred, as the arguments of a method.** -/
theorem ReadsTypeArg.angleArgs {ty : Ty} (h : ReadsTypeArg ts ty) (w : String)
    (opening comma closing : Bool) (rest : List Token) :
    Yields (g.deeper.deeper.angleArgs w true)
      (.punct '<' opening :: (ts ++ .punct ',' comma :: .word "_" :: .punct '>' closing :: rest))
      (.angle w true [.type ty, .type .infer] false) rest := by
  have harg := h.genericArg g (.comma comma (.word "_" :: .punct '>' closing :: rest))
  have hinfer : Yields g.deeper.deeper.genericArg (.word "_" :: .punct '>' closing :: rest)
      (.type .infer) (.punct '>' closing :: rest) := fun _ => rfl
  have hargs : Yields (listUntil (startsOperator ">") "," g.deeper.deeper.genericArg)
      (ts ++ .punct ',' comma :: .word "_" :: .punct '>' closing :: rest)
      ([.type ty, .type .infer], false) (.punct '>' closing :: rest) := by
    obtain ⟨fuel, hfuel⟩ : ∃ fuel,
        (ts ++ .punct ',' comma :: .word "_" :: .punct '>' closing :: rest).length = fuel + 1 :=
      ⟨ts.length + rest.length + 2, by simp only [List.length_append, List.length_cons]; omega⟩
    refine (yields_rest _).bind ?_
    rw [hfuel]
    exact harg.listUntil_cons (h.noClose _) rfl (fun _ => rfl) (hinfer.listUntil_last rfl rfl)
  refine Yields.via () (ts ++ .punct ',' comma :: .word "_" :: .punct '>' closing :: rest)
    (fun _ => rfl) (hargs.bind ?_)
  exact Yields.via () rest (fun _ => rfl) (yields_pure _ rest)

end Grammar

end EntityTable.Source
