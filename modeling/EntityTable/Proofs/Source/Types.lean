import EntityTable.Proofs.Source.Operands

/-! # Types that are read back

A type that has been read is printed as tokens that are read as the same type, wherever a type may
end. The one thing that depends on the place is a sum of bounds: behind `&` and other marks only its
first bound is read (`Ty.IsWritten.leaves`). -/

namespace EntityTable.Source

open EntityTable.Source.Parser

/-! ### Printing -/

section
attribute [local simp] Ty.tokensOf Segment.tokensOf Bound.tokensOf

theorem Ty.tokensOf_eq (tys : List Ty) : Ty.tokensOf tys = tys.map Ty.tokens := by
  induction tys with
  | nil => rfl
  | cons ty tys ih => simp [ih]

theorem Segment.tokensOf_eq (segments : List Segment) :
    Segment.tokensOf segments = segments.map Segment.tokens := by
  induction segments with
  | nil => rfl
  | cons s segments ih => simp [ih]

theorem Bound.tokensOf_eq (bounds : List Bound) :
    Bound.tokensOf bounds = bounds.map Bound.tokens := by
  induction bounds with
  | nil => rfl
  | cons b bounds ih => simp [ih]

end

/-- The argument is a lifetime. -/
def GenericArg.isLifetime : GenericArg → Bool
  | .lifetime _ => true
  | _ => false

theorem GenericArg.tokensOf_eq (args : List GenericArg) :
    GenericArg.tokensOf args = args.map fun a => (a.isLifetime, a.tokens) := by
  induction args with
  | nil => rfl
  | cons a args ih =>
    cases a <;> rw [GenericArg.tokensOf, ih]
    all_goals first | rfl | exact fun _ h => GenericArg.noConfusion h

/-- Elements with a mark at those that a comma follows. -/
@[simp]
def commaMarks (trailing : Bool) : List (Bool × List Token) → List (Bool × List Token × Bool)
  | [] => []
  | (b, x) :: xs => (b, x, trailing || !xs.isEmpty) :: commaMarks trailing xs

theorem mapIdx_eq_commaMarks (trailing : Bool) : ∀ xs : List (Bool × List Token),
    xs.mapIdx (fun i x => (x.1, x.2, trailing || decide (i + 1 < xs.length))) =
      commaMarks trailing xs
  | [] => rfl
  | (b, x) :: xs => by
    have hmore := mapIdx_eq_commaMarks trailing xs
    have hpos : decide (0 + 1 < xs.length + 1) = !xs.isEmpty := by cases xs <;> simp
    rw [List.mapIdx_cons, commaMarks, ← hmore, List.length_cons, hpos]
    simp only [Nat.add_lt_add_iff_right]

theorem commaMarks_append (trailing : Bool) (xs ys : List (Bool × List Token)) :
    commaMarks trailing (xs ++ ys) =
      commaMarks (trailing || !ys.isEmpty) xs ++ commaMarks trailing ys := by
  induction xs with
  | nil => rfl
  | cons x xs ih =>
    obtain ⟨b, x⟩ := x
    rw [List.cons_append, commaMarks, ih, commaMarks, List.cons_append]
    cases xs <;> cases ys <;> simp

theorem filter_commaMarks (keep : Bool → Bool) (trailing b : Bool) (xs : List (List Token)) :
    (commaMarks trailing (xs.map (b, ·))).filter (fun x => keep x.1) =
      if keep b then commaMarks trailing (xs.map (b, ·)) else [] := by
  induction xs with
  | nil => split <;> rfl
  | cons x xs ih =>
    rw [List.map_cons, commaMarks, List.filter_cons, ih]
    cases keep b <;> rfl

/-- Where a comma follows all elements, it follows the last. -/
theorem getLast?_commaMarks (b : Bool) (xs : List (List Token)) :
    (((commaMarks true (xs.map (b, ·))).map (·.2)).getLast?.any fun last => !last.2) = false := by
  rw [Option.any_eq_false]
  intro last hlast
  obtain ⟨x, hx, rfl⟩ := List.mem_map.mp (List.mem_of_getLast? hlast)
  clear hlast
  induction xs with
  | nil => cases hx
  | cons y ys ih =>
    rw [List.map_cons, commaMarks] at hx
    rcases List.mem_cons.mp hx with rfl | hx
    · rfl
    · exact ih hx

theorem flatMap_commaMarks (trailing : Bool) (xs : List (Bool × List Token)) :
    (commaMarks trailing xs).flatMap (fun x => x.2.1 ++ operatorIf x.2.2 ",") =
      separated "," trailing (xs.map Prod.snd) := by
  induction xs with
  | nil => rfl
  | cons x xs ih =>
    rw [commaMarks, List.flatMap_cons, ih]
    cases xs with
    | nil => simp [separated]
    | cons y ys =>
      simp only [List.map_cons, separated_cons_cons, List.isEmpty_cons, Bool.not_false,
        Bool.or_true, operatorIf, if_true, List.append_assoc]

/-- Lifetimes that stand before all other arguments are printed where they stand. -/
theorem angleTokens_sorted (turbofish trailing : Bool) (xs ys : List (List Token)) :
    angleTokens turbofish trailing (xs.map (true, ·) ++ ys.map (false, ·)) =
      operatorIf turbofish "::" ++ Token.operator "<" ++ separated "," trailing (xs ++ ys) ++
        Token.operator ">" := by
  have hmarks := commaMarks_append trailing (xs.map (true, ·)) (ys.map (false, ·))
  rw [List.isEmpty_map] at hmarks
  have hlifetimes : (commaMarks trailing (xs.map (true, ·) ++ ys.map (false, ·))).filter (·.1) =
      commaMarks (trailing || !ys.isEmpty) (xs.map (true, ·)) := by
    have h := filter_commaMarks id (trailing || !ys.isEmpty) true xs
    have h' := filter_commaMarks id trailing false ys
    rw [hmarks, List.filter_append]
    exact (congr (congrArg _ h) h').trans (List.append_nil _)
  have hothers : (commaMarks trailing (xs.map (true, ·) ++ ys.map (false, ·))).filter (!·.1) =
      commaMarks trailing (ys.map (false, ·)) := by
    have h := filter_commaMarks not (trailing || !ys.isEmpty) true xs
    have h' := filter_commaMarks not trailing false ys
    rw [hmarks, List.filter_append]
    exact congr (congrArg _ h) h'
  unfold angleTokens
  dsimp only
  rw [mapIdx_eq_commaMarks, hlifetimes, hothers]
  have hcomma : (!((commaMarks trailing (ys.map (false, ·))).map (·.2)).isEmpty &&
      ((commaMarks (trailing || !ys.isEmpty) (xs.map (true, ·))).map (·.2)).getLast?.any
        fun last => !last.2) = false := by
    cases ys with
    | nil => rfl
    | cons y ys => rw [List.isEmpty_cons, Bool.not_false, Bool.or_true, getLast?_commaMarks,
        Bool.and_false]
  have hall := flatMap_commaMarks trailing (xs.map (true, ·) ++ ys.map (false, ·))
  rw [hmarks, List.flatMap_append, List.map_append, List.map_map, List.map_map] at hall
  rw [hcomma, List.flatMap_map, List.flatMap_map]
  have hlist : (commaMarks (trailing || !ys.isEmpty) (xs.map (true, ·))).flatMap
        (fun x => x.2.1 ++ operatorIf x.2.2 ",") ++ (commaMarks trailing (ys.map (false, ·))).flatMap
        (fun x => x.2.1 ++ operatorIf x.2.2 ",") = separated "," trailing (xs ++ ys) := by
    rw [hall]
    simp [Function.comp_def]
  rw [← hlist]
  simp [operatorIf]

/-! ### Written types -/

/-- The type is a sum of bounds with a `+`, which may not stand behind a mark such as `&`. -/
def Ty.isOpenSum : Ty → Bool
  | .traitObject _ bounds trailing | .implTrait bounds trailing =>
    trailing || decide (1 < bounds.length)
  | _ => false

/-- A constant among arguments that is no block. -/
inductive IsConstArg : List Token → Prop
  | literal (text : String) : IsConstArg [.literal text]
  | negative (text : String) : IsConstArg [.punct '-' false, .literal text]
  | truth {w : String} (h : w = "true" ∨ w = "false") : IsConstArg [.word w]

/-- No separator stands alone. -/
def Binder.IsWritten (b : Binder) : Prop := b.lifetimes = [] → b.trailing = false

mutual

/-- The type is one that is read from tokens: lists that need an element have one, a sum stands only
where it may, and lifetimes come before all other arguments. The length of an array is an expression
that is read back. -/
inductive Ty.IsWritten : Ty → Prop
  | path {p : Path} (h : Path.IsWritten p) : Ty.IsWritten (.path (.plain p))
  | reference {target : Ty} (lifetime : Option String) (isMut : Bool) (h : Ty.IsWritten target)
      (hclosed : target.isOpenSum = false) : Ty.IsWritten (.reference lifetime isMut target)
  | pointer {target : Ty} (isMut : Bool) (h : Ty.IsWritten target)
      (hclosed : target.isOpenSum = false) : Ty.IsWritten (.pointer isMut target)
  | slice {elem : Ty} (h : Ty.IsWritten elem) : Ty.IsWritten (.slice elem)
  | array {elem : Ty} {length : Expr} (h : Ty.IsWritten elem)
      (hlength : Grammar.PrintsExpr length) :
      Ty.IsWritten (.array elem length.tokens)
  | paren {inner : Ty} (h : Ty.IsWritten inner) : Ty.IsWritten (.paren inner)
  | unit : Ty.IsWritten (.tuple [] false)
  | tuple {first : Ty} {more : List Ty} {trailing : Bool} (h : Ty.IsWritten first)
      (hmore : ∀ ty ∈ more, Ty.IsWritten ty) (htrailing : more = [] → trailing = true) :
      Ty.IsWritten (.tuple (first :: more) trailing)
  | never : Ty.IsWritten .never
  | infer : Ty.IsWritten .infer
  | dynTrait {bounds : List Bound} {trailing : Bool} (h : ∀ b ∈ bounds, Bound.IsWritten b)
      (htrait : Grammar.hasTrait bounds = true) :
      Ty.IsWritten (.traitObject true bounds trailing)
  | implTrait {bounds : List Bound} {trailing : Bool} (h : ∀ b ∈ bounds, Bound.IsWritten b)
      (htrait : Grammar.hasTrait bounds = true) : Ty.IsWritten (.implTrait bounds trailing)
  /-- A sum without `dyn`; a path alone is a sum only behind its own lifetimes. -/
  | bareTrait {binder : Option Binder} {p : Path} {more : List Bound} {trailing : Bool}
      (hbinder : ∀ b ∈ binder, b.IsWritten) (hp : Path.IsWritten p)
      (hglobal : binder.isSome = true → p.isGlobal = false)
      (hmore : ∀ b ∈ more, Bound.IsWritten b)
      (hsum : binder.isSome = true ∨ more ≠ [] ∨ trailing = true) :
      Ty.IsWritten (.traitObject false (.trait false false binder p :: more) trailing)

/-- The path is one that is read from tokens. -/
inductive Path.IsWritten : Path → Prop
  | mk {isGlobal : Bool} {segments : List Segment} (hne : segments ≠ [])
      (h : ∀ s ∈ segments, Segment.IsWritten s) : Path.IsWritten (.mk isGlobal segments)

/-- The segment is one that is read from tokens. -/
inductive Segment.IsWritten : Segment → Prop
  | plain {w : String} (h : IsSegment w) : Segment.IsWritten (.plain w)
  | angle {w : String} {turbofish trailing : Bool} {lifetimes : List String}
      {args : List GenericArg} (h : IsSegment w) (hw : w ∉ pathWords)
      (hargs : ∀ a ∈ args, GenericArg.IsWritten a)
      (htrailing : lifetimes = [] → args = [] → trailing = false) :
      Segment.IsWritten (.angle w turbofish (lifetimes.map .lifetime ++ args) trailing)

/-- The argument is one that is read from tokens, and no lifetime. -/
inductive GenericArg.IsWritten : GenericArg → Prop
  | type {ty : Ty} (h : Ty.IsWritten ty) : GenericArg.IsWritten (.type ty)
  | const {value : List Token} (h : IsConstArg value) : GenericArg.IsWritten (.const value)
  | assocType {head : Segment} {ty : Ty} (hhead : Segment.IsWritten head)
      (h : Ty.IsWritten ty) : GenericArg.IsWritten (.assocType head ty)

/-- The bound is one that is read from tokens. -/
inductive Bound.IsWritten : Bound → Prop
  | lifetime (name : String) : Bound.IsWritten (.lifetime name)
  | trait {binder : Option Binder} {p : Path} (isParen isMaybe : Bool)
      (hbinder : ∀ b ∈ binder, b.IsWritten) (hp : Path.IsWritten p) :
      Bound.IsWritten (.trait isParen isMaybe binder p)
  /-- A trait of functions, with arguments in parentheses and maybe a result. -/
  | function {binder : Option Binder} {isGlobal : Bool} {before : List Segment} {w : String}
      {inputs : List Ty} {trailing : Bool} {output : Option Ty} (isParen isMaybe : Bool)
      (hbinder : ∀ b ∈ binder, b.IsWritten)
      (hp : Path.IsWritten (.mk isGlobal (before ++ [.plain w])))
      (hinputs : ∀ ty ∈ inputs, Ty.IsWritten ty) (htrailing : inputs = [] → trailing = false)
      (houtput : ∀ ty ∈ output, Ty.IsWritten ty)
      (hclosed : ∀ ty ∈ output, ty.isOpenSum = false) :
      Bound.IsWritten
        (.trait isParen isMaybe binder (.mk isGlobal (before ++ [.paren w inputs trailing output])))

end

/-! ### First tokens -/

/-- The first token of a written type. -/
inductive StartsTy : Token → Prop
  | word {w : String} (h : w ∉ ["mut", "true", "false"]) : StartsTy (.word w)
  | punct {c : Char} {joint : Bool} (h : c ∈ ['&', '*', ':', '!']) : StartsTy (.punct c joint)
  | group {d : Delimiter} {body : List Token} (h : d ≠ .brace) : StartsTy (.group d body)

namespace StartsTy
variable {t : Token} {ts : List Token} (h : StartsTy t)
include h

theorem noLifetime : startsLifetime (t :: ts) = false := by cases h <;> rfl

theorem noLiteral : startsLiteral (t :: ts) = false := by
  cases h with
  | word h =>
    simp only [List.mem_cons, not_or] at h
    show (_ == _ || _ == _) = false
    rw [beq_false_of_ne h.2.1, beq_false_of_ne h.2.2.1]
    rfl
  | punct h =>
    simp only [List.mem_cons, List.not_mem_nil, or_false] at h
    rcases h with rfl | rfl | rfl | rfl <;> rfl
  | group => rfl

theorem noBrace : startsGroup .brace (t :: ts) = false := by
  cases h with
  | group h => exact beq_false_of_ne h
  | _ => rfl

theorem noMut : startsWord "mut" (t :: ts) = false := by
  cases h with
  | word h =>
    simp only [List.mem_cons, not_or] at h
    exact beq_false_of_ne h.1
  | _ => rfl

theorem noOperator {op : String} (hop : op ∈ [">", "?"]) : startsOperator op (t :: ts) = false := by
  simp only [List.mem_cons, List.not_mem_nil, or_false] at hop
  cases h with
  | punct h =>
    simp only [List.mem_cons, List.not_mem_nil, or_false] at h
    rcases hop with rfl | rfl <;> rcases h with rfl | rfl | rfl | rfl <;> rfl
  | _ => rcases hop with rfl | rfl <;> rfl

end StartsTy

theorem Segment.IsWritten.exists_cons {s : Segment} (h : s.IsWritten) :
    ∃ w ts, s.tokens = .word w :: ts ∧ IsSegment w := by
  cases h with
  | plain h => exact ⟨_, [], rfl, h⟩
  | angle h => exact ⟨_, _, rfl, h⟩

theorem Path.IsWritten.exists_cons {p : Path} (h : p.IsWritten) :
    (∃ w ts, p.tokens = .word w :: ts ∧ IsSegment w) ∨
      p.isGlobal = true ∧ ∃ ts, p.tokens = .punct ':' true :: .punct ':' false :: ts := by
  cases h with
  | @mk isGlobal segments hne h =>
    cases isGlobal with
    | true => exact Or.inr ⟨rfl, _, rfl⟩
    | false =>
      obtain ⟨s, segments, rfl⟩ := List.exists_cons_of_ne_nil hne
      obtain ⟨w, ts, hs, hw⟩ := (h s List.mem_cons_self).exists_cons
      have htokens : ∃ ts, (Path.mk false (s :: segments)).tokens = .word w :: ts := by
        rw [Path.tokens, Segment.tokensOf_eq, List.map_cons, separated_cons, hs]
        exact ⟨_, rfl⟩
      obtain ⟨ts, htokens⟩ := htokens
      exact Or.inl ⟨w, ts, htokens, hw⟩

theorem Path.IsWritten.exists_front {p : Path} (h : p.IsWritten) :
    (∃ w ts, p.tokens = .word w :: ts) ∨
      ∃ ts, p.tokens = .punct ':' true :: .punct ':' false :: ts := by
  rcases h.exists_cons with ⟨w, ts, hp, -⟩ | ⟨-, ts, hp⟩
  · exact Or.inl ⟨w, ts, hp⟩
  · exact Or.inr ⟨ts, hp⟩

theorem Path.IsWritten.noAngle {p : Path} (h : p.IsWritten) {rest : List Token} :
    startsOperator "<" (p.tokens ++ rest) = false := by
  rcases h.exists_front with ⟨w, ts, hp⟩ | ⟨ts, hp⟩ <;> rw [hp] <;> rfl

theorem IsSegment.startsTy {w : String} (h : IsSegment w) : StartsTy (.word w) :=
  .word (h.notMem (by decide))

theorem Path.IsWritten.starts {p : Path} (h : p.IsWritten) :
    ∃ t ts, p.tokens = t :: ts ∧ StartsTy t := by
  rcases h.exists_cons with ⟨w, ts, hp, hw⟩ | ⟨-, ts, hp⟩ <;> rw [hp]
  · exact ⟨_, ts, rfl, hw.startsTy⟩
  · exact ⟨_, _, rfl, .punct (by decide)⟩

theorem Ty.IsWritten.starts {ty : Ty} (h : ty.IsWritten) :
    ∃ t ts, ty.tokens = t :: ts ∧ StartsTy t := by
  cases h with
  | path h => exact h.starts
  | reference => exact ⟨_, _, rfl, .punct (by decide)⟩
  | pointer => exact ⟨_, _, rfl, .punct (by decide)⟩
  | slice => exact ⟨_, _, rfl, .group nofun⟩
  | array => exact ⟨_, _, rfl, .group nofun⟩
  | paren => exact ⟨_, _, rfl, .group nofun⟩
  | unit => exact ⟨_, _, rfl, .group nofun⟩
  | tuple => exact ⟨_, _, rfl, .group nofun⟩
  | never => exact ⟨_, _, rfl, .punct (by decide)⟩
  | infer => exact ⟨_, _, rfl, .word (by decide)⟩
  | dynTrait => exact ⟨_, _, rfl, .word (by decide)⟩
  | implTrait => exact ⟨_, _, rfl, .word (by decide)⟩
  | @bareTrait binder p more trailing hbinder hp =>
    obtain ⟨t, ts, hpath, ht⟩ := hp.starts
    rw [Ty.tokens, Bound.tokensOf, separated_cons, Bound.tokens, hpath]
    cases binder with
    | some b => exact ⟨_, _, rfl, .word (by decide)⟩
    | none => exact ⟨_, _, rfl, ht⟩

/-! ### What may follow -/

/-- The tokens that may come after a type. -/
inductive EndsTy : List Token → Prop
  | nil : EndsTy []
  | comma (joint : Bool) (rest : List Token) : EndsTy (.punct ',' joint :: rest)
  | close (joint : Bool) (rest : List Token) : EndsTy (.punct '>' joint :: rest)
  | equals (joint : Bool) (rest : List Token) : EndsTy (.punct '=' joint :: rest)
  | semicolon (joint : Bool) (rest : List Token) : EndsTy (.punct ';' joint :: rest)
  | block (body rest : List Token) : EndsTy (.group .brace body :: rest)

/-- The tokens that may come after a bound. -/
inductive EndsBound : List Token → Prop
  | ty {rest : List Token} (h : EndsTy rest) : EndsBound rest
  | plus (joint : Bool) (rest : List Token) : EndsBound (.punct '+' joint :: rest)

theorem Grammar.FollowsArg.endsTy {rest : List Token} (h : FollowsArg rest) : EndsTy rest := by
  cases h with
  | comma joint rest => exact .comma joint rest
  | close joint rest => exact .close joint rest

theorem EndsTy.noSum {rest : List Token} (h : EndsTy rest) : startsOperator "+" rest = false := by
  cases h <;> rfl

namespace EndsBound
variable {rest : List Token} (h : EndsBound rest)
include h

theorem endsPath : Grammar.EndsPath false rest := by
  cases h with
  | ty h => cases h <;> exact ⟨rfl, fun _ => rfl⟩
  | plus => exact ⟨rfl, fun _ => rfl⟩

theorem noMacro : startsMacroBody rest = false := by
  cases h with
  | ty h => cases h <;> rfl
  | plus => rfl

theorem noParen : startsGroup .paren rest = false := by
  cases h with
  | ty h => cases h <;> rfl
  | plus => rfl

theorem noArrow : startsOperator "->" rest = false := by
  cases h with
  | ty h => cases h <;> rfl
  | plus => rfl

end EndsBound

namespace Grammar

/-- All written types and paths of at most half so many tokens are read back. -/
structure ReadsTypes (g : Grammar) (n : Nat) : Prop where
  openTy {ty : Ty} (h : ty.IsWritten) (hn : 2 * Token.sizeList ty.tokens ≤ n) {rest : List Token}
    (hrest : EndsTy rest) : Yields (g.ty true) (ty.tokens ++ rest) ty rest
  closedTy {ty : Ty} (h : ty.IsWritten) (hn : 2 * Token.sizeList ty.tokens ≤ n)
    (hclosed : ty.isOpenSum = false) {rest : List Token} (hrest : EndsBound rest) :
    Yields (g.ty false) (ty.tokens ++ rest) ty rest
  path {p : Path} (h : p.IsWritten) (hn : 2 * Token.sizeList p.tokens ≤ n) {rest : List Token}
    (hrest : EndsPath false rest) : Yields g.path (p.tokens ++ rest) p rest
  expr {e : Expr} (h : PrintsExpr e) (hn : 2 * Token.sizeList e.tokens + 2 ≤ n) :
    Yields (g.expr true) e.tokens e []
  /-- Of a sum only the first bound is read where no sum may stand. -/
  openSum {ty : Ty} (h : ty.IsWritten) (hn : 2 * Token.sizeList ty.tokens ≤ n)
    (hopen : ty.isOpenSum = true) (rest : List Token) :
    ∃ left, Leaves (g.ty false) (ty.tokens ++ rest) (.punct '+' false :: left)

namespace ReadsTypes

variable {g : Grammar} {n : Nat} (hg : g.ReadsTypes n) {rest : List Token}
include hg

/-- **Types between commas in a group.** -/
theorem types {tys : List Ty} {trailing : Bool} (h : ∀ ty ∈ tys, ty.IsWritten)
    (hn : ∀ ty ∈ tys, 2 * Token.sizeList ty.tokens ≤ n) (htrailing : tys = [] → trailing = false) :
    Yields (commaList (g.ty true)) (separated "," trailing (Ty.tokensOf tys)) (tys, trailing)
      [] := by
  rw [Ty.tokensOf_eq]
  refine yields_commaList htrailing fun ty hty rest hrest => ?_
  obtain ⟨t, ts, htokens, -⟩ := (h ty hty).starts
  refine ⟨by rw [htokens]; exact List.cons_ne_nil _ _, hg.openTy (h ty hty) (hn ty hty) ?_⟩
  rcases hrest with rfl | ⟨ts, rfl⟩
  · exact .nil
  · exact .comma false ts

/-! ### Arguments in angle brackets -/

theorem genericArg {a : GenericArg} (h : a.IsWritten) (hn : 2 * Token.sizeList a.tokens ≤ n)
    (hrest : FollowsArg rest) : Yields g.genericArg (a.tokens ++ rest) a rest := by
  cases h with
  | @type ty h =>
    have hty := hg.openTy h hn hrest.endsTy
    obtain ⟨t, ts, htokens, ht⟩ := h.starts
    rw [GenericArg.tokens]
    rw [htokens] at hty ⊢
    exact g.yields_typeArg ht.noLifetime ht.noLiteral ht.noBrace hty hrest
  | const h =>
    cases h with
    | literal => exact fun _ => rfl
    | negative => exact fun _ => rfl
    | truth h => rcases h with rfl | rfl <;> exact fun _ => rfl
  | @assocType head ty hhead h =>
    simp only [GenericArg.tokens, Token.sizeList_append] at hn
    have hpath : (Ty.path (.plain (.mk false [head]))).IsWritten :=
      .path (.mk (List.cons_ne_nil _ _) fun s hs => by rwa [List.mem_singleton.mp hs])
    have hprinted : (Ty.path (.plain (.mk false [head]))).tokens = head.tokens := by
      simp [Ty.tokens, QualifiedPath.tokens, Path.tokens, Segment.tokensOf, separated, operatorIf]
    have hname := hg.openTy hpath (by rw [hprinted]; omega) (.equals false (ty.tokens ++ rest))
    have hty := hg.openTy h (by omega) hrest.endsTy
    obtain ⟨t, ts, htokens, ht⟩ := h.starts
    obtain ⟨w, tail, hhead', hw⟩ := hhead.exists_cons
    have hbinding : bindingHead? (.path (.plain (.mk false [head]))) = some head := by
      cases hhead <;> rfl
    rw [hprinted] at hname
    rw [GenericArg.tokens, List.append_assoc, List.append_assoc]
    rw [hhead', htokens] at hname ⊢
    rw [htokens] at hty
    unfold Grammar.genericArg
    refine (yields_rest _).bind (.ite_false rfl (.ite_false ?_ (hname.bind ?_)))
    · rw [List.cons_append, hw.noLiteral, Bool.false_or]
      rfl
    rw [hbinding]
    refine Yields.via true (t :: ts ++ rest) (fun _ => rfl) (.ite_pos rfl ?_)
    refine (yields_rest _).bind (.ite_false ?_ (hty.bind (yields_pure _ rest)))
    rw [List.cons_append, ht.noLiteral, ht.noBrace]
    rfl

/-- **Arguments in angle brackets.** -/
theorem angleArgs {lifetimes : List String} {args : List GenericArg} {trailing : Bool} (w : String)
    (turbofish : Bool) (h : ∀ a ∈ args, a.IsWritten)
    (hn : ∀ a ∈ args, 2 * Token.sizeList a.tokens ≤ n)
    (htrailing : lifetimes = [] → args = [] → trailing = false) :
    Yields (g.angleArgs w turbofish)
      (Token.operator "<" ++ separated "," trailing
        ((lifetimes.map GenericArg.lifetime ++ args).map GenericArg.tokens) ++
        Token.operator ">" ++ rest)
      (.angle w turbofish (lifetimes.map .lifetime ++ args) trailing) rest := by
  have hread (a : GenericArg) (ha : a ∈ lifetimes.map GenericArg.lifetime ++ args)
      (next : List Token) (hnext : next = Token.operator ">" ++ rest ∨
        ∃ ts, next = Token.operator "," ++ ts) :
      startsOperator ">" (a.tokens ++ next) = false ∧
        Yields g.genericArg (a.tokens ++ next) a next := by
    have hfollows : FollowsArg next := by
      rcases hnext with rfl | ⟨ts, rfl⟩
      · exact .close false rest
      · exact .comma false ts
    rcases List.mem_append.mp ha with ha | ha
    · obtain ⟨name, -, rfl⟩ := List.mem_map.mp ha
      refine ⟨rfl, ?_⟩
      unfold Grammar.genericArg
      refine (yields_rest _).bind (.ite_pos ?_ fun _ => rfl)
      show (true && !startsOperator "+" next) = true
      rw [hfollows.noSum]
      rfl
    · refine ⟨?_, hg.genericArg (h a ha) (hn a ha) hfollows⟩
      cases h a ha with
      | type h =>
        obtain ⟨t, ts, htokens, ht⟩ := h.starts
        rw [GenericArg.tokens, htokens, List.cons_append]
        exact ht.noOperator (by decide)
      | const h => cases h <;> rfl
      | assocType hhead =>
        obtain ⟨w, ts, htokens, -⟩ := hhead.exists_cons
        rw [GenericArg.tokens, htokens]
        rfl
  have hargs : Yields (listUntil (startsOperator ">") "," g.genericArg)
      (separated "," trailing
        ((lifetimes.map GenericArg.lifetime ++ args).map GenericArg.tokens) ++
        (Token.operator ">" ++ rest))
      (lifetimes.map .lifetime ++ args, trailing) (Token.operator ">" ++ rest) := by
    refine yields_listUntil (by decide) (fun _ => rfl) rfl (fun hnil => ?_) hread
    obtain ⟨hlifetimes, hargs⟩ := List.append_eq_nil_iff.mp hnil
    exact htrailing (List.map_eq_nil_iff.mp hlifetimes) hargs
  rw [List.append_assoc, List.append_assoc]
  refine (yields_operator "<" _).bind (hargs.bind ?_)
  exact (yields_operator ">" rest).bind (yields_pure _ rest)

/-! ### Paths -/

/-- A segment is read up to what cannot belong to it. -/
theorem segment {s : Segment} (h : s.IsWritten) (hn : 2 * Token.sizeList s.tokens ≤ n + 2)
    (hargs : startsArgs rest = false) (hfish : startsTurbofish rest = false) :
    Yields (g.segment false) (s.tokens ++ rest) s rest := by
  cases h with
  | plain h => exact g.yields_segment h (fun _ => hargs) hfish
  | @angle w turbofish trailing lifetimes args h hw hall htrailing =>
    have hlifetimes : GenericArg.tokensOf (lifetimes.map .lifetime ++ args) =
        (lifetimes.map (GenericArg.tokens ∘ .lifetime)).map (true, ·) ++
          (args.map GenericArg.tokens).map (false, ·) := by
      rw [GenericArg.tokensOf_eq, List.map_append, List.map_map, List.map_map, List.map_map]
      refine congrArg _ (List.map_congr_left fun a ha => ?_)
      cases hall a ha <;> rfl
    have hprinted : (Segment.angle w turbofish (lifetimes.map .lifetime ++ args) trailing).tokens =
        .word w :: (operatorIf turbofish "::" ++ (Token.operator "<" ++ separated "," trailing
          ((lifetimes.map GenericArg.lifetime ++ args).map GenericArg.tokens) ++
          Token.operator ">")) := by
      rw [Segment.tokens, hlifetimes, angleTokens_sorted, List.map_append, List.map_map]
      simp [wordToken]
    have hsize (a : GenericArg) (ha : a ∈ args) : 2 * Token.sizeList a.tokens ≤ n := by
      have hmem : a.tokens ∈ (lifetimes.map GenericArg.lifetime ++ args).map GenericArg.tokens :=
        List.mem_map_of_mem (List.mem_append_right _ ha)
      have hle := sizeList_le_separated "," trailing hmem
      rw [hprinted] at hn
      simp only [Token.sizeList_word, Token.sizeList_append] at hn
      omega
    rw [hprinted, List.cons_append, List.append_assoc]
    refine g.yields_segment_of h hw ((yields_rest _).bind ?_)
    cases turbofish with
    | false => exact .ite_pos rfl (hg.angleArgs w false hall hsize htrailing)
    | true =>
      refine .ite_false rfl (.ite_pos rfl ((yields_operator "::" _).bind ?_))
      exact hg.angleArgs w true hall hsize htrailing

/-- The tokens of further segments of a path. -/
def segmentsTokens (segments : List Segment) : List Token :=
  (segments.map Segment.tokens).flatMap (Token.operator "::" ++ ·)

omit hg in
/-- A segment ends before further segments and before what ends the path. -/
theorem endsSegment {segments : List Segment} (h : ∀ s ∈ segments, s.IsWritten)
    (hend : EndsPath false rest) : startsArgs (segmentsTokens segments ++ rest) = false ∧
      startsTurbofish (segmentsTokens segments ++ rest) = false := by
  cases segments with
  | nil =>
    refine ⟨hend.noArgs rfl, ?_⟩
    show (startsOperator "::" rest && _) = false
    rw [hend.noMore, Bool.false_and]
  | cons s segments =>
    obtain ⟨w, ts, hs, -⟩ := (h s List.mem_cons_self).exists_cons
    rw [segmentsTokens, List.map_cons, List.flatMap_cons, hs]
    exact ⟨rfl, rfl⟩

theorem repeats_segments {segments : List Segment} (h : ∀ s ∈ segments, s.IsWritten)
    (hn : ∀ s ∈ segments, 2 * Token.sizeList s.tokens ≤ n + 2) (hend : EndsPath false rest)
    (before : List Segment) : Repeats (g.segmentStep false) (segmentsTokens segments ++ rest) before
      rest (before ++ segments) := by
  induction segments generalizing before with
  | nil =>
    rw [List.append_nil]
    exact .done
  | cons s segments ih =>
    have hmore := ih (fun s hs => h s (List.mem_cons_of_mem _ hs))
      (fun s hs => hn s (List.mem_cons_of_mem _ hs)) (before ++ [s])
    have hafter := endsSegment (fun s hs => h s (List.mem_cons_of_mem _ hs)) hend
    have hs := hg.segment (h s List.mem_cons_self) (hn s List.mem_cons_self) hafter.1 hafter.2
    obtain ⟨w, ts, htokens, -⟩ := (h s List.mem_cons_self).exists_cons
    have hstart : segmentsTokens (s :: segments) ++ rest =
        Token.operator "::" ++ (s.tokens ++ (segmentsTokens segments ++ rest)) := by
      simp [segmentsTokens]
    have hstep : Yields (g.segmentStep false (before))
        (Token.operator "::" ++ (s.tokens ++ (segmentsTokens segments ++ rest)))
        (some (before ++ [s])) (segmentsTokens segments ++ rest) := by
      refine (yields_rest _).bind (.ite_pos ?_ ?_)
      · rw [htokens]
        rfl
      · exact (yields_operator "::" _).bind (hs.bind (yields_pure _ _))
    rw [List.append_assoc, List.singleton_append] at hmore
    rw [hstart]
    refine .next hstep ?_ hmore
    have hlength : (Token.operator "::").length = 2 := rfl
    simp only [List.length_append, hlength]
    omega

/-- **A path is read up to what cannot belong to it.** -/
theorem plainPath {p : Path} (h : p.IsWritten) (hn : 2 * Token.sizeList p.tokens ≤ n + 2)
    (hend : EndsPath false rest) : Yields (g.plainPath false) (p.tokens ++ rest) p rest := by
  cases h with
  | @mk isGlobal segments hne h =>
    obtain ⟨s, segments, rfl⟩ := List.exists_cons_of_ne_nil hne
    have hsize (x : Segment) (hx : x ∈ s :: segments) : 2 * Token.sizeList x.tokens ≤ n + 2 := by
      have hle := sizeList_le_separated "::" false (List.mem_map_of_mem (f := Segment.tokens) hx)
      rw [Path.tokens, Segment.tokensOf_eq, Token.sizeList_append] at hn
      omega
    have hmore (x : Segment) (hx : x ∈ segments) := h x (List.mem_cons_of_mem s hx)
    have hafter := endsSegment hmore hend
    have hs := hg.segment (h s List.mem_cons_self) (hsize s List.mem_cons_self) hafter.1 hafter.2
    have hall := hg.repeats_segments hmore (fun x hx => hsize x (List.mem_cons_of_mem s hx)) hend [s]
    have hstart : (Path.mk isGlobal (s :: segments)).tokens ++ rest =
        operatorIf isGlobal "::" ++ (s.tokens ++ (segmentsTokens segments ++ rest)) := by
      rw [Path.tokens, Segment.tokensOf_eq, List.map_cons, separated_cons]
      simp [segmentsTokens, operatorIf]
    have hpath : Yields (do
        let first ← g.segment false
        return Path.mk isGlobal (← g.moreSegments false first))
        (s.tokens ++ (segmentsTokens segments ++ rest)) (.mk isGlobal (s :: segments)) rest :=
      hs.bind ((hall.iterate (g.yields_segmentStep_none hend _)).bind (yields_pure _ rest))
    rw [hstart]
    cases isGlobal with
    | true => exact (yields_operator? "::" _).bind hpath
    | false =>
      obtain ⟨w, ts, htokens, -⟩ := (h s List.mem_cons_self).exists_cons
      refine (yields_operator?_false ?_).bind hpath
      rw [htokens]
      rfl

/-! ### Bounds -/

omit hg in
theorem yields_binder? {binder : Option Binder} (h : ∀ b ∈ binder, b.IsWritten)
    (hrest : startsWord "for" rest = false) :
    Yields binder? (binderTokens binder ++ rest) binder rest := by
  cases binder with
  | none => exact (yields_peek _ _).bind (.ite_false hrest (yields_pure _ _))
  | some b =>
    have hlifetimes : Yields (listUntil (startsOperator ">") "," lifetime)
        (separated "," b.trailing (b.lifetimes.map fun name => [.lifetime name]) ++
          (Token.operator ">" ++ rest)) (b.lifetimes, b.trailing) (Token.operator ">" ++ rest) :=
      yields_listUntil (by decide) (fun _ => rfl) rfl (h b rfl) fun _ _ _ _ => ⟨rfl, fun _ => rfl⟩
    have hbinder : Yields Grammar.binder (b.tokens ++ rest) b rest := by
      rw [Binder.tokens, List.append_assoc, List.append_assoc, List.append_assoc]
      refine Yields.via () (Token.operator "<" ++ _) (fun _ => rfl) ((yields_operator "<" _).bind ?_)
      exact hlifetimes.bind ((yields_operator ">" rest).bind (yields_pure _ rest))
    exact (yields_peek _ _).bind (.ite_pos rfl (hbinder.bind (yields_pure _ rest)))

end ReadsTypes

/-- A bound without the parentheses around it. -/
def innerBound (g : Grammar) (isParen : Bool) : Parser Bound := do
  let binder ← binder?
  let isMaybe ← operator? "?"
  let .mk isGlobal segments ← g.path
  match segments.reverse with
  | .plain name :: before =>
    let direct ← peek (startsGroup .paren)
    let behind := startsOperator "::" (← rest) && startsGroup .paren ((← rest).drop 2)
    if direct || behind then
      let _ ← operator? "::"
      let last ← g.parenArgs name
      return .trait isParen isMaybe binder (.mk isGlobal (before.reverse ++ [last]))
    else return .trait isParen isMaybe binder (.mk isGlobal segments)
  | _ => return .trait isParen isMaybe binder (.mk isGlobal segments)

/-- The tokens of a bound without the parentheses around it. -/
def innerTokens (binder : Option Binder) (isMaybe : Bool) (p : Path) : List Token :=
  binderTokens binder ++ (operatorIf isMaybe "?" ++ p.tokens)

theorem tokens_function (isGlobal : Bool) (before : List Segment) (w : String) (inputs : List Ty)
    (trailing : Bool) (output : Option Ty) :
    (Path.mk isGlobal (before ++ [.paren w inputs trailing output])).tokens =
      (Path.mk isGlobal (before ++ [.plain w])).tokens ++
        .group .paren (separated "," trailing (Ty.tokensOf inputs)) :: outputTokens output := by
  have hlast : (Segment.paren w inputs trailing output).tokens = (Segment.plain w).tokens ++
      .group .paren (separated "," trailing (Ty.tokensOf inputs)) :: outputTokens output := by
    cases output <;> rfl
  simp only [Path.tokens, Segment.tokensOf_eq, List.map_append, List.map_singleton, hlast,
    separated_append_last, List.append_assoc]

/-- A bound with a path starts neither as a lifetime nor with parentheses. -/
theorem innerTokens_front {p : Path} (h : (∃ w ts, p.tokens = .word w :: ts) ∨
    ∃ ts, p.tokens = .punct ':' true :: .punct ':' false :: ts) (binder : Option Binder)
    (isMaybe : Bool) (rest : List Token) :
    startsLifetime (innerTokens binder isMaybe p ++ rest) = false ∧
      startsGroup .paren (innerTokens binder isMaybe p ++ rest) = false ∧
      startsBound (innerTokens binder isMaybe p ++ rest) = true := by
  cases binder with
  | some b => exact ⟨rfl, rfl, rfl⟩
  | none =>
    cases isMaybe with
    | true => exact ⟨rfl, rfl, rfl⟩
    | false =>
      rcases h with ⟨w, ts, hp⟩ | ⟨ts, hp⟩ <;> rw [innerTokens, hp] <;> exact ⟨rfl, rfl, rfl⟩

theorem sizeList_path_le (isParen isMaybe : Bool) (binder : Option Binder) (p : Path) :
    Token.sizeList p.tokens ≤ Token.sizeList (Bound.trait isParen isMaybe binder p).tokens := by
  rw [Bound.tokens]
  cases isParen <;> simp only [if_true, if_false, Bool.false_eq_true, Token.sizeList_append,
    Token.sizeList_group, Token.sizeList_nil] <;> omega

/-- What may stand before the path of a bound is read. -/
theorem yields_marks {p : Path} (h : p.IsWritten) (isMaybe : Bool) (rest : List Token) :
    startsWord "for" (operatorIf isMaybe "?" ++ (p.tokens ++ rest)) = false ∧
      Yields (operator? "?") (operatorIf isMaybe "?" ++ (p.tokens ++ rest)) isMaybe
        (p.tokens ++ rest) := by
  cases isMaybe with
  | true => exact ⟨rfl, yields_operator? "?" _⟩
  | false =>
    rcases h.exists_cons with ⟨w, ts, hp, hw⟩ | ⟨-, ts, hp⟩
    · rw [hp]
      exact ⟨startsWord_eq_false (hw.ne (by decide) (by decide)), yields_operator?_false rfl⟩
    · rw [hp]
      exact ⟨rfl, yields_operator?_false rfl⟩

namespace ReadsTypes

variable {g : Grammar} {n : Nat} (hg : g.ReadsTypes n) {rest : List Token}
include hg

/-- **A bound with a path behind its marks.** -/
theorem innerBound_trait {binder : Option Binder} {p : Path} (isParen isMaybe : Bool)
    (hbinder : ∀ b ∈ binder, b.IsWritten) (hp : p.IsWritten)
    (hn : 2 * Token.sizeList p.tokens ≤ n) (hrest : EndsBound rest) :
    Yields (g.innerBound isParen) (innerTokens binder isMaybe p ++ rest)
      (.trait isParen isMaybe binder p) rest := by
  have hpath := hg.path hp hn hrest.endsPath
  obtain ⟨hfor, hmaybe⟩ := yields_marks hp isMaybe rest
  rw [innerTokens, List.append_assoc, List.append_assoc]
  refine (yields_binder? hbinder hfor).bind (hmaybe.bind (hpath.bind ?_))
  obtain ⟨isGlobal, segments⟩ := p
  dsimp only
  split
  · refine (yields_peek _ rest).bind ((yields_rest rest).bind ((yields_rest rest).bind ?_))
    refine .ite_false ?_ (yields_pure _ rest)
    rw [hrest.noParen, hrest.endsPath.noMore]
    rfl
  · exact yields_pure _ rest

/-- Arguments in parentheses, and a result if there is one. -/
theorem parenArgs {inputs : List Ty} {trailing : Bool} {output : Option Ty} (w : String)
    (h : ∀ ty ∈ inputs, ty.IsWritten) (hn : ∀ ty ∈ inputs, 2 * Token.sizeList ty.tokens ≤ n)
    (htrailing : inputs = [] → trailing = false) (houtput : ∀ ty ∈ output, ty.IsWritten)
    (hclosed : ∀ ty ∈ output, ty.isOpenSum = false)
    (hnOutput : 2 * Token.sizeList (outputTokens output) ≤ n) (hrest : EndsBound rest) :
    Yields (g.parenArgs w) (.group .paren (separated "," trailing (Ty.tokensOf inputs)) ::
      (outputTokens output ++ rest)) (.paren w inputs trailing output) rest := by
  unfold Grammar.parenArgs
  refine (Yields.inGroup (hg.types h hn htrailing)).bind ?_
  cases output with
  | none =>
    refine (yields_operator?_false hrest.noArrow).bind (.ite_false rfl ?_)
    exact (yields_pure _ rest).bind (yields_pure _ rest)
  | some ty =>
    rw [outputTokens, Token.sizeList_append] at hnOutput
    have hty := hg.closedTy (houtput ty rfl) (by omega) (hclosed ty rfl) hrest
    rw [outputTokens, List.append_assoc]
    refine (yields_operator? "->" _).bind (.ite_pos rfl ?_)
    exact (hty.map some).bind (yields_pure _ rest)

/-- **A bound on functions.** -/
theorem innerBound_function {binder : Option Binder} {isGlobal : Bool} {before : List Segment}
    {w : String} {inputs : List Ty} {trailing : Bool} {output : Option Ty} (isParen isMaybe : Bool)
    (hbinder : ∀ b ∈ binder, b.IsWritten)
    (hp : (Path.mk isGlobal (before ++ [.plain w])).IsWritten)
    (hinputs : ∀ ty ∈ inputs, ty.IsWritten) (htrailing : inputs = [] → trailing = false)
    (houtput : ∀ ty ∈ output, ty.IsWritten) (hclosed : ∀ ty ∈ output, ty.isOpenSum = false)
    (hn : 2 * Token.sizeList
      (Path.mk isGlobal (before ++ [.paren w inputs trailing output])).tokens ≤ n)
    (hrest : EndsBound rest) :
    Yields (g.innerBound isParen)
      (innerTokens binder isMaybe (.mk isGlobal (before ++ [.paren w inputs trailing output])) ++ rest)
      (.trait isParen isMaybe binder (.mk isGlobal (before ++ [.paren w inputs trailing output])))
      rest := by
  have hprinted := tokens_function isGlobal before w inputs trailing output
  have hsize (ty : Ty) (hty : ty ∈ inputs) : Token.sizeList ty.tokens ≤
      Token.sizeList (separated "," trailing (Ty.tokensOf inputs)) := by
    rw [Ty.tokensOf_eq]
    exact sizeList_le_separated "," trailing (List.mem_map_of_mem hty)
  rw [hprinted, Token.sizeList_append, Token.sizeList_group] at hn
  have hlast := hg.parenArgs w hinputs (fun ty hty => by have := hsize ty hty; omega) htrailing
    houtput hclosed (by omega) hrest
  have hpath := hg.path hp (by omega)
    (⟨rfl, fun _ => rfl⟩ : EndsPath false (.group .paren (separated "," trailing
      (Ty.tokensOf inputs)) :: (outputTokens output ++ rest)))
  obtain ⟨hfor, hmaybe⟩ := yields_marks hp isMaybe (.group .paren (separated "," trailing
      (Ty.tokensOf inputs)) :: (outputTokens output ++ rest))
  rw [innerTokens, hprinted]
  simp only [List.append_assoc, List.cons_append]
  refine (yields_binder? hbinder hfor).bind (hmaybe.bind (hpath.bind ?_))
  have hreverse : (before ++ [Segment.plain w]).reverse = .plain w :: before.reverse := by
    rw [List.reverse_append, List.reverse_singleton, List.singleton_append]
  dsimp only
  rw [hreverse]
  refine (yields_peek _ _).bind ((yields_rest _).bind ((yields_rest _).bind (.ite_pos rfl ?_)))
  refine (yields_operator?_false rfl).bind (hlast.bind ?_)
  rw [List.reverse_reverse]
  exact yields_pure _ rest

/-- **A bound is read up to what cannot belong to it.** -/
theorem bound {b : Bound} (h : b.IsWritten) (hn : 2 * Token.sizeList b.tokens ≤ n)
    (hrest : EndsBound rest) : Yields g.bound (b.tokens ++ rest) b rest := by
  have hbound {binder : Option Binder} {p : Path} {isParen isMaybe : Bool}
      (hfront : (∃ w ts, p.tokens = .word w :: ts) ∨
        ∃ ts, p.tokens = .punct ':' true :: .punct ':' false :: ts)
      (hinner : ∀ rest, EndsBound rest → Yields (g.innerBound isParen)
        (innerTokens binder isMaybe p ++ rest) (.trait isParen isMaybe binder p) rest) :
      Yields g.bound ((Bound.trait isParen isMaybe binder p).tokens ++ rest)
        (.trait isParen isMaybe binder p) rest := by
    have hprinted : (Bound.trait isParen isMaybe binder p).tokens =
        if isParen then [.group .paren (innerTokens binder isMaybe p)]
        else innerTokens binder isMaybe p := by
      rw [Bound.tokens, innerTokens, ← List.append_assoc]
    rw [hprinted]
    unfold Grammar.bound
    cases isParen with
    | true =>
      have hbody := hinner [] (.ty .nil)
      rw [List.append_nil] at hbody
      refine Yields.via none (.group .paren (innerTokens binder isMaybe p) :: rest)
        (yields_lifetime?_none rfl) ?_
      exact (yields_peek _ _).bind (.ite_pos rfl (Yields.inGroup hbody))
    | false =>
      obtain ⟨hlifetime, hparen, -⟩ := innerTokens_front hfront binder isMaybe rest
      refine Yields.via none (innerTokens binder isMaybe p ++ rest)
        (yields_lifetime?_none hlifetime) ((yields_peek _ _).bind ?_)
      rw [hparen]
      exact .ite_false rfl (hinner rest hrest)
  cases h with
  | lifetime name => exact fun _ => rfl
  | @trait binder p isParen isMaybe hbinder hp =>
    have hsize := sizeList_path_le isParen isMaybe binder p
    exact hbound hp.exists_front fun rest hrest =>
      hg.innerBound_trait isParen isMaybe hbinder hp (by omega) hrest
  | @function binder isGlobal before w inputs trailing output isParen isMaybe hbinder hp hinputs
      htrailing houtput hclosed =>
    have hsize := sizeList_path_le isParen isMaybe binder
      (.mk isGlobal (before ++ [.paren w inputs trailing output]))
    refine hbound ?_ fun rest hrest => hg.innerBound_function isParen isMaybe hbinder hp hinputs
      htrailing houtput hclosed (by omega) hrest
    rw [tokens_function]
    rcases hp.exists_front with ⟨w, ts, hp⟩ | ⟨ts, hp⟩ <;> rw [hp]
    · exact Or.inl ⟨_, _, rfl⟩
    · exact Or.inr ⟨_, rfl⟩

end ReadsTypes

/-! ### Sums -/

theorem startsBound_of_isWritten {b : Bound} (h : b.IsWritten) (rest : List Token) :
    startsBound (b.tokens ++ rest) = true := by
  have hbound {binder : Option Binder} {p : Path} (isParen isMaybe : Bool)
      (hfront : (∃ w ts, p.tokens = .word w :: ts) ∨
        ∃ ts, p.tokens = .punct ':' true :: .punct ':' false :: ts) :
      startsBound ((Bound.trait isParen isMaybe binder p).tokens ++ rest) = true := by
    rw [Bound.tokens]
    cases isParen with
    | true => rfl
    | false =>
      have hstarts := (innerTokens_front hfront binder isMaybe rest).2.2
      rwa [innerTokens, ← List.append_assoc (binderTokens binder)] at hstarts
  cases h with
  | lifetime => rfl
  | trait isParen isMaybe hbinder hp => exact hbound isParen isMaybe hp.exists_front
  | function isParen isMaybe hbinder hp =>
    refine hbound isParen isMaybe ?_
    rw [tokens_function]
    rcases hp.exists_front with ⟨w, ts, hp⟩ | ⟨ts, hp⟩ <;> rw [hp]
    · exact Or.inl ⟨_, _, rfl⟩
    · exact Or.inr ⟨_, rfl⟩

/-- One more bound of a sum. -/
def boundStep (g : Grammar) : List Bound × Bool → Parser (Option (List Bound × Bool)) :=
  fun (bounds, trailing) => do
    if trailing then return none
    else if ← operator? "+" then
      if ← peek startsBound then return some (bounds ++ [← g.bound], false)
      else return some (bounds, true)
    else return none

/-- The tokens of further bounds, each behind its `+`. -/
def boundsTokens (bounds : List Bound) : List Token :=
  (bounds.map Bound.tokens).flatMap (Token.operator "+" ++ ·)

/-- A bound ends before further bounds and before what ends the sum. -/
theorem endsBound_boundsTokens {rest : List Token} (hrest : EndsBound rest) :
    ∀ bounds, EndsBound (boundsTokens bounds ++ rest)
  | [] => hrest
  | _ :: _ => .plus false _

namespace ReadsTypes

variable {g : Grammar} {n : Nat} (hg : g.ReadsTypes n) {rest : List Token}
include hg

theorem repeats_bounds {bounds : List Bound} (h : ∀ b ∈ bounds, b.IsWritten)
    (hn : ∀ b ∈ bounds, 2 * Token.sizeList b.tokens ≤ n) (hrest : EndsBound rest)
    (before : List Bound) : Repeats g.boundStep (boundsTokens bounds ++ rest) (before, false) rest
      (before ++ bounds, false) := by
  induction bounds generalizing before with
  | nil =>
    rw [List.append_nil]
    exact .done
  | cons b bounds ih =>
    have hmore := ih (fun b hb => h b (List.mem_cons_of_mem _ hb))
      (fun b hb => hn b (List.mem_cons_of_mem _ hb)) (before ++ [b])
    have hb := hg.bound (h b List.mem_cons_self) (hn b List.mem_cons_self)
      (endsBound_boundsTokens hrest bounds)
    have hstart : boundsTokens (b :: bounds) ++ rest =
        Token.operator "+" ++ (b.tokens ++ (boundsTokens bounds ++ rest)) := by
      simp [boundsTokens]
    have hstep : Yields (g.boundStep (before, false))
        (Token.operator "+" ++ (b.tokens ++ (boundsTokens bounds ++ rest)))
        (some (before ++ [b], false)) (boundsTokens bounds ++ rest) := by
      refine Yields.bind (p := operator? "+") (yields_operator? "+" _) (.ite_pos rfl ?_)
      refine (yields_peek _ _).bind (.ite_pos ?_ (hb.bind (yields_pure _ _)))
      exact startsBound_of_isWritten (h b List.mem_cons_self) _
    rw [List.append_assoc, List.singleton_append] at hmore
    rw [hstart]
    refine .next hstep ?_ hmore
    have hlength : (Token.operator "+").length = 1 := rfl
    simp only [List.length_append, hlength]
    omega

/-- **A sum is read after its first bound.** -/
theorem moreBounds {more : List Bound} (first : Bound) (trailing : Bool)
    (h : ∀ b ∈ more, b.IsWritten) (hn : ∀ b ∈ more, 2 * Token.sizeList b.tokens ≤ n)
    (hrest : EndsTy rest) : Yields (g.moreBounds first)
      (boundsTokens more ++ (operatorIf trailing "+" ++ rest)) (first :: more, trailing) rest := by
  cases trailing with
  | false =>
    have hstop : Yields (g.boundStep ([first] ++ more, false)) rest none rest :=
      Yields.bind (p := operator? "+") (yields_operator?_false hrest.noSum)
        (.ite_false rfl (yields_pure _ rest))
    exact ((hg.repeats_bounds h hn (.ty hrest) [first]).iterate hstop).bind (yields_pure _ rest)
  | true =>
    have hbound : startsBound rest = false := by cases hrest <;> rfl
    have hplus : Yields (g.boundStep ([first] ++ more, false)) (Token.operator "+" ++ rest)
        (some ([first] ++ more, true)) rest := by
      refine Yields.bind (p := operator? "+") (yields_operator? "+" _) (.ite_pos rfl ?_)
      exact (yields_peek _ rest).bind (.ite_false hbound (yields_pure _ rest))
    have hall := (hg.repeats_bounds h hn (.plus false rest) [first]).snoc hplus (Nat.lt_succ_self _)
    exact (hall.iterate fun _ => rfl).bind (yields_pure _ rest)

/-- **The bounds behind `dyn` and `impl`.** Where no sum is allowed, only the first one is read. -/
theorem traitBounds {first : Bound} {more : List Bound} {trailing : Bool} (subject : String)
    (h : ∀ b ∈ first :: more, b.IsWritten)
    (hn : ∀ b ∈ first :: more, 2 * Token.sizeList b.tokens ≤ n)
    (htrait : hasTrait (first :: more) = true) (hrest : EndsTy rest) :
    Yields (g.traitBounds true subject)
      (first.tokens ++ (boundsTokens more ++ (operatorIf trailing "+" ++ rest)))
      (first :: more, trailing) rest := by
  have hends : EndsBound (boundsTokens more ++ (operatorIf trailing "+" ++ rest)) := by
    refine endsBound_boundsTokens ?_ more
    cases trailing with
    | true => exact .plus false rest
    | false => exact .ty hrest
  have hfirst := hg.bound (h first List.mem_cons_self) (hn first List.mem_cons_self) hends
  have hmore := hg.moreBounds first trailing (fun b hb => h b (List.mem_cons_of_mem _ hb))
    (fun b hb => hn b (List.mem_cons_of_mem _ hb)) hrest
  have hbounds : Yields (g.bounds true)
      (first.tokens ++ (boundsTokens more ++ (operatorIf trailing "+" ++ rest)))
      (first :: more, trailing) rest := hfirst.bind (.ite_pos rfl hmore)
  unfold Grammar.traitBounds
  exact hbounds.bind (.ite_pos htrait (yields_pure _ rest))

theorem traitBounds_one {b : Bound} (subject : String) (h : b.IsWritten)
    (hn : 2 * Token.sizeList b.tokens ≤ n) (htrait : hasTrait [b] = true) (hrest : EndsBound rest) :
    Yields (g.traitBounds false subject) (b.tokens ++ rest) ([b], false) rest := by
  have hbounds : Yields (g.bounds false) (b.tokens ++ rest) ([b], false) rest :=
    (hg.bound h hn hrest).bind (.ite_false rfl (yields_pure _ rest))
  unfold Grammar.traitBounds
  exact hbounds.bind (.ite_pos htrait (yields_pure _ rest))

/-! ### Types -/

section
variable {allowPlus : Bool}

omit hg in
/-- What starts with a path, maybe behind its own lifetimes, is a type. -/
theorem parseTy_ofPath {p : Path} (binder : Option Binder) {ty : Ty} {tail : List Token}
    (hbinder : ∀ b ∈ binder, b.IsWritten) (hp : p.IsWritten)
    (hglobal : binder.isSome = true → p.isGlobal = false)
    (hty : Yields (g.pathTy binder allowPlus) (p.tokens ++ tail) ty rest) :
    Yields (g.parseTy allowPlus) (binderTokens binder ++ (p.tokens ++ tail)) ty rest := by
  rcases hp.exists_cons with ⟨w, ts, hp, hw⟩ | ⟨hcolons, ts, hp⟩ <;> rw [hp] at hty ⊢
  ·
    exact g.yields_parseTy_word hw (yields_binder? hbinder
      (startsWord_eq_false (hw.ne (by decide) (by decide)))) hty
  · cases binder with
    | some b => rw [hglobal rfl] at hcolons; cases hcolons
    | none =>
      unfold Grammar.parseTy
      refine Yields.via none (.punct ':' true :: .punct ':' false :: (ts ++ tail)) (fun _ => rfl) ?_
      refine (yields_rest _).bind (.ite_false rfl (.ite_false rfl (.ite_false rfl ?_)))
      exact .ite_pos rfl hty

theorem parseTy_path {p : Path} (h : p.IsWritten) (hn : 2 * Token.sizeList p.tokens ≤ n + 1)
    (hrest : EndsBound rest) (hplus : allowPlus = true → EndsTy rest) :
    Yields (g.parseTy allowPlus) (p.tokens ++ rest) (.path (.plain p)) rest := by
  have hpath := hg.plainPath h (by omega) hrest.endsPath
  have hsum : (allowPlus && startsOperator "+" rest) = false := by
    cases allowPlus with
    | true => exact (hplus rfl).noSum
    | false => rfl
  exact parseTy_ofPath none nofun h nofun (g.yields_pathTy h.noAngle hpath hrest.noMacro hsum)

omit hg in
/-- What is read after the mark of a reference. -/
theorem run_parseTy_reference (g : Grammar) (allowPlus : Bool) (tokens : List Token)
    (unread : Option Delimiter) :
    (g.parseTy allowPlus).run ⟨.punct '&' false :: tokens, unread⟩ =
      (do
        let lifetime ← lifetime?
        let isMut ← word? "mut"
        return .reference lifetime isMut (← g.ty false) : Parser Ty).run ⟨tokens, unread⟩ := rfl

omit hg in
/-- A reference may have a lifetime and `mut` before its type. -/
theorem yields_referenceMarks {target : Ty} (lifetime : Option String) (isMut : Bool)
    (h : target.IsWritten) (rest : List Token) :
    Yields lifetime? (lifetimeTokens lifetime ++ (wordIf isMut "mut" ++ (target.tokens ++ rest)))
      lifetime (wordIf isMut "mut" ++ (target.tokens ++ rest)) ∧
    Yields (word? "mut") (wordIf isMut "mut" ++ (target.tokens ++ rest)) isMut
      (target.tokens ++ rest) := by
  obtain ⟨t, ts, htokens, ht⟩ := h.starts
  rw [htokens]
  constructor
  · cases lifetime with
    | some name => exact fun _ => rfl
    | none =>
      refine yields_lifetime?_none ?_
      cases isMut with
      | true => rfl
      | false => exact ht.noLifetime
  · cases isMut with
    | true => exact fun _ => rfl
    | false => exact yields_word?_false ht.noMut

theorem parseTy_reference {target : Ty} (lifetime : Option String) (isMut : Bool)
    (h : target.IsWritten) (hn : 2 * Token.sizeList target.tokens ≤ n)
    (hclosed : target.isOpenSum = false) (hrest : EndsBound rest) :
    Yields (g.parseTy allowPlus) ((Ty.reference lifetime isMut target).tokens ++ rest)
      (.reference lifetime isMut target) rest := by
  obtain ⟨hlifetime, hmut⟩ := yields_referenceMarks lifetime isMut h rest
  have hty := hg.closedTy h hn hclosed hrest
  rw [Ty.tokens]
  simp only [List.append_assoc]
  exact .of_run (run_parseTy_reference g allowPlus _)
    (hlifetime.bind (hmut.bind (hty.bind (yields_pure _ rest))))

/-- **Of an open sum behind the mark of a reference only the first bound is read.** -/
theorem leaves_sharedSum {target : Ty} (h : target.IsWritten)
    (hn : 2 * Token.sizeList target.tokens ≤ n) (hopen : target.isOpenSum = true)
    (rest : List Token) :
    ∃ left, Leaves (g.parseTy allowPlus) (target.shared.tokens ++ rest)
      (.punct '+' false :: left) := by
  obtain ⟨left, hty⟩ := hg.openSum h hn hopen rest
  obtain ⟨hlifetime, hmut⟩ := yields_referenceMarks none false h rest
  rw [Ty.shared, Ty.tokens]
  simp only [List.append_assoc]
  exact ⟨left, .of_run (run_parseTy_reference g allowPlus _) (hlifetime.bind_leaves
    (hmut.bind_leaves (hty.bind fun _ => leaves_pure _ _)))⟩

theorem parseTy_pointer {target : Ty} (isMut : Bool) (h : target.IsWritten)
    (hn : 2 * Token.sizeList target.tokens ≤ n) (hclosed : target.isOpenSum = false)
    (hrest : EndsBound rest) : Yields (g.parseTy allowPlus)
      ((Ty.pointer isMut target).tokens ++ rest) (.pointer isMut target) rest := by
  have hty := hg.closedTy h hn hclosed hrest
  rw [Ty.tokens]
  simp only [List.append_assoc]
  unfold Grammar.parseTy
  refine Yields.via none (Token.operator "*" ++ _) (fun _ => rfl) ?_
  refine (yields_rest _).bind (.ite_false rfl (.ite_false rfl (.ite_false rfl (.ite_false rfl ?_))))
  refine .ite_false rfl (.ite_false rfl ((yields_operator? "*" _).bind (.ite_pos rfl ?_)))
  cases isMut with
  | true =>
    refine (yields_word?_false rfl).bind (.ite_false rfl ?_)
    exact Yields.via true (target.tokens ++ rest) (fun _ => rfl)
      (.ite_pos rfl (hty.bind (yields_pure _ rest)))
  | false =>
    exact Yields.via true (target.tokens ++ rest) (fun _ => rfl)
      (.ite_pos rfl (hty.bind (yields_pure _ rest)))

omit hg in
/-- What is read in square brackets is a type. -/
theorem parseTy_bracket {body : List Token} {ty : Ty}
    (h : Yields g.bracketTy (.group .bracket body :: rest) ty rest) :
    Yields (g.parseTy allowPlus) (.group .bracket body :: rest) ty rest := by
  unfold Grammar.parseTy
  refine Yields.via none (.group .bracket body :: rest) (fun _ => rfl) ?_
  refine (yields_rest _).bind (.ite_false rfl (.ite_false rfl (.ite_false rfl (.ite_false rfl ?_))))
  exact .ite_false rfl (.ite_pos rfl h)

theorem parseTy_slice {elem : Ty} (h : elem.IsWritten)
    (hn : 2 * Token.sizeList elem.tokens ≤ n) : Yields (g.parseTy allowPlus)
      ((Ty.slice elem).tokens ++ rest) (.slice elem) rest := by
  have hty := hg.openTy h hn .nil
  rw [List.append_nil] at hty
  refine parseTy_bracket (Yields.inGroup (hty.bind ?_))
  exact (yields_operator?_false rfl).bind (.ite_false rfl (yields_pure _ []))

theorem parseTy_array {elem : Ty} {length : Expr} (h : elem.IsWritten)
    (hlength : PrintsExpr length)
    (hn : 2 * Token.sizeList (Ty.array elem length.tokens).tokens ≤ n + 1) :
    Yields (g.parseTy allowPlus) ((Ty.array elem length.tokens).tokens ++ rest)
      (.array elem length.tokens) rest := by
  have hsemicolon : Token.sizeList (Token.operator ";") = 1 := rfl
  rw [Ty.tokens, Token.sizeList_group, Token.sizeList_append, Token.sizeList_append,
    hsemicolon] at hn
  have hty := hg.openTy h (by omega) (.semicolon false length.tokens)
  have hexpr := hg.expr hlength (by omega)
  rw [Ty.tokens, List.append_assoc]
  refine parseTy_bracket (Yields.inGroup (hty.bind ?_))
  refine (yields_operator? ";" length.tokens).bind (.ite_pos rfl ?_)
  exact hexpr.bind (yields_pure _ [])

omit hg in
/-- What is read in parentheses is a type. -/
theorem parseTy_group {body : List Token} {ty : Ty} (hmaybe : startsOperator "?" body = false)
    (h : Yields g.groupedTy (.group .paren body :: rest) ty rest)
    (hrest : allowPlus = true → EndsTy rest) :
    Yields (g.parseTy allowPlus) (.group .paren body :: rest) ty rest := by
  have hsum : (allowPlus && startsOperator "+" rest) = false := by
    cases allowPlus with
    | true => exact (hrest rfl).noSum
    | false => rfl
  have hparen : Yields (g.parenTy allowPlus) (.group .paren body :: rest) ty rest := by
    refine (yields_peek _ _).bind (.ite_false hmaybe (h.bind ?_))
    split
    · cases allowPlus with
      | true => exact (yields_peek _ rest).bind (.ite_false hsum (yields_pure _ rest))
      | false => exact (yields_pure _ rest).bind (.ite_false rfl (yields_pure _ rest))
    · exact yields_pure _ rest
  unfold Grammar.parseTy
  refine Yields.via none (.group .paren body :: rest) (fun _ => rfl) ?_
  exact (yields_rest _).bind (.ite_false rfl (.ite_pos rfl hparen))

theorem parseTy_paren {inner : Ty} (h : inner.IsWritten) (hn : 2 * Token.sizeList inner.tokens ≤ n)
    (hrest : allowPlus = true → EndsTy rest) :
    Yields (g.parseTy allowPlus) ((Ty.paren inner).tokens ++ rest) (.paren inner) rest := by
  have hty := hg.openTy h hn .nil
  obtain ⟨t, ts, htokens, ht⟩ := h.starts
  rw [List.append_nil, htokens] at hty
  rw [Ty.tokens, htokens]
  refine parseTy_group (ht.noOperator (by decide)) (Yields.inGroup ?_) hrest
  refine (yields_peek _ _).bind (.ite_false rfl ((yields_peek _ _).bind ?_))
  refine .ite_false ht.noLifetime (hty.bind ?_)
  exact (yields_operator?_false rfl).bind (.ite_false rfl (yields_pure _ []))

omit hg in
theorem parseTy_unit (hrest : allowPlus = true → EndsTy rest) : Yields (g.parseTy allowPlus)
    ((Ty.tuple [] false).tokens ++ rest) (.tuple [] false) rest :=
  parseTy_group rfl (Yields.inGroup fun _ => rfl) hrest

theorem parseTy_tuple {first : Ty} {more : List Ty} {trailing : Bool} (h : first.IsWritten)
    (hmore : ∀ ty ∈ more, ty.IsWritten) (htrailing : more = [] → trailing = true)
    (hn : ∀ ty ∈ first :: more, 2 * Token.sizeList ty.tokens ≤ n)
    (hrest : allowPlus = true → EndsTy rest) : Yields (g.parseTy allowPlus)
      ((Ty.tuple (first :: more) trailing).tokens ++ rest) (.tuple (first :: more) trailing)
      rest := by
  obtain ⟨inside, hinside, htokens⟩ : ∃ inside, (more = [] → inside = false) ∧
      (inside || more.isEmpty) = trailing ∧ separated "," trailing (Ty.tokensOf (first :: more)) =
        first.tokens ++ (Token.operator "," ++ separated "," inside (Ty.tokensOf more)) := by
    cases more with
    | nil =>
      rw [htrailing rfl]
      exact ⟨false, fun _ => rfl, rfl, rfl⟩
    | cons second more =>
      refine ⟨trailing, nofun, by rw [List.isEmpty_cons, Bool.or_false], ?_⟩
      rw [Ty.tokensOf, Ty.tokensOf, separated_cons_cons]
  obtain ⟨rfl, htokens⟩ := htokens
  have hty := hg.openTy h (hn first List.mem_cons_self)
    (.comma false (separated "," inside (Ty.tokensOf more)))
  have hlist := hg.types hmore (fun ty hty => hn ty (List.mem_cons_of_mem _ hty)) hinside
  obtain ⟨t, ts, hfirst, ht⟩ := h.starts
  rw [Ty.tokens, htokens]
  rw [hfirst] at hty ⊢
  refine parseTy_group (ht.noOperator (by decide)) (Yields.inGroup ?_) hrest
  refine (yields_peek _ _).bind (.ite_false rfl ((yields_peek _ _).bind ?_))
  refine .ite_false ht.noLifetime (hty.bind ((yields_operator? "," _).bind (.ite_pos rfl ?_)))
  exact hlist.bind (yields_pure _ [])

/-! ### Types that are sums -/

omit hg in
/-- After `dyn` come bounds. -/
theorem run_parseTy_dyn (g : Grammar) (allowPlus : Bool) (tokens : List Token)
    (unread : Option Delimiter) :
    (g.parseTy allowPlus).run ⟨.word "dyn" :: tokens, unread⟩ =
      (do
        let (bounds, trailing) ← g.traitBounds allowPlus "is required for an object type"
        return .traitObject true bounds trailing : Parser Ty).run ⟨tokens, unread⟩ := rfl

omit hg in
/-- After `impl` come bounds. -/
theorem run_parseTy_impl (g : Grammar) (allowPlus : Bool) (tokens : List Token)
    (unread : Option Delimiter) :
    (g.parseTy allowPlus).run ⟨.word "impl" :: tokens, unread⟩ =
      (do
        let (bounds, trailing) ← g.traitBounds allowPlus "must be specified"
        return .implTrait bounds trailing : Parser Ty).run ⟨tokens, unread⟩ := rfl

omit hg in
theorem isOpenSum_eq_false {more : List Bound} {trailing : Bool} {first : Bound}
    (h : (trailing || decide (1 < (first :: more).length)) = false) :
    more = [] ∧ trailing = false := by
  obtain ⟨htrailing, hlength⟩ := Bool.or_eq_false_iff.mp h
  refine ⟨?_, htrailing⟩
  cases more with
  | nil => rfl
  | cons => exact absurd hlength (by simp)

omit hg in
theorem exists_plus {more : List Bound} {trailing : Bool} {first : Bound}
    (h : (trailing || decide (1 < (first :: more).length)) = true) (rest : List Token) :
    ∃ left, boundsTokens more ++ (operatorIf trailing "+" ++ rest) = .punct '+' false :: left := by
  cases more with
  | cons => exact ⟨_, rfl⟩
  | nil =>
    cases trailing with
    | true => exact ⟨_, rfl⟩
    | false => cases h

omit hg in
/-- What ends a sum may follow each of its bounds. -/
theorem endsBound_sum (hrest : EndsBound rest) (more : List Bound) (trailing : Bool) :
    EndsBound (boundsTokens more ++ (operatorIf trailing "+" ++ rest)) := by
  refine endsBound_boundsTokens ?_ more
  cases trailing with
  | true => exact .plus false rest
  | false => exact hrest

omit hg in
theorem separated_bounds (first : Bound) (more : List Bound) (trailing : Bool) :
    separated "+" trailing (Bound.tokensOf (first :: more)) =
      first.tokens ++ (boundsTokens more ++ operatorIf trailing "+") := by
  rw [Bound.tokensOf, Bound.tokensOf_eq, separated_cons, List.append_assoc]
  rfl

/-- **Bounds behind a word that marks a sum.** -/
theorem traitBounds_sum {first : Bound} {more : List Bound} {trailing : Bool} (subject : String)
    (h : ∀ b ∈ first :: more, b.IsWritten)
    (hn : ∀ b ∈ first :: more, 2 * Token.sizeList b.tokens ≤ n)
    (htrait : hasTrait (first :: more) = true) (hrest : EndsBound rest)
    (hplus : allowPlus = true → EndsTy rest)
    (hclosed : allowPlus = false → (trailing || decide (1 < (first :: more).length)) = false) :
    Yields (g.traitBounds allowPlus subject)
      (first.tokens ++ (boundsTokens more ++ (operatorIf trailing "+" ++ rest)))
      (first :: more, trailing) rest := by
  cases allowPlus with
  | true => exact hg.traitBounds subject h hn htrait (hplus rfl)
  | false =>
    obtain ⟨rfl, rfl⟩ := isOpenSum_eq_false (hclosed rfl)
    exact hg.traitBounds_one subject (h first List.mem_cons_self) (hn first List.mem_cons_self)
      htrait hrest

/-- Of an open sum only the first bound is read. -/
theorem traitBounds_open {first : Bound} (subject : String) (h : first.IsWritten)
    (hn : 2 * Token.sizeList first.tokens ≤ n) (hrest : EndsBound rest) :
    Leaves (g.traitBounds false subject) (first.tokens ++ rest) rest := by
  cases htrait : hasTrait [first] with
  | true => exact (hg.traitBounds_one subject h hn htrait hrest).leaves
  | false =>
    have hbounds : Yields (g.bounds false) (first.tokens ++ rest) ([first], false) rest :=
      (hg.bound h hn hrest).bind (.ite_false rfl (yields_pure _ rest))
    refine Fails.leaves (hbounds.fails ?_) rest
    show Fails (if hasTrait [first] = true then _ else _) _
    rw [htrait]
    exact fails_throw _ _

/-- A path that lifetimes before it or a `+` after it make a sum. -/
theorem pathTy_bare {binder : Option Binder} {p : Path} {more : List Bound} {trailing : Bool}
    (hp : p.IsWritten) (hnPath : 2 * Token.sizeList p.tokens ≤ n + 1)
    (hmore : ∀ b ∈ more, b.IsWritten) (hn : ∀ b ∈ more, 2 * Token.sizeList b.tokens ≤ n)
    (hsum : binder.isSome = true ∨ more ≠ [] ∨ trailing = true) (hrest : EndsBound rest)
    (hplus : allowPlus = true → EndsTy rest)
    (hclosed : allowPlus = false → more = [] ∧ trailing = false) :
    Yields (g.pathTy binder allowPlus)
      (p.tokens ++ (boundsTokens more ++ (operatorIf trailing "+" ++ rest)))
      (.traitObject false (.trait false false binder p :: more) trailing) rest := by
  have hends := endsBound_sum hrest more trailing
  have hpath := hg.plainPath hp (by omega) hends.endsPath
  refine g.yields_pathTy_sum hp.noAngle hpath hends.noMacro ?_ ?_
  · rcases hsum with hsum | hsum
    · rw [hsum, Bool.true_or]
    · cases allowPlus with
      | true => cases more with
        | nil => rw [hsum.resolve_left fun h => h rfl]; exact Bool.or_true _
        | cons => exact Bool.or_true _
      | false =>
        obtain ⟨rfl, rfl⟩ := hclosed rfl
        rcases hsum with hsum | hsum
        · exact absurd rfl hsum
        · cases hsum
  · cases allowPlus with
    | true => exact hg.moreBounds _ trailing hmore hn (hplus rfl)
    | false =>
      obtain ⟨rfl, rfl⟩ := hclosed rfl
      exact yields_pure _ rest

omit hg in
/-- Bounds behind a word; there is one at least, and each is shorter than all of them. -/
theorem bounds_of_hasTrait {bounds : List Bound} {trailing : Bool} (w : String)
    (htrait : hasTrait bounds = true)
    (hn : 2 * Token.sizeList (.word w :: separated "+" trailing (Bound.tokensOf bounds)) ≤ n + 1) :
    ∃ first more, bounds = first :: more ∧
      ∀ b ∈ first :: more, 2 * Token.sizeList b.tokens ≤ n := by
  cases bounds with
  | nil => cases htrait
  | cons first more =>
    refine ⟨first, more, rfl, fun b hb => ?_⟩
    have hle := sizeList_le_separated "+" trailing (List.mem_map_of_mem (f := Bound.tokens) hb)
    rw [Token.sizeList_word, Bound.tokensOf_eq] at hn
    omega

omit hg in
theorem tokens_bareTrait (binder : Option Binder) (p : Path) (more : List Bound)
    (trailing : Bool) : (Ty.traitObject false (.trait false false binder p :: more) trailing).tokens =
      binderTokens binder ++ (p.tokens ++ (boundsTokens more ++ operatorIf trailing "+")) := by
  rw [Ty.tokens, separated_bounds, Bound.tokens]
  simp [wordIf, operatorIf]

omit hg in
theorem sizeList_bareTrait_le {binder : Option Binder} {p : Path} {more : List Bound}
    {trailing : Bool} (hn : 2 * Token.sizeList
      (Ty.traitObject false (.trait false false binder p :: more) trailing).tokens ≤ n + 1) :
    2 * Token.sizeList p.tokens ≤ n + 1 ∧ ∀ b ∈ more, 2 * Token.sizeList b.tokens ≤ n := by
  rw [tokens_bareTrait] at hn
  simp only [Token.sizeList_append] at hn
  refine ⟨by omega, fun b hb => ?_⟩
  have hle : Token.sizeList b.tokens + 1 ≤ Token.sizeList (boundsTokens more) := by
    obtain ⟨before, after, rfl⟩ := List.append_of_mem hb
    have hplus : Token.sizeList (Token.operator "+") = 1 := rfl
    simp only [boundsTokens, List.map_append, List.map_cons, List.flatMap_append, List.flatMap_cons,
      Token.sizeList_append, hplus]
    omega
  omega

/-- **A written type is read back**, where no sum may stand if it is none. -/
theorem parseTy {ty : Ty} (h : ty.IsWritten) (hn : 2 * Token.sizeList ty.tokens ≤ n + 1)
    (hrest : EndsBound rest) (hplus : allowPlus = true → EndsTy rest)
    (hclosed : allowPlus = false → ty.isOpenSum = false) :
    Yields (g.parseTy allowPlus) (ty.tokens ++ rest) ty rest := by
  cases h with
  | path h => exact hg.parseTy_path h hn hrest hplus
  | @reference target lifetime isMut h htarget =>
    have hmark : Token.sizeList (Token.operator "&") = 1 := rfl
    rw [Ty.tokens] at hn
    simp only [Token.sizeList_append, hmark] at hn
    exact hg.parseTy_reference lifetime isMut h (by omega) htarget hrest
  | @pointer target isMut h htarget =>
    have hmark : Token.sizeList (Token.operator "*") = 1 := rfl
    rw [Ty.tokens] at hn
    simp only [Token.sizeList_append, hmark] at hn
    exact hg.parseTy_pointer isMut h (by omega) htarget hrest
  | slice h =>
    rw [Ty.tokens, Token.sizeList_group] at hn
    exact hg.parseTy_slice h (by omega)
  | array h hlength => exact hg.parseTy_array h hlength hn
  | paren h =>
    rw [Ty.tokens, Token.sizeList_group] at hn
    exact hg.parseTy_paren h (by omega) hplus
  | unit => exact parseTy_unit hplus
  | @tuple first more trailing h hmore htrailing =>
    rw [Ty.tokens, Token.sizeList_group] at hn
    refine hg.parseTy_tuple h hmore htrailing (fun ty hty => ?_) hplus
    have hle := sizeList_le_separated "," trailing (List.mem_map_of_mem (f := Ty.tokens) hty)
    rw [← Ty.tokensOf_eq] at hle
    omega
  | never => exact fun _ => rfl
  | infer => exact fun _ => rfl
  | dynTrait h htrait =>
    obtain ⟨first, more, rfl, hsize⟩ := bounds_of_hasTrait "dyn" htrait hn
    have hbounds := hg.traitBounds_sum "is required for an object type" h hsize htrait hrest hplus
      hclosed
    rw [Ty.tokens, separated_bounds]
    simp only [List.append_assoc]
    exact .of_run (run_parseTy_dyn g _ _) (hbounds.bind (yields_pure _ rest))
  | implTrait h htrait =>
    obtain ⟨first, more, rfl, hsize⟩ := bounds_of_hasTrait "impl" htrait hn
    have hbounds := hg.traitBounds_sum "must be specified" h hsize htrait hrest hplus hclosed
    rw [Ty.tokens, separated_bounds]
    simp only [List.append_assoc]
    exact .of_run (run_parseTy_impl g _ _) (hbounds.bind (yields_pure _ rest))
  | @bareTrait binder p more trailing hbinder hp hglobal hmore hsum =>
    have htokens := tokens_bareTrait binder p more trailing
    have hsize := sizeList_bareTrait_le hn
    have hty := hg.pathTy_bare hp (hsize.1) hmore hsize.2 hsum hrest hplus
      fun h => isOpenSum_eq_false (hclosed h)
    rw [htokens]
    simp only [List.append_assoc]
    exact parseTy_ofPath binder hbinder hp hglobal hty

/-- **Of an open sum only the first bound is read where no sum may stand.** -/
theorem leaves_openSum {ty : Ty} (h : ty.IsWritten) (hn : 2 * Token.sizeList ty.tokens ≤ n + 1)
    (hopen : ty.isOpenSum = true) (rest : List Token) :
    ∃ left, Leaves (g.parseTy false) (ty.tokens ++ rest) (.punct '+' false :: left) := by
  cases h with
  | dynTrait h htrait =>
    obtain ⟨first, more, rfl, hsize⟩ := bounds_of_hasTrait "dyn" htrait hn
    obtain ⟨left, hleft⟩ := exists_plus hopen rest
    have hbounds := hg.traitBounds_open "is required for an object type" (h first List.mem_cons_self)
      (hsize first List.mem_cons_self) (.plus false left)
    rw [Ty.tokens, separated_bounds]
    simp only [List.append_assoc]
    rw [hleft]
    exact ⟨left, .of_run (run_parseTy_dyn g _ _) (hbounds.bind fun _ => leaves_pure _ _)⟩
  | implTrait h htrait =>
    obtain ⟨first, more, rfl, hsize⟩ := bounds_of_hasTrait "impl" htrait hn
    obtain ⟨left, hleft⟩ := exists_plus hopen rest
    have hbounds := hg.traitBounds_open "must be specified" (h first List.mem_cons_self)
      (hsize first List.mem_cons_self) (.plus false left)
    rw [Ty.tokens, separated_bounds]
    simp only [List.append_assoc]
    rw [hleft]
    exact ⟨left, .of_run (run_parseTy_impl g _ _) (hbounds.bind fun _ => leaves_pure _ _)⟩
  | @bareTrait binder p more trailing hbinder hp hglobal hmore hsum =>
    obtain ⟨left, hleft⟩ := exists_plus hopen rest
    have hsize := sizeList_bareTrait_le hn
    rw [tokens_bareTrait]
    simp only [List.append_assoc]
    rw [hleft]
    have hends : EndsBound (.punct '+' false :: left) := .plus false left
    have hpath := hg.plainPath hp (by omega) hends.endsPath
    refine ⟨left, ?_⟩
    cases binder with
    | none =>
      have hty : Yields (g.pathTy none false) (p.tokens ++ .punct '+' false :: left)
          (.path (.plain p)) (.punct '+' false :: left) :=
        g.yields_pathTy hp.noAngle hpath hends.noMacro rfl
      exact (parseTy_ofPath none nofun hp nofun hty).leaves
    | some b =>
      have hty : Yields (g.pathTy (some b) false) (p.tokens ++ .punct '+' false :: left)
          (.traitObject false [.trait false false (some b) p] false) (.punct '+' false :: left) :=
        g.yields_pathTy_sum hp.noAngle hpath hends.noMacro rfl (yields_pure _ _)
      exact (parseTy_ofPath (some b) hbinder hp hglobal hty).leaves
  | _ => cases hopen

end

end ReadsTypes

/-- **Types and paths are read back at every depth that is large enough.** -/
theorem readsTypes_ofDepth (n : Nat) : (ofDepth n).ReadsTypes n := by
  induction n with
  | zero =>
    have hpos {ts : List Token} (h : ∃ t tail, ts = t :: tail ∧ StartsTy t) :
        ¬ 2 * Token.sizeList ts ≤ 0 := by
      obtain ⟨t, tail, rfl, -⟩ := h
      have hpos := Token.sizeList_pos (List.cons_ne_nil t tail)
      omega
    exact {
      openTy := fun h hn => absurd hn (hpos h.starts)
      closedTy := fun h hn => absurd hn (hpos h.starts)
      path := fun h hn => absurd hn (hpos h.starts)
      expr := fun _ hn => absurd hn (by omega)
      openSum := fun h hn => absurd hn (hpos h.starts) }
  | succ n hg =>
    exact {
      openTy := fun h hn rest hrest =>
        hg.parseTy h hn (.ty hrest) (fun _ => hrest) fun hplus => Bool.noConfusion hplus
      closedTy := fun h hn hclosed rest hrest =>
        hg.parseTy h hn hrest (fun hplus => Bool.noConfusion hplus) fun _ => hclosed
      path := fun h hn rest hrest => hg.plainPath h (by omega) hrest
      expr := fun h hn => by
        have he := h n (by omega) [] .nil
        rwa [List.append_nil] at he
      openSum := fun h hn hopen rest => hg.leaves_openSum h hn hopen rest }

end Grammar

end EntityTable.Source
