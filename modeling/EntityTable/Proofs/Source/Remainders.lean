import EntityTable.Proofs.Outcome
import EntityTable.Source.Parser.Item
import Mathlib.Data.List.Infix

/-! # What parsers leave

A parser reads from the front of its input, so what it leaves is the end of what it was given. The
combinators keep this (`ReadsFront`, a class, so that it is found for whatever is put together from
them); hence it holds of every rule of the grammar whose parts have it, and by induction on the
depth of the whole grammar (`Grammar.readsFront_ofDepth`). -/

namespace EntityTable.Source.Parser

variable {α β : Type}

/-- What the parser leaves is the end of what it was given. -/
class ReadsFront (p : Parser α) : Prop where
  suffix : ∀ {input out : Input} {a : α}, p.run input = .ok (a, out) → out.tokens <:+ input.tokens

/-! ### Steps -/

theorem run_bind {p : Parser α} {f : α → Parser β} {input out : Input} {b : β}
    (h : (p >>= f).run input = .ok (b, out)) :
    ∃ a middle, p.run input = .ok (a, middle) ∧ (f a).run middle = .ok (b, out) := by
  obtain ⟨⟨a, middle⟩, hp, hf⟩ := bind_eq_ok.mp h
  exact ⟨a, middle, hp, hf⟩

instance instPure (a : α) : ReadsFront (pure a) where
  suffix h := by
    cases h
    exact List.suffix_rfl

instance instThrow (e : SyntaxError) : ReadsFront (throw e : Parser α) where
  suffix h := by cases h

instance instBind (p : Parser α) (f : α → Parser β) [hp : ReadsFront p]
    [hf : ∀ a, ReadsFront (f a)] : ReadsFront (p >>= f) where
  suffix h := by
    obtain ⟨a, middle, hfirst, hrest⟩ := run_bind h
    exact ((hf a).suffix hrest).trans (hp.suffix hfirst)

instance instMap (f : α → β) (p : Parser α) [ReadsFront p] : ReadsFront (f <$> p) := by
  rw [map_eq_pure_bind]
  infer_instance

instance instIte (c : Prop) [Decidable c] (p q : Parser α) [ReadsFront p] [ReadsFront q] :
    ReadsFront (if c then p else q) := by
  split <;> infer_instance

/-- As the instance for a sequence, with the rest of the sequence left open. -/
theorem readsFront_bind {p : Parser α} {f : α → Parser β} [ReadsFront p]
    (hf : ∀ a, ReadsFront (f a)) : ReadsFront (p >>= f) := instBind p f

/-- As the instance for a choice, with both cases left open. -/
theorem readsFront_ite {c : Prop} [Decidable c] {p q : Parser α} (hp : ReadsFront p)
    (hq : ReadsFront q) : ReadsFront (if c then p else q) := instIte c p q

/-- Looking at the tokens does not read them. -/
theorem readsFront_of_look {p : Parser α} (h : ∀ {input out a}, p.run input = .ok (a, out) →
    out = input) : ReadsFront p where
  suffix hrun := by rw [h hrun]

instance instRest : ReadsFront rest :=
  readsFront_of_look fun h => by cases h; rfl

instance instPeek (test : List Token → Bool) : ReadsFront (peek test) :=
  readsFront_of_look fun h => by cases h; rfl

instance instAtEnd : ReadsFront atEnd := instPeek _

instance instExpected (alternatives : List String) :
    ReadsFront (expected alternatives : Parser α) := by
  unfold expected
  infer_instance

/-- A parser that looks at the tokens and goes on with an end of them reads the front. -/
theorem readsFront_of_rest {f : List Token → Parser α}
    (h : ∀ tokens unread out a, (f tokens).run ⟨tokens, unread⟩ = .ok (a, out) →
      out.tokens <:+ tokens) : ReadsFront (rest >>= f) where
  suffix {input out a} hrun := h input.tokens input.unread out a hrun

/-- Going on with an end of the tokens. -/
theorem suffix_of_advance {tokens ts : List Token} {unread : Option Delimiter} {p : Parser α}
    [hp : ReadsFront p] {out : Input} {a : α} (h : ts <:+ tokens)
    (hrun : (advance ts >>= fun _ => p).run ⟨tokens, unread⟩ = .ok (a, out)) :
    out.tokens <:+ tokens := by
  obtain ⟨_, middle, hmiddle, hrest⟩ := run_bind hrun
  cases hmiddle
  exact (hp.suffix hrest).trans h

/-! ### Operators and words -/

theorem suffix_of_dropOperator? {text : String} {tokens ts : List Token}
    (h : dropOperator? text tokens = some ts) : ts <:+ tokens := by
  unfold dropOperator? at h
  generalize text.toList = cs at h
  induction cs generalizing tokens with
  | nil =>
    cases h
    exact List.suffix_rfl
  | cons c cs ih =>
    unfold dropOperator?.go at h
    split at h
    · rename_i heq
      cases heq
    · split at h
      · cases h
        exact List.suffix_cons _ _
      · cases h
    · rename_i heq
      cases heq
      split at h
      · exact (ih h).trans (List.suffix_cons _ _)
      · cases h
    · cases h

instance instOperator (text : String) : ReadsFront (operator text) :=
  readsFront_of_rest fun tokens unread out a h => by
    split at h
    · cases h
      exact suffix_of_dropOperator? ‹_›
    · cases h

instance instOperator? (text : String) : ReadsFront (operator? text) :=
  readsFront_of_rest fun tokens unread out a h => by
    split at h
    · exact suffix_of_advance (suffix_of_dropOperator? ‹_›) h
    · cases h
      exact List.suffix_rfl

instance instWord (name : String) : ReadsFront (word name) :=
  readsFront_of_rest fun tokens unread out a h => by
    split at h
    · split at h
      · cases h
        exact List.suffix_cons _ _
      · exact (instExpected _).suffix h
    · exact (instExpected _).suffix h

instance instWord? (name : String) : ReadsFront (word? name) :=
  readsFront_of_rest fun tokens unread out a h => by
    split at h
    · split at h
      · exact suffix_of_advance (List.suffix_cons _ _) h
      · cases h
        exact List.suffix_rfl
    · cases h
      exact List.suffix_rfl

instance instAnyWord : ReadsFront anyWord :=
  readsFront_of_rest fun tokens unread out a h => by
    split at h
    · exact suffix_of_advance (List.suffix_cons _ _) h
    · exact (instExpected _).suffix h

instance instIdent : ReadsFront ident :=
  readsFront_of_rest fun tokens unread out a h => by
    split at h
    · split at h
      · cases h
      · exact suffix_of_advance (List.suffix_cons _ _) h
    · exact (instExpected _).suffix h

instance instLifetime : ReadsFront lifetime :=
  readsFront_of_rest fun tokens unread out a h => by
    split at h
    · exact suffix_of_advance (List.suffix_cons _ _) h
    · exact (instExpected _).suffix h

instance instLifetime? : ReadsFront lifetime? :=
  readsFront_of_rest fun tokens unread out a h => by
    split at h
    · exact suffix_of_advance (List.suffix_cons _ _) h
    · cases h
      exact List.suffix_rfl

/-! ### Groups, lists and repetitions -/

/-- A group is read as a whole, whatever is left inside. -/
instance instInGroup (d : Delimiter) (p : Parser α) : ReadsFront (inGroup d p) where
  suffix {input out a} h := by
    obtain ⟨_, _, hget, h⟩ := run_bind h
    cases hget
    split at h
    · rename_i tokens heq
      rw [heq]
      split at h
      · obtain ⟨_, _, -, h⟩ := run_bind h
        cases h
        exact List.suffix_cons _ _
      · rw [← heq]
        exact (instExpected _).suffix h
    · exact (instExpected _).suffix h

instance instListUntilGo (stop : List Token → Bool) (separator : String) (p : Parser α)
    [ReadsFront p] : ∀ fuel, ReadsFront (listUntil.go stop separator p fuel)
  | 0 => instPure _
  | fuel + 1 => by
    have := instListUntilGo stop separator p fuel
    unfold listUntil.go
    infer_instance

instance instListUntil (stop : List Token → Bool) (separator : String) (p : Parser α)
    [ReadsFront p] : ReadsFront (listUntil stop separator p) := by
  unfold listUntil
  infer_instance

instance instCommaList (p : Parser α) [ReadsFront p] : ReadsFront (commaList p) :=
  instListUntil _ _ p

instance instIterateGo (step : α → Parser (Option α)) [∀ a, ReadsFront (step a)] :
    ∀ fuel a, ReadsFront (iterate.go step fuel a)
  | 0, _ => instPure _
  | fuel + 1, a => by
    have hmore (next : Option α) : ReadsFront (match next with
        | some next => iterate.go step fuel next
        | none => pure a) := by
      cases next with
      | some next => exact instIterateGo step fuel next
      | none => exact instPure a
    exact instBind _ _

instance instIterate (step : α → Parser (Option α)) (a : α) [∀ a, ReadsFront (step a)] :
    ReadsFront (iterate step a) := by
  unfold iterate
  infer_instance

end EntityTable.Source.Parser

namespace EntityTable.Source

open EntityTable.Source.Parser (ReadsFront readsFront_bind readsFront_ite readsFront_of_rest
  suffix_of_advance)

instance instMacroBody : ReadsFront macroBody :=
  readsFront_of_rest fun tokens unread out a h => by
    split at h
    · exact suffix_of_advance (List.suffix_cons _ _) h
    · exact (Parser.instExpected _).suffix h

namespace Grammar

/-- The parts of which types are made read the front. -/
class TypesReadFront (g : Grammar) : Prop where
  ty : ∀ allowPlus, ReadsFront (g.ty allowPlus)
  path : ReadsFront g.path
  block : ReadsFront g.block

attribute [instance] TypesReadFront.ty TypesReadFront.path TypesReadFront.block

variable (g : Grammar) [g.TypesReadFront]

instance instConstArg : ReadsFront g.constArg :=
  readsFront_of_rest fun tokens unread out a h => by
    split at h
    · exact suffix_of_advance ((List.suffix_cons _ _).trans (List.suffix_cons _ _)) h
    · exact suffix_of_advance (List.suffix_cons _ _) h
    · split at h
      · exact suffix_of_advance (List.suffix_cons _ _) h
      · exact (Parser.instExpected _).suffix h
    · exact (Parser.instBind g.block _).suffix h

instance instBinder : ReadsFront binder := by
  unfold binder
  infer_instance

instance instBinder? : ReadsFront binder? := by
  unfold binder?
  infer_instance

instance instParenArgs (name : String) : ReadsFront (g.parenArgs name) := by
  unfold parenArgs
  infer_instance

instance instBound : ReadsFront g.bound := by
  unfold bound
  refine readsFront_bind fun name => ?_
  split
  · infer_instance
  · refine readsFront_bind fun _ => readsFront_ite inferInstance ?_
    refine readsFront_bind fun _ => readsFront_bind fun _ => readsFront_bind fun path => ?_
    split
    split <;> infer_instance

instance instMoreBounds (first : Bound) : ReadsFront (g.moreBounds first) := by
  unfold moreBounds
  infer_instance

instance instFurtherBounds (first : Bound) : ReadsFront (g.furtherBounds first) := by
  unfold furtherBounds
  infer_instance

instance instBounds (allowPlus : Bool) : ReadsFront (g.bounds allowPlus) := by
  unfold bounds
  infer_instance

instance instGenericArg : ReadsFront g.genericArg := by
  unfold genericArg
  refine readsFront_bind fun _ => readsFront_ite inferInstance (readsFront_ite inferInstance ?_)
  refine readsFront_bind fun _ => ?_
  split <;> infer_instance

instance instAngleArgs (name : String) (turbofish : Bool) :
    ReadsFront (g.angleArgs name turbofish) := by
  unfold angleArgs
  infer_instance

instance instSegment (inExpr : Bool) : ReadsFront (g.segment inExpr) := by
  unfold segment
  infer_instance

instance instMoreSegments (inExpr : Bool) (first : Segment) :
    ReadsFront (g.moreSegments inExpr first) := by
  unfold moreSegments
  infer_instance

instance instPlainPath (inExpr : Bool) : ReadsFront (g.plainPath inExpr) := by
  unfold plainPath
  infer_instance

instance instQualifiedPath (inExpr : Bool) : ReadsFront (g.qualifiedPath inExpr) := by
  unfold qualifiedPath
  refine readsFront_bind fun _ => readsFront_ite ?_ inferInstance
  refine readsFront_bind fun _ => readsFront_bind fun self => readsFront_bind fun _ => ?_
  have hafter (trait : Option Path) : ReadsFront (do
      Parser.operator ">"
      Parser.operator "::"
      let first ← g.segment inExpr
      let segments ← Parser.iterate
        (fun segments => do
          if ← Parser.operator? "::" then return some (segments ++ [← g.segment inExpr])
          else return none)
        [first]
      match trait with
      | some trait => return QualifiedPath.ofTrait self trait segments
      | none => return .ofType self segments) := by
    refine readsFront_bind fun _ => readsFront_bind fun _ => ?_
    split <;> infer_instance
  exact readsFront_ite (readsFront_bind hafter) (readsFront_bind hafter)

instance instFnQualifiers : ReadsFront fnQualifiers := by
  unfold fnQualifiers
  refine readsFront_bind fun _ => readsFront_bind fun _ => readsFront_ite ?_ inferInstance
  refine readsFront_of_rest fun tokens unread out a h => ?_
  split at h
  · exact suffix_of_advance (List.suffix_cons _ _) h
  · cases h
    exact List.suffix_rfl

instance instFnPtr (binder : Option Binder) : ReadsFront (g.fnPtr binder) := by
  unfold fnPtr
  infer_instance

instance instTraitBounds (allowPlus : Bool) (subject : String) :
    ReadsFront (g.traitBounds allowPlus subject) := by
  unfold traitBounds
  infer_instance

instance instParenTy (allowPlus : Bool) : ReadsFront (g.parenTy allowPlus) := by
  unfold parenTy groupedTy
  refine readsFront_bind fun _ => readsFront_ite inferInstance (readsFront_bind fun _ => ?_)
  split
  · refine readsFront_bind fun _ => readsFront_ite ?_ inferInstance
    split <;> infer_instance
  · infer_instance

instance instPathTy (binder : Option Binder) (allowPlus : Bool) :
    ReadsFront (g.pathTy binder allowPlus) := by
  unfold pathTy
  refine readsFront_bind fun _ => ?_
  split <;> infer_instance

instance instParseTy (allowPlus : Bool) : ReadsFront (g.parseTy allowPlus) := by
  unfold parseTy bracketTy
  refine readsFront_bind fun _ => readsFront_bind fun _ => readsFront_ite inferInstance ?_
  refine readsFront_ite inferInstance (readsFront_ite inferInstance ?_)
  refine readsFront_ite inferInstance (readsFront_ite inferInstance ?_)
  refine readsFront_ite inferInstance (readsFront_bind fun _ => readsFront_ite inferInstance ?_)
  refine readsFront_bind fun _ => readsFront_ite inferInstance (readsFront_ite inferInstance ?_)
  infer_instance

/-- **The types and paths of every depth read the front.** -/
theorem readsFront_ofDepth : ∀ depth, (ofDepth depth).TypesReadFront
  | 0 => ⟨fun _ => Parser.instThrow _, Parser.instThrow _, Parser.instThrow _⟩
  | depth + 1 =>
    have := readsFront_ofDepth depth
    ⟨(ofDepth depth).instParseTy, (ofDepth depth).instPlainPath false, Parser.instInGroup _ _⟩

end Grammar

end EntityTable.Source
