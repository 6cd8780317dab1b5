import EntityTable.Proofs.Source.Strings.Trees

/-! # String literals that the grammar of types keeps

Each rule keeps its string literals if the parsers for its parts do (`Grammar.KeepsStrings`). Here
are the rules of paths, types and attributes. -/

namespace EntityTable.Source

open EntityTable.Source.Parser

/-- The parts of a grammar keep their string literals. -/
class Grammar.KeepsStrings (g : Grammar) : Prop where
  ty : ∀ allowPlus, Keeps (g.ty allowPlus)
  path : Keeps g.path
  expr : ∀ allowRecord, Keeps (g.expr allowRecord)
  operand : ∀ allowRecord, Keeps (g.operand allowRecord)
  operators : ∀ allowRecord precedence left,
    Kept strings (strings left) (g.operators allowRecord precedence left)
  early : Keeps g.early
  pat : Keeps g.pat
  block : Keeps g.block
  useTree : Keeps g.useTree

namespace Grammar

attribute [instance] KeepsStrings.ty KeepsStrings.path KeepsStrings.expr KeepsStrings.operand
  KeepsStrings.early KeepsStrings.pat KeepsStrings.block KeepsStrings.useTree

variable (g : Grammar) [g.KeepsStrings]

/-! ### Paths -/

instance keepsConstArg : Keeps g.constArg where
  kept := kept_of_rest fun tokens => by
    split
    · exact Kept.advance [_, _] (kept_pure (by simp))
    · exact Kept.advance [_] (kept_pure (by simp))
    · split
      · exact Kept.advance [_] (kept_pure (by simp))
      · exact kept_expected _ _
    · exact Kept.on (kept_bind fun body => kept_pure (by simp [Expr.tokens])) _

instance keepsBinder : Keeps binder := by
  unfold binder
  exact ⟨kept_skip fun _ => kept_skip fun _ => kept_skip fun _ => kept_skip fun _ =>
    kept_pure (by simp)⟩

instance keepsBinder? : Keeps binder? := by
  unfold binder?
  exact ⟨kept_skip fun _ => kept_ite (kept_skip fun _ => kept_pure (by simp)) (kept_pure rfl)⟩

instance keepsParenArgs (name : String) : Keeps (g.parenArgs name) := by
  unfold parenArgs
  have hsegment (inputs : List Ty) (trailing : Bool) (output : Option Ty) :
      strings (Segment.paren name inputs trailing output) = strings inputs ++ strings output := by
    cases output <;> simp [Segment.tokens]
  refine ⟨kept_bind fun ⟨inputs, trailing⟩ => kept_skip fun _ => kept_ite ?_ ?_⟩
  · exact kept_bind fun output => kept_pure (by simp [hsegment])
  · exact kept_bind fun output => kept_pure (by simp [hsegment])

@[simp] theorem strings_boundTrait (isParen isMaybe : Bool) (binder : Option Binder) (path : Path) :
    strings (Bound.trait isParen isMaybe binder path).tokens = strings path := by
  cases isParen <;> simp [Bound.tokens]

instance keepsBound : Keeps g.bound := by
  unfold bound
  refine ⟨kept_skip fun name => ?_⟩
  split
  · exact kept_pure (by simp [Bound.tokens])
  · refine kept_skip fun isParen => ?_
    -- The same is read inside parentheses and without them.
    refine (fun hinner => kept_ite (Kept.inGroup .paren hinner) hinner) ?_
    refine kept_skip fun binder => kept_skip fun isMaybe => kept_bind fun ⟨isGlobal, segments⟩ => ?_
    dsimp only
    split
    · rename_i name before heq
      have hsegments : segments = before.reverse ++ [.plain name] := by
        rw [← List.reverse_reverse segments, heq, List.reverse_cons]
      refine kept_skip fun _ => kept_rest fun _ => kept_rest fun _ => kept_ite ?_ ?_
      · refine kept_skip fun _ => kept_bind fun last => kept_pure ?_
        simp [hsegments, Path.tokens, Segment.tokens]
      · exact kept_pure (by simp)
    · exact kept_pure (by simp)

theorem kept_moreBounds (first : Bound) : Kept strings (strings first) (g.moreBounds first) := by
  unfold moreBounds
  refine (kept_iterate strings (by simp) ?_).bind fun ⟨bounds, trailing⟩ =>
    kept_pure rfl
  rintro ⟨bounds, trailing⟩
  refine kept_ite (kept_pure rfl) (kept_skip fun _ => kept_ite ?_ (kept_pure rfl))
  exact kept_skip fun _ => kept_ite (kept_bind fun bound => kept_pure (by simp)) (kept_pure rfl)

theorem kept_furtherBounds (first : Bound) :
    Kept strings (strings first) (g.furtherBounds first) := by
  unfold furtherBounds
  refine kept_iterate strings (by simp) fun bounds => ?_
  exact kept_skip fun _ => kept_ite (kept_bind fun bound => kept_pure (by simp)) (kept_pure rfl)

instance keepsBounds (allowPlus : Bool) : Keeps (g.bounds allowPlus) := by
  unfold bounds
  refine ⟨kept_bind fun first => kept_ite ?_ (kept_pure (by simp))⟩
  simpa using g.kept_moreBounds first

/-- A type that is the head of a binding is written as that head. -/
theorem tokens_of_bindingHead? {ty : Ty} {head : Segment} (h : bindingHead? ty = some head) :
    ty.tokens = head.tokens := by
  unfold bindingHead? at h
  split at h
  · split at h
    · cases h
    · cases h
      simp [Ty.tokens, QualifiedPath.tokens, Path.tokens, Segment.tokensOf, separated, operatorIf]
  · cases h

instance keepsGenericArg : Keeps g.genericArg := by
  unfold genericArg
  refine ⟨kept_rest fun tokens => kept_ite ?_ (kept_ite ?_ ?_)⟩
  · exact kept_skip fun name => kept_pure rfl
  · exact kept_bind fun value => kept_pure (by simp [GenericArg.tokens])
  · refine kept_bind fun ty => ?_
    split
    · rename_i head heq
      have hhead := tokens_of_bindingHead? heq
      refine kept_skip fun _ => kept_ite (kept_rest fun _ => kept_ite ?_ ?_) ?_
      · exact kept_bind fun value => kept_pure (by simp [GenericArg.tokens, hhead])
      · exact kept_bind fun ty => kept_pure (by simp [GenericArg.tokens, hhead])
      · refine kept_skip fun _ => kept_ite ?_ (kept_pure (by simp [GenericArg.tokens]))
        refine kept_bind fun ⟨bounds, trailing⟩ => kept_pure ?_
        simp [GenericArg.tokens, hhead]
    · exact kept_pure (by simp [GenericArg.tokens])

instance keepsAngleArgs (name : String) (turbofish : Bool) :
    Keeps (g.angleArgs name turbofish) := by
  unfold angleArgs
  refine ⟨kept_skip fun _ => kept_bind fun ⟨args, trailing⟩ => kept_skip fun _ => kept_pure ?_⟩
  simp

instance keepsSegment (inExpr : Bool) : Keeps (g.segment inExpr) := by
  unfold segment
  refine ⟨kept_rest fun _ => kept_ite (kept_skip fun _ => kept_pure rfl) ?_⟩
  refine (fun hname => kept_ite (kept_skip hname) (kept_skip hname)) fun name => ?_
  refine kept_rest fun _ => kept_ite (g.keepsAngleArgs _ _).kept ?_
  exact kept_ite (kept_skip fun _ => (g.keepsAngleArgs _ _).kept) (kept_pure rfl)

theorem kept_moreSegments (inExpr : Bool) (first : Segment) :
    Kept strings (strings first) (g.moreSegments inExpr first) := by
  unfold moreSegments
  refine kept_iterate strings (by simp) fun segments => kept_rest fun _ => ?_
  refine kept_ite (kept_skip fun _ => kept_bind fun segment => ?_) (kept_pure rfl)
  exact kept_pure (by simp)

instance keepsPlainPath (inExpr : Bool) : Keeps (g.plainPath inExpr) := by
  unfold plainPath
  refine ⟨kept_skip fun isGlobal => kept_bind fun first => ?_⟩
  exact (g.kept_moreSegments inExpr first).bind fun segments => kept_pure (by simp [Path.tokens])

instance keepsQualifiedPath (inExpr : Bool) : Keeps (g.qualifiedPath inExpr) := by
  unfold qualifiedPath
  refine ⟨kept_skip fun _ => kept_ite ?_ ?_⟩
  · refine kept_skip fun _ => kept_bind fun self => kept_skip fun _ => ?_
    refine (fun htrait => kept_ite (kept_bind htrait) (kept_bind htrait)) fun trait => ?_
    refine kept_skip fun _ => kept_skip fun _ => kept_bind fun first => ?_
    refine (kept_iterate (fun segments => strings self ++ strings trait ++ strings segments)
      (by simp) fun segments => ?_).bind fun segments => ?_
    · refine kept_skip fun _ => kept_ite (kept_bind fun segment => ?_) (kept_pure rfl)
      exact kept_pure (by simp)
    · cases trait with
      | some trait => exact kept_pure (by simp [QualifiedPath.tokens])
      | none => exact kept_pure (by simp [QualifiedPath.tokens])
  · exact kept_bind fun path => kept_pure (by simp [QualifiedPath.tokens])

end Grammar

@[simp] theorem strings_map_plain (names : List String) :
    strings (names.map Segment.plain) = [] := by
  induction names with
  | nil => rfl
  | cons name names ih => simpa [Segment.tokens] using ih

instance keepsModulePath : Keeps modulePath := by
  unfold modulePath
  refine ⟨kept_skip fun isGlobal => kept_skip fun _ => ?_⟩
  refine (fun hpath => kept_ite (kept_skip fun _ => hpath) hpath) ?_
  refine kept_skip fun first => (kept_iterate strings (by simp) ?_).bind ?_
  · rintro ⟨names, trailing⟩
    refine kept_ite (kept_pure rfl) (kept_skip fun _ => kept_ite ?_ (kept_pure rfl))
    exact kept_skip fun _ => kept_ite (kept_skip fun _ => kept_pure (by simp)) (kept_pure rfl)
  · rintro ⟨names, trailing⟩
    exact kept_ite (kept_expected _) (kept_pure (by simp [Path.tokens]))

instance keepsMacroBody : Keeps macroBody where
  kept := kept_of_rest fun tokens => by
    split
    · exact Kept.advance [_] (kept_pure (by simp))
    · exact kept_expected _ _

namespace Grammar

variable (g : Grammar) [g.KeepsStrings]

/-! ### Types -/

instance keepsFnQualifiers : Keeps fnQualifiers := by
  unfold fnQualifiers
  refine ⟨kept_skip fun isUnchecked => kept_skip fun _ => kept_ite ?_ ?_⟩
  · refine kept_of_rest fun tokens => ?_
    split
    · exact Kept.advance [_] (kept_pure (by simp))
    · exact kept_pure (by simp) _
  · exact kept_pure (by simp)

instance keepsFnPtrName? : Keeps fnPtrName? := by
  unfold fnPtrName?
  refine ⟨kept_rest fun _ => kept_ite ?_ (kept_pure rfl)⟩
  exact kept_skip fun _ => kept_skip fun _ => kept_pure rfl

instance keepsFnPtrParam : Keeps g.fnPtrParam := by
  unfold fnPtrParam
  refine ⟨kept_skip fun name => kept_skip fun _ => kept_ite ?_ ?_⟩
  · exact kept_skip fun comma => kept_pure (by simp [FnPtrParam.tokens])
  · exact kept_bind fun ty => kept_pure (by simp [FnPtrParam.tokens])

theorem kept_fnPtr (binder : Option Binder) : Kept strings [] (g.fnPtr binder) := by
  unfold fnPtr
  refine kept_bind fun qualifiers => kept_skip fun _ => kept_bind fun ⟨params, trailing⟩ => ?_
  refine kept_skip fun _ => kept_ite ?_ ?_
  · exact kept_bind fun output => kept_pure (by cases output <;> simp [Ty.tokens])
  · exact kept_bind fun output => kept_pure (by cases output <;> simp [Ty.tokens])

instance keepsTraitBounds (allowPlus : Bool) (subject : String) :
    Keeps (g.traitBounds allowPlus subject) := by
  unfold traitBounds
  exact ⟨kept_bind fun ⟨bounds, trailing⟩ => kept_ite (kept_pure (by simp)) (kept_throw _)⟩

instance keepsGroupedTy : Keeps g.groupedTy := by
  unfold groupedTy
  refine ⟨Kept.inGroup _ (kept_skip fun _ => kept_ite (kept_pure (by simp [Ty.tokens])) ?_)⟩
  refine kept_skip fun _ => kept_ite ?_ (kept_bind fun first => kept_skip fun _ => kept_ite ?_ ?_)
  · exact kept_bind fun ⟨bounds, trailing⟩ => kept_pure (by simp [Ty.tokens])
  · exact kept_bind fun ⟨more, trailing⟩ => kept_pure (by simp [Ty.tokens])
  · exact kept_pure (by simp [Ty.tokens])

/-- A bound that was read as a type keeps its literals. -/
theorem strings_of_parenBound? {ty : Ty} {bound : Bound} (h : parenBound? ty = some bound) :
    strings bound = strings ty := by
  unfold parenBound? at h
  split at h
  · cases h
    simp [Ty.tokens, QualifiedPath.tokens]
  · cases h
    simp [Ty.tokens]
  · cases h
    simp [Ty.tokens]
  · cases h

instance keepsParenTy (allowPlus : Bool) : Keeps (g.parenTy allowPlus) := by
  unfold parenTy
  refine ⟨kept_skip fun _ => kept_ite ?_ ?_⟩
  · refine kept_bind fun first => ?_
    refine ((g.kept_furtherBounds first).bind fun bounds => ?_)
    exact kept_pure (by simp [Ty.tokens])
  · refine kept_bind fun ty => ?_
    split
    · rename_i inner
      refine kept_skip fun _ => kept_ite ?_ (kept_pure rfl)
      split
      · rename_i first heq
        have hfirst : [] ++ strings (Ty.paren inner) = strings first := by
          simp [strings_of_parenBound? heq, Ty.tokens]
        rw [hfirst]
        exact (g.kept_furtherBounds first).bind fun bounds => kept_pure (by simp [Ty.tokens])
      · exact kept_pure rfl
    · exact kept_pure rfl

instance keepsPathTy (binder : Option Binder) (allowPlus : Bool) :
    Keeps (g.pathTy binder allowPlus) := by
  unfold pathTy
  refine ⟨kept_bind fun path => ?_⟩
  split
  · rename_i path
    have hfirst : [] ++ strings (QualifiedPath.plain path) =
        strings (Bound.trait false false binder path) := by simp [QualifiedPath.tokens]
    have hbounds : ∀ p : List Bound × Bool, Kept strings (strings p)
        (pure (.traitObject false p.1 p.2) : Parser Ty) := fun ⟨bounds, trailing⟩ =>
      kept_pure (by simp [Ty.tokens])
    refine kept_skip fun _ => kept_ite ?_ (kept_skip fun _ => kept_ite ?_ ?_)
    · refine kept_skip fun _ => kept_bind fun ⟨d, body⟩ => kept_pure ?_
      simp [Ty.tokens, QualifiedPath.tokens]
    · rw [hfirst]
      refine kept_ite ((g.kept_moreBounds _).bind hbounds) ?_
      exact kept_pure (by simp [Ty.tokens])
    · exact kept_pure (by simp [Ty.tokens])
  · exact kept_pure (by simp [Ty.tokens])

instance keepsBracketTy : Keeps g.bracketTy := by
  unfold bracketTy
  refine ⟨Kept.inGroup _ (kept_bind fun elem => kept_skip fun _ => kept_ite ?_ ?_)⟩
  · exact kept_bind fun length => kept_pure (by simp [Ty.tokens])
  · exact kept_pure (by simp [Ty.tokens])

/-- **A type keeps its string literals** if its parts do. -/
instance keepsParseTy (allowPlus : Bool) : Keeps (g.parseTy allowPlus) := by
  unfold parseTy
  refine ⟨kept_skip fun binder => kept_rest fun tokens => kept_ite (kept_expected _) ?_⟩
  refine kept_ite (g.keepsParenTy _).kept (kept_ite (g.kept_fnPtr _) ?_)
  refine kept_ite (g.keepsPathTy _ _).kept (kept_ite ?_ (kept_ite g.keepsBracketTy.kept ?_))
  · refine kept_skip fun _ => kept_bind fun ⟨bounds, trailing⟩ => kept_pure ?_
    simp [Ty.tokens]
  refine kept_skip fun _ => kept_ite (kept_skip fun _ => kept_ite ?_ ?_) ?_
  · exact kept_bind fun target => kept_pure (by simp [Ty.tokens])
  · refine kept_skip fun _ => kept_ite ?_ (kept_expected _)
    exact kept_bind fun target => kept_pure (by simp [Ty.tokens])
  refine kept_skip fun _ => kept_ite ?_ (kept_ite ?_ ?_)
  · refine kept_skip fun lifetime => kept_skip fun isMut => kept_bind fun target => kept_pure ?_
    simp [Ty.tokens]
  · exact kept_skip fun _ => kept_pure (by simp [Ty.tokens])
  refine kept_skip fun _ => kept_ite ?_ ?_
  · refine kept_bind fun ⟨bounds, trailing⟩ => kept_pure ?_
    simp [Ty.tokens]
  refine kept_skip fun _ => kept_ite (kept_pure (by simp [Ty.tokens])) (kept_ite ?_ ?_)
  · refine kept_bind fun ⟨bounds, trailing⟩ => kept_pure ?_
    simp [Ty.tokens]
  · exact kept_expected _

/-! ### Trees of names -/

instance keepsParseUseTree : Keeps g.parseUseTree := by
  unfold parseUseTree
  refine ⟨kept_rest fun _ => kept_ite (kept_skip fun name => ?_) (kept_skip fun _ => ?_)⟩
  · refine kept_skip fun _ => kept_ite ?_ (kept_skip fun _ => kept_ite ?_ ?_)
    · exact kept_bind fun tree => kept_pure (by simp [UseTree.tokens])
    · refine kept_skip fun _ => kept_skip fun _ => kept_ite ?_ (kept_expected _)
      exact kept_skip fun newName => kept_pure (by simp [UseTree.tokens])
    · exact kept_pure (by simp [UseTree.tokens])
  · refine kept_ite (kept_pure (by simp [UseTree.tokens])) (kept_ite ?_ (kept_expected _))
    exact kept_bind fun ⟨trees, trailing⟩ => kept_pure (by simp [UseTree.tokens])

/-! ### Attributes -/

instance keepsAttributeInput : Keeps g.attributeInput where
  kept := kept_of_rest fun tokens => by
    split
    · exact Kept.advance [_] (kept_pure (by simp [AttributeInput.tokens]))
    · refine Kept.on (kept_skip fun _ => kept_ite (kept_of_rest fun tokens => ?_)
        (kept_pure (by simp [AttributeInput.tokens]))) _
      split
      · refine Kept.advance [_] (kept_pure ?_)
        simp [AttributeInput.tokens]
      · refine Kept.on (kept_ite (kept_throw _) (kept_bind fun value => kept_pure ?_)) _
        simp [AttributeInput.tokens]

instance keepsAttributeContent (isInner : Bool) : Keeps (g.attributeContent isInner) := by
  unfold attributeContent
  have hword : Keeps (pure (Path.word "unsafe") : Parser Path) :=
    ⟨kept_pure (by simp [Path.word, Path.tokens, Segment.tokens])⟩
  refine ⟨kept_skip fun _ => ?_⟩
  refine (fun hinput => kept_ite (kept_bind hinput) (kept_bind hinput)) fun path => ?_
  exact kept_bind fun input => kept_pure (by simp [Attribute.tokens])

instance keepsAttributes : Keeps g.attributes := by
  unfold attributes
  refine ⟨kept_iterate strings rfl fun attrs => kept_skip fun _ => kept_ite ?_ (kept_pure rfl)⟩
  exact kept_bind fun attr => kept_pure (by simp)

end Grammar

end EntityTable.Source
