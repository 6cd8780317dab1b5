import EntityTable.Proofs.Column.Modifiers
import EntityTable.Source.Tree.Build

/-! # Nullable fields

A field whose type is an option is planned like the same field of the type inside, and its column may
be null besides (`Plan.ofField_of_isOption`): the option is taken off before anything is decided, and
nothing that is decided later looks at it again. It is taken off once: the values of an option of an
option are options themselves, which have no meaning (`Plan.ofField_of_isOption_of_isOption`). -/

namespace EntityTable

open Entity (FieldDescription Primitive StoredField)
open Source (Ty)

/-! ### Options -/

/-- The last word of the type is `Option`, and its first argument is the type inside. -/
def Source.Ty.IsOption (ty inner : Ty) : Prop :=
  ∃ path turbofish args trailing, ty = .path path ∧
    path.lastSegment? = some (.angle "Option" turbofish (.type inner :: args) trailing)

theorem optionItem?_eq_some_iff {ty inner : Ty} :
    ty.optionItem? = some inner ↔ ty.IsOption inner := by
  constructor
  · intro h
    unfold Ty.optionItem? Ty.wrapped? at h
    split at h
    · rename_i path
      split at h
      · rename_i name turbofish item args trailing hlast
        split at h
        · rename_i hname
          cases h
          exact ⟨path, turbofish, args, trailing, rfl, hname ▸ hlast⟩
        · cases h
      · cases h
    · cases h
  · rintro ⟨path, turbofish, args, trailing, rfl, hlast⟩
    simp only [Ty.optionItem?, Ty.wrapped?, hlast, if_true]

theorem optionItem?_eq_none_iff {ty : Ty} :
    ty.optionItem? = none ↔ ∀ inner, ¬ ty.IsOption inner := by
  simp only [Option.eq_none_iff_forall_ne_some, ne_eq, optionItem?_eq_some_iff]

/-- A type with a meaning of its own is no option. -/
theorem optionItem?_of_ofTy? {p : Primitive} {ty : Ty} (h : Primitive.ofTy? ty = some p) :
    ty.optionItem? = none := by
  rw [optionItem?_eq_none_iff]
  rintro inner ⟨path, turbofish, args, trailing, rfl, hlast⟩
  have hlist : Ty.listItem? (.path path) = none := by
    simp only [Ty.listItem?, Ty.wrapped?, hlast]
    exact if_neg (by decide)
  rw [Primitive.ofTy?, hlist] at h
  cases path with
  | plain path =>
    have hword : Ty.lastWord? (.path (.plain path)) = some "Option" :=
      congrArg (Option.map Source.Segment.name) hlast
    rw [hword] at h
    cases h
  | ofType => cases h
  | ofTrait => cases h

/-! ### Fields -/

namespace Column.Plan

variable {option ty : Ty}

/-- The plan of a column that may be null. -/
def asNullable (p : Plan) : Plan := { p with modifiers := p.modifiers ++ [.nullable] }

/-- What a field is planned as depends on its declared type only through the type of its values and
whether it may be null. -/
theorem ofField_nullable (f : StoredField) (declared : Ty) (h : f.isNullable = false) :
    ofField { f with ty := declared, isNullable := true } = (ofField f).map asNullable := by
  set g : StoredField := { f with ty := declared, isNullable := true }
  have hsame : conversionOf g = conversionOf f := rfl
  have hmodifiers : modifiersOf g = modifiersOf f ++ [.nullable] := by
    simp only [modifiersOf, h, Bool.false_eq_true, if_false, List.append_nil]
    rfl
  cases hconversion : conversionOf f with
  | error e => rw [ofField, ofField, hsame, hconversion]; rfl
  | ok found =>
    rw [ofField_of_conversionOf (hsame.trans hconversion), ofField_of_conversionOf hconversion,
      apply_ite (Except.map asNullable), hmodifiers]
    rfl

theorem ofDescription_of_isOption (name : String) (d : FieldDescription)
    (hoption : option.IsOption ty) (hty : ∀ inner, ¬ ty.IsOption inner) :
    StoredField.ofDescription name { d with ty := option } =
      { StoredField.ofDescription name { d with ty } with ty := option, isNullable := true } := by
  have hinside : ty.optionItem?.getD ty = ty := by
    rw [optionItem?_eq_none_iff.mpr hty]
    rfl
  simp only [StoredField.ofDescription, optionItem?_eq_some_iff.mpr hoption, hinside,
    Option.getD_some, Option.isSome_some]

/-- **A field that may be null is planned like one that may not**: both fail with the same error, or
the plan of the first is that of the second with the modifier that its column may be null, after all
others. -/
theorem ofField_of_isOption (name : String) (d : FieldDescription) (hoption : option.IsOption ty)
    (hty : ∀ inner, ¬ ty.IsOption inner) :
    (∃ e, ofField (.ofDescription name { d with ty := option }) = .error e ∧
      ofField (.ofDescription name { d with ty }) = .error e) ∨
    ∃ plan, ofField (.ofDescription name { d with ty }) = .ok plan ∧
      Modifier.nullable ∉ plan.modifiers ∧
      ofField (.ofDescription name { d with ty := option }) =
        .ok { plan with modifiers := plan.modifiers ++ [.nullable] } := by
  have hrequired : (StoredField.ofDescription name { d with ty }).isNullable = false :=
    congrArg Option.isSome (optionItem?_eq_none_iff.mpr hty)
  rw [ofDescription_of_isOption name d hoption hty, ofField_nullable _ option hrequired]
  cases hplain : ofField (.ofDescription name { d with ty }) with
  | error e => exact .inl ⟨e, rfl, rfl⟩
  | ok plan =>
    refine .inr ⟨plan, rfl, ?_, rfl⟩
    rw [(isOf_of_ofField hplain).modifiers, mem_modifiersOf, Modifier.isAskedBy, hrequired]
    exact Bool.false_ne_true

/-- When a user was last seen, by which users are looked up. -/
def lastSeen : FieldDescription :=
  (FieldDescription.plain "last_seen" (.applied "DateTime" [.word "Utc"])).asLookupKey

theorem ofField_of_isOption_lastSeen : ∃ plan,
    ofField (.ofDescription "last_seen" lastSeen) = .ok plan ∧ plan.modifiers = [.indexed] ∧
    ofField (.ofDescription "last_seen" { lastSeen with ty := .applied "Option" [lastSeen.ty] }) =
      .ok { plan with modifiers := [.indexed, .nullable] } := by
  have hoption : (Ty.applied "Option" [lastSeen.ty]).IsOption lastSeen.ty :=
    ⟨_, false, [], false, rfl, rfl⟩
  have hrequired : ∀ inner, ¬ lastSeen.ty.IsOption inner := optionItem?_eq_none_iff.mp rfl
  rcases ofField_of_isOption "last_seen" lastSeen hoption hrequired with
    ⟨e, -, h⟩ | ⟨plan, hplan, -, hnullable⟩
  · cases h
  · have hmodifiers : plan.modifiers = [.indexed] := (isOf_of_ofField hplan).modifiers
    rw [hmodifiers] at hnullable
    exact ⟨plan, hplan, hmodifiers, hnullable⟩

/-- **An option is taken off once**: the values of an option of an option are options, and no type
that is one has a meaning. -/
theorem ofField_of_isOption_of_isOption {inner : Ty} (name : String) {d : FieldDescription}
    (hoption : option.IsOption ty) (hty : ty.IsOption inner) (hmapping : d.mapping = none)
    (hserializable : d.serializable = false) :
    ofField (.ofDescription name { d with ty := option }) =
      .error (.unsupportedType name ty.display) := by
  have hvalue : (StoredField.ofDescription name { d with ty := option }).valueTy = ty :=
    congrArg (Option.getD · option) (optionItem?_eq_some_iff.mpr hoption)
  have hprimitive : Primitive.ofTy? ty = none := by
    cases hp : Primitive.ofTy? ty with
    | none => rfl
    | some p => exact absurd hty (optionItem?_eq_none_iff.mp (optionItem?_of_ofTy? hp) inner)
  have hmeaning : (StoredField.ofDescription name { d with ty := option }).meaning =
      .unrecognized := by
    change Entity.Meaning.classify (StoredField.ofDescription name { d with ty := option }).valueTy
      d.serializable d.mapping = _
    rw [hvalue, hmapping, hserializable]
    simp only [Entity.Meaning.classify, hprimitive, Bool.false_eq_true, if_false]
  rw [ofField, conversionOf, hmeaning, hvalue]
  rfl

end Column.Plan

end EntityTable
