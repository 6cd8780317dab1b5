import EntityTable.Proofs.Column.Composed
import EntityTable.Proofs.Column.Nullable

/-! # Mapped values

A mapping that names the type to store a value as, and not the type of the column, stores the value
as a plain field of that type would, with the user's templates around. The templates are composed on
their texts, before any source is known. What the composition writes for a source is what its two
stages write one after the other (`Template.fill_around`), because the first stage ends in a
parenthesis: so its text is never a plain source, and whatever follows the hole of the composition
is a postfix operator exactly if it is one in the first stage. No hole appears or is lost where the
texts meet (`Template.HasOneHole.around`). -/

namespace EntityTable.Column

open Entity (FieldDescription Meaning Primitive Roles StoredField TypeMapping)
open Source (Ty)

/-! ### Conversions -/

namespace TextForm

variable (g : TextForm)

theorem isBraceless_encodeTemplate : g.encodeTemplate.IsBraceless := by
  cases g <;> exact ⟨by decide +kernel, by decide +kernel⟩

theorem isBraceless_decodeTemplate : g.decodeTemplate.IsBraceless := by
  cases g <;> exact ⟨by decide +kernel, by decide +kernel⟩

theorem isClosed_decodeTemplate : g.decodeTemplate.IsClosed := by
  rw [Template.IsClosed, decodeTemplate, String.toList_append]
  exact List.mem_append_left _ List.mem_cons_self

end TextForm

namespace Conversion

variable {base c : Conversion} {encode decode : Template} {imports : List String}

/-- The conversion goes through the base and the user's templates, one after the other: a value is
written by the user's template first and read by it last. The functions of a text form take a
reference, while the user's template yields a value. -/
structure IsAround (c base : Conversion) (encode decode : Template) : Prop where
  storage : c.storage = base.storage
  readType : c.readType = base.readType
  encode (source : String) : c.encode.fill source =
    if base.encode.isIdentity then encode.fill source
    else if encode.isIdentity then base.encode.fill source
    else base.encode.fill ("&(" ++ encode.fill source ++ ")")
  decode (source : String) : c.decode.fill source = decode.fill (base.decode.fill source)
  hasOneHole_encode : c.encode.HasOneHole
  hasOneHole_decode : c.decode.HasOneHole

theorem Applies.isAround {form : Option TextForm} (hbase : base.Applies form .identity .identity)
    (hc : c.Applies form encode decode) (hstorage : c.storage = base.storage)
    (hread : c.readType = base.readType) (hencode : encode.HasOneHole)
    (hdecode : decode.HasOneHole) : c.IsAround base encode decode := by
  obtain ⟨hbe, hbd⟩ := hbase
  obtain ⟨hce, hcd⟩ := hc
  cases form with
  | none =>
    -- A value that is stored as it is goes through the user's templates only.
    dsimp only at hbe hbd hce hcd
    refine ⟨hstorage, hread, fun source => ?_, fun source => ?_, ?_, ?_⟩
    · rw [hce, hbe, if_pos (Template.isIdentity_iff.mpr rfl)]
    · rw [hcd, hbd, Template.fill_identity]
    · rwa [hce]
    · rwa [hcd]
  | some g =>
    have hborrowed : Template.identity.borrowed = .identity := rfl
    dsimp only at hbe hbd hce hcd
    rw [hborrowed, Template.around_identity] at hbe
    rw [Template.identity_around] at hbd
    refine ⟨hstorage, hread, fun source => ?_, fun source => ?_, ?_, ?_⟩
    · rw [hce, hbe, isIdentity_encodeTemplate, if_neg Bool.false_ne_true]
      cases hidentity : encode.isIdentity with
      | true =>
        rw [if_pos rfl, Template.isIdentity_iff.mp hidentity, hborrowed, Template.around_identity]
      | false =>
        rw [Template.fill_around (Or.inr (Template.isClosed_borrowed hidentity)),
          Template.fill_borrowed hidentity, if_neg Bool.false_ne_true]
    · rw [hcd, hbd, Template.fill_around (Or.inr g.isClosed_decodeTemplate)]
    · rw [hce]
      exact g.isBraceless_encodeTemplate.hasOneHole.around hencode.borrowed
        (Or.inl g.isBraceless_encodeTemplate)
    · rw [hcd]
      exact hdecode.around g.isBraceless_decodeTemplate.hasOneHole
        (Or.inr g.isBraceless_decodeTemplate)

/-- **The user's templates around the conversion of a primitive value.** -/
theorem isAround_within (p : Primitive) (ty : Ty) (hencode : encode.HasOneHole)
    (hdecode : decode.HasOneHole) (imports : List String) :
    ((ofPrimitive p ty).within encode decode imports).IsAround (ofPrimitive p ty) encode decode :=
  have hbase := (applies_ofPrimitive p ty).1
  hbase.isAround (hbase.within encode decode imports) rfl rfl hencode hdecode

/-- Without templates only the imports are added. -/
theorem within_identity (base : Conversion) (imports : List String) :
    base.within .identity .identity imports = { base with imports := base.imports ++ imports } := by
  have hidentity : Template.identity.isIdentity = true := Template.isIdentity_iff.mpr rfl
  simp only [within, hidentity, Bool.or_true, if_true, Template.around_identity,
    Template.identity_around]

theorem hasOneHole_of_mappingTemplate {field : String} {direction : Direction}
    {text : Option String} {t : Template} (h : mappingTemplate field direction text = .ok t) :
    t.HasOneHole := by
  cases text with
  | none =>
    cases h
    exact Template.hasOneHole_identity
  | some text => exact Template.hasOneHole_of_ofText (mapError_eq_ok.mp h)

/-- Without a column type a mapping goes around the conversion of a primitive value. -/
theorem exists_within_of_ofMapping {field : String} {m : TypeMapping}
    (h : ofMapping field m = .ok c) (hcolumn : m.columnType = none) :
    ∃ p encode decode, Primitive.ofTy? m.storeAs = some p ∧
      mappingTemplate field .encode m.encode = .ok encode ∧
      mappingTemplate field .decode m.decode = .ok decode ∧
      c = (ofPrimitive p m.storeAs).within encode decode m.imports := by
  obtain ⟨encode, decode, hencode, hdecode, -, hc⟩ := exists_of_ofMapping h
  rw [ofTemplates?, hcolumn] at hc
  obtain ⟨p, hp, rfl⟩ := Option.map_eq_some_iff.mp hc
  exact ⟨p, encode, decode, hp, hencode, hdecode, rfl⟩

end Conversion

/-! ### Fields -/

namespace Plan

variable {f : StoredField} {m : TypeMapping} {plan : Plan} {ty valueTy : Ty}

/-- A plain field is planned as its type says. -/
theorem ofField_plain {p : Primitive} (name : String) (hty : ty.optionItem?.getD ty = valueTy)
    (hp : Primitive.ofTy? valueTy = some p) :
    ∃ base, ofField (.ofDescription name (.plain name ty)) = .ok base ∧ base.column = name ∧
      base.conversion = .ofPrimitive p valueTy := by
  have hmeaning : (StoredField.ofDescription name (.plain name ty)).meaning = .primitive p := by
    change Meaning.classify (ty.optionItem?.getD ty) false none = _
    simp only [hty, Meaning.classify, hp]
  have hvalue : (StoredField.ofDescription name (.plain name ty)).valueTy = valueTy := hty
  have hconversion : conversionOf (.ofDescription name (.plain name ty)) =
      .ok (.primitive, .ofPrimitive p valueTy) := by
    rw [conversionOf, hmeaning, hvalue]
  have hkey : (StoredField.ofDescription name (.plain name ty)).isAutoIncrement = false := rfl
  simp only [ofField, hconversion, hkey, Bool.false_and, Bool.false_eq_true, if_false]
  exact ⟨_, rfl, rfl, rfl⟩

/-- Plans of one column that convert alike write the same expressions if both columns may be null or
neither. -/
theorem expressions_eq {base : Plan} (hcolumn : plan.column = base.column)
    (hread : plan.conversion.readType = base.conversion.readType)
    (hencode : plan.conversion.encode = base.conversion.encode)
    (hdecode : plan.conversion.decode = base.conversion.decode)
    (hnull : plan.isNullable = base.isNullable) (source : String) :
    plan.encode source = base.encode source ∧ plan.decode source = base.decode source ∧
      plan.read source = base.read source := by
  simp only [encode, decode, read, hcolumn, hread, hencode, hdecode, hnull, and_self]

/-- **A mapping stores a value as a plain field of the type it names would**, with the user's
templates around. The plain field has that type, or may be null and has an option of it; it can be
planned whenever the mapped field can. Values are written by the user's template and then by the
plain field's, and are read the other way around; without templates of the user nothing is added. -/
theorem mapped_of_ofField (h : ofField f = .ok plan) (hmeaning : f.meaning = .mapped m)
    (hcolumn : m.columnType = none) (hty : ty = m.storeAs ∨ ty.optionItem? = some m.storeAs) :
    ∃ base encode decode, ofField (.ofDescription f.name (.plain f.name ty)) = .ok base ∧
      Conversion.mappingTemplate f.name .encode m.encode = .ok encode ∧
      Conversion.mappingTemplate f.name .decode m.decode = .ok decode ∧
      plan.storage = base.storage ∧
      plan.conversion.readType = base.conversion.readType ∧
      plan.conversion.imports = base.conversion.imports ++ m.imports ∧
      (∀ source, plan.decodeValue source = decode.fill (base.conversion.decode.fill source)) ∧
      (∀ source, plan.encodeValue source =
        if base.conversion.encode.isIdentity then encode.fill source
        else if encode.isIdentity then base.conversion.encode.fill source
        else base.conversion.encode.fill ("&(" ++ encode.fill source ++ ")")) ∧
      plan.conversion.encode.HasOneHole ∧ plan.conversion.decode.HasOneHole ∧
      (m.encode = none → m.decode = none → ∀ source,
        plan.encodeValue source = base.encodeValue source ∧
        plan.decodeValue source = base.decodeValue source ∧
        (plan.isNullable = base.isNullable → plan.encode source = base.encode source ∧
          plan.decode source = base.decode source ∧ plan.read source = base.read source)) := by
  have hof := isOf_of_ofField h
  have hconversion := hof.conversion
  simp only [conversionOf, hmeaning] at hconversion
  cases hc : Conversion.ofMapping f.name m with
  | error e => rw [hc] at hconversion; cases hconversion
  | ok c =>
  rw [hc] at hconversion
  obtain ⟨-, rfl⟩ := Prod.mk.inj (Except.ok.inj hconversion)
  obtain ⟨p, encode, decode, hp, hencode, hdecode, hwithin⟩ :=
    Conversion.exists_within_of_ofMapping hc hcolumn
  have hvalue : ty.optionItem?.getD ty = m.storeAs := by
    rcases hty with rfl | hty
    · rw [optionItem?_of_ofTy? hp]
      rfl
    · rw [hty]
      rfl
  obtain ⟨base, hbase, hname, hplain⟩ := ofField_plain f.name hvalue hp
  have haround := Conversion.isAround_within p m.storeAs
    (Conversion.hasOneHole_of_mappingTemplate hencode)
    (Conversion.hasOneHole_of_mappingTemplate hdecode) m.imports
  rw [← hwithin, ← hplain] at haround
  refine ⟨base, encode, decode, hbase, hencode, hdecode, haround.storage, haround.readType, ?_,
    haround.decode, haround.encode, haround.hasOneHole_encode, haround.hasOneHole_decode, ?_⟩
  · rw [hwithin, hplain]
    rfl
  · intro hnoEncode hnoDecode source
    rw [hnoEncode] at hencode
    rw [hnoDecode] at hdecode
    cases hencode
    cases hdecode
    rw [Conversion.within_identity, ← hplain] at hwithin
    have hsameEncode : plan.conversion.encode = base.conversion.encode := by rw [hwithin]
    have hsameDecode : plan.conversion.decode = base.conversion.decode := by rw [hwithin]
    refine ⟨?_, ?_, fun hnull => ?_⟩
    · rw [encodeValue, hsameEncode, encodeValue]
    · rw [decodeValue, hsameDecode, decodeValue]
    · exact expressions_eq (hof.column.trans hname.symm) haround.readType hsameEncode hsameDecode
        hnull source

/-- A time of the user's own, stored as a date and time. -/
def stamp : StoredField := .ofDescription "stamp" <|
  (FieldDescription.plain "stamp" (.applied "Option" [.word "Stamp"])).mappedBy
    ⟨.word "NaiveDateTime", none, some "\x7b\x7d.naive()", some "Stamp::from(\x7b\x7d)",
      ["crate::time::Stamp"]⟩

/-- The function that writes a date and time is given a reference to what the user's template
yields. -/
theorem mapped_of_ofField_stamp : ∃ plan, ofField stamp = .ok plan ∧
    plan.encodeValue "&entity.stamp" = "encode_date_time(&((&entity.stamp).naive()))" := by
  have hok : (ofField stamp).toBool = true := by decide +kernel
  cases hplan : ofField stamp with
  | error e => rw [hplan] at hok; cases hok
  | ok plan =>
  obtain ⟨base, encode, decode, hbase, hencode, -, -, -, -, -, hfill, -⟩ :=
    mapped_of_ofField hplan rfl rfl (Or.inl rfl)
  let plain : StoredField := .ofDescription "stamp" (.plain "stamp" (.word "NaiveDateTime"))
  let template := Conversion.mappingTemplate "stamp" .encode (some "\x7b\x7d.naive()")
  have hrun : ((ofField plain).toOption.bind fun base =>
      template.toOption.map fun encode => (base.conversion.encode, encode)) =
      some (⟨"encode_date_time(", ")"⟩, ⟨"", ".naive()"⟩) := by decide +kernel
  replace hbase : ofField plain = .ok base := hbase
  replace hencode : template = .ok encode := hencode
  rw [hbase, hencode] at hrun
  obtain ⟨hbaseEncode, rfl⟩ := Prod.mk.inj (Option.some.inj hrun)
  refine ⟨plan, rfl, (hfill "&entity.stamp").trans ?_⟩
  rw [hbaseEncode]
  decide +kernel

end Plan

end EntityTable.Column
