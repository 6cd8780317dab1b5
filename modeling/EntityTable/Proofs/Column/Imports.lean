import EntityTable.Proofs.Column.Modifiers

/-! # What a conversion imports

A stored field is converted by the functions of a text form, or by none (`TextForm.of?`); which form
it is follows from its type, or from the type that its mapping stores it as. A mapping that leads to
a conversion has all its parts read (`Conversion.exists_of_ofMapping`). The conversion is that of the
form under the templates of the mapping (`Conversion.Applies`), and it asks for the functions of the
form and for what the mapping declares (`Plan.applies_of_conversionOf`). -/

namespace EntityTable.Column

open Entity (Meaning Primitive StoredField TypeMapping)

/-! ### Text forms of fields -/

namespace TextForm

/-- The form in which a primitive value is stored, if it is not stored as it is. -/
def ofPrimitive? : Primitive → Option TextForm
  | .dateTime => some .dateTime
  | .zonedDateTime => some .zonedDateTime
  | .listOfString => some .list
  | .float32 => some .float
  | .int32 | .int64 | .uuid | .string | .boolean => none

/-- The form that a mapping stores a value in: that of the type it names, unless it names the type of
the column. -/
def ofMapping? (m : TypeMapping) : Option TextForm :=
  if m.columnType.isSome then none else (Primitive.ofTy? m.storeAs).bind ofPrimitive?

/-- The form in which a field is stored. -/
def of? (f : StoredField) : Option TextForm :=
  match f.meaning with
  | .mapped m => ofMapping? m
  | .primitive known => ofPrimitive? known
  | .serializable => some .serialized
  | .unrecognized => none

/-- No two forms share a function. -/
theorem eq_of_mem_imports {f g : TextForm} {path : String} (hf : path ∈ f.imports)
    (hg : path ∈ g.imports) : f = g := by
  simp only [imports, List.mem_cons, List.not_mem_nil, or_false] at hf hg
  rcases hf with rfl | rfl <;> revert hg <;> cases f <;> cases g <;> decide

end TextForm

/-! ### Mappings of fields -/

/-- The template that the mapping of a field gives for a direction. -/
def userText (f : StoredField) (direction : Direction) : Option String :=
  match f.meaning, direction with
  | .mapped m, .encode => m.encode
  | .mapped m, .decode => m.decode
  | _, _ => none

/-- What the mapping of a field declares to be in scope. -/
def declaredImports (f : StoredField) : List String :=
  match f.meaning with
  | .mapped m => m.imports
  | _ => []

/-! ### Conversions of mappings -/

namespace Conversion

variable {field : String} {m : TypeMapping} {c : Conversion}

/-- The conversion that a mapping leads to with these templates. -/
def ofTemplates? (m : TypeMapping) (encode decode : Template) : Option Conversion :=
  match m.columnType with
  | some name => (Storage.ofName? name).map fun storage =>
    ⟨storage, storage.readType, encode, decode, m.imports⟩
  | none => (Primitive.ofTy? m.storeAs).map fun known =>
    (ofPrimitive known m.storeAs).within encode decode m.imports

/-- The error of a mapping that leads to no conversion. -/
def noStorage (field : String) (m : TypeMapping) : MappingError :=
  match m.columnType with
  | some name => .unknownColumnType field name
  | none => .unsupportedStoreAs field m.storeAs.display

/-- The templates of a mapping are read first, then its imports, and its storage is looked up last. -/
theorem ofMapping_eq (field : String) (m : TypeMapping) : ofMapping field m = (do
    let encode ← mappingTemplate field .encode m.encode
    let decode ← mappingTemplate field .decode m.decode
    (m.imports.find? fun path => (Source.Import.ofText? path).isNone).elim
      ((ofTemplates? m encode decode).elim (.error (noStorage field m)) .ok)
      fun path => .error (.invalidImport field path)) := by
  unfold ofMapping ofTemplates? noStorage
  congr 1
  funext encode
  congr 1
  funext decode
  cases m.imports.find? fun path => (Source.Import.ofText? path).isNone with
  | some path => rfl
  | none =>
    cases m.columnType with
    | some name =>
      dsimp only
      cases Storage.ofName? name <;> rfl
    | none =>
      dsimp only
      cases Primitive.ofTy? m.storeAs <;> rfl

/-- **What has been read of a mapping that leads to a conversion.** -/
theorem exists_of_ofMapping (h : ofMapping field m = .ok c) : ∃ encode decode,
    mappingTemplate field .encode m.encode = .ok encode ∧
    mappingTemplate field .decode m.decode = .ok decode ∧
    (∀ path ∈ m.imports, (Source.Import.ofText? path).isSome) ∧
    ofTemplates? m encode decode = some c := by
  rw [ofMapping_eq] at h
  obtain ⟨encode, hencode, h⟩ := bind_eq_ok.mp h
  obtain ⟨decode, hdecode, h⟩ := bind_eq_ok.mp h
  refine ⟨encode, decode, hencode, hdecode, ?_⟩
  cases hfault : m.imports.find? fun path => (Source.Import.ofText? path).isNone with
  | some path => rw [hfault] at h; cases h
  | none =>
    refine ⟨fun path hpath => ?_, ?_⟩
    · have hpath := List.find?_eq_none.mp hfault path hpath
      rwa [← Option.not_isSome, Bool.not_eq_true', Bool.not_eq_false] at hpath
    · rw [hfault] at h
      cases hc : ofTemplates? m encode decode with
      | none => rw [hc] at h; cases h
      | some found =>
        rw [hc] at h
        cases h
        rfl

end Conversion

/-! ### Conversions -/

namespace Template

/-- A reference to what the template yields; the identity passes on the reference that it is given. -/
def borrowed (t : Template) : Template :=
  if t.isIdentity then t else ⟨"&(" ++ t.before, t.after ++ ")"⟩

theorem isIdentity_iff {t : Template} : t.isIdentity = true ↔ t = .identity := by
  obtain ⟨before, after⟩ := t
  simp [isIdentity, identity, String.isEmpty_iff]

theorem identity_around (t : Template) : identity.around t = t := by
  unfold around
  cases h : t.isIdentity with
  | true => exact (isIdentity_iff.mp h).symm
  | false => rfl

theorem around_identity (t : Template) : t.around identity = t := rfl

end Template

/-- The conversion applies a text form and the templates of the user, and nothing else: a value goes
through the user's template and then to the function that writes it, or comes from the function that
reads it. -/
structure Conversion.Applies (c : Conversion) (form : Option TextForm) (encode decode : Template) :
    Prop where
  encode : c.encode = match form with
    | some g => g.encodeTemplate.around encode.borrowed
    | none => encode
  decode : c.decode = match form with
    | some g => decode.around g.decodeTemplate
    | none => decode

/-- What the functions of a form are imported by. -/
def TextForm.importsOf (form : Option TextForm) : List String := form.elim [] imports

namespace Conversion

theorem applies_ofText (g : TextForm) : (ofText g).Applies (some g) .identity .identity where
  encode := rfl
  decode := (Template.identity_around _).symm

theorem applies_ofPrimitive (p : Primitive) (ty : Source.Ty) :
    (ofPrimitive p ty).Applies (TextForm.ofPrimitive? p) .identity .identity ∧
      (ofPrimitive p ty).imports = TextForm.importsOf (TextForm.ofPrimitive? p) := by
  cases p with
  | int32 | int64 | uuid | string | boolean => exact ⟨⟨rfl, rfl⟩, rfl⟩
  | dateTime | zonedDateTime | listOfString | float32 => exact ⟨applies_ofText _, rfl⟩

theorem isIdentity_encodeTemplate (g : TextForm) : g.encodeTemplate.isIdentity = false := by
  cases g <;> decide

/-- **Under the user's templates a conversion still applies its form.** -/
theorem Applies.within {base : Conversion} {form : Option TextForm} (encode decode : Template)
    (h : base.Applies form .identity .identity) (imports : List String) :
    (base.within encode decode imports).Applies form encode decode := by
  cases form with
  | none =>
    have hencode : base.encode = .identity := h.encode
    have hdecode : base.decode = .identity := h.decode
    refine ⟨?_, ?_⟩
    · simp only [Conversion.within, hencode, Template.identity_around]
      rfl
    · simp only [Conversion.within, hdecode]
      exact Template.around_identity decode
  | some g =>
    have hencode : base.encode = g.encodeTemplate := h.encode
    have hdecode : base.decode = g.decodeTemplate :=
      h.decode.trans (Template.identity_around _)
    refine ⟨?_, ?_⟩
    · simp only [Conversion.within, hencode, isIdentity_encodeTemplate, Bool.false_or]
      rfl
    · simp only [Conversion.within, hdecode]

theorem applies_ofMapping {field : String} {m : TypeMapping} {c : Conversion}
    (h : ofMapping field m = .ok c) : ∃ encode decode,
      mappingTemplate field .encode m.encode = .ok encode ∧
      mappingTemplate field .decode m.decode = .ok decode ∧
      c.Applies (TextForm.ofMapping? m) encode decode ∧
      c.imports = TextForm.importsOf (TextForm.ofMapping? m) ++ m.imports := by
  obtain ⟨encode, decode, hencode, hdecode, -, hc⟩ := exists_of_ofMapping h
  refine ⟨encode, decode, hencode, hdecode, ?_⟩
  unfold ofTemplates? at hc
  unfold TextForm.ofMapping?
  cases hcolumn : m.columnType with
  | some name =>
    rw [hcolumn] at hc
    obtain ⟨storage, -, rfl⟩ := Option.map_eq_some_iff.mp hc
    exact ⟨⟨rfl, rfl⟩, rfl⟩
  | none =>
    rw [hcolumn] at hc
    obtain ⟨p, hp, rfl⟩ := Option.map_eq_some_iff.mp hc
    rw [hp]
    obtain ⟨happlies, himports⟩ := applies_ofPrimitive p m.storeAs
    exact ⟨happlies.within encode decode m.imports, congrArg (· ++ m.imports) himports⟩

end Conversion

/-- The functions of a form may be imported. -/
theorem TextForm.isSome_ofText? (g : TextForm) :
    ∀ path ∈ g.imports, (Source.Import.ofText? path).isSome := by
  have hall : (g.imports.all fun path => (Source.Import.ofText? path).isSome) = true := by
    cases g <;> decide +kernel
  exact List.all_eq_true.mp hall

/-! ### Fields -/

namespace Plan

variable {f : StoredField} {branch : Branch} {c : Conversion}

/-- **What the conversion of a field applies and what it asks for.** -/
theorem applies_of_conversionOf (h : conversionOf f = .ok (branch, c)) : ∃ encode decode,
    Conversion.mappingTemplate f.name .encode (userText f .encode) = .ok encode ∧
    Conversion.mappingTemplate f.name .decode (userText f .decode) = .ok decode ∧
    c.Applies (TextForm.of? f) encode decode ∧
    c.imports = TextForm.importsOf (TextForm.of? f) ++ declaredImports f := by
  unfold conversionOf at h
  unfold userText TextForm.of? declaredImports
  cases hmeaning : f.meaning with
  | mapped m =>
    simp only [hmeaning] at h ⊢
    cases hc : Conversion.ofMapping f.name m with
    | error e => rw [hc] at h; cases h
    | ok c' =>
      rw [hc] at h
      cases h
      exact Conversion.applies_ofMapping hc
  | primitive p =>
    simp only [hmeaning] at h ⊢
    cases h
    obtain ⟨happlies, himports⟩ := Conversion.applies_ofPrimitive p f.valueTy
    exact ⟨_, _, rfl, rfl, happlies, himports.trans (List.append_nil _).symm⟩
  | serializable =>
    simp only [hmeaning] at h ⊢
    cases h
    exact ⟨_, _, rfl, rfl, Conversion.applies_ofText .serialized, rfl⟩
  | unrecognized =>
    simp only [hmeaning] at h
    cases h

theorem IsOf.mem_imports {p : Plan} (h : p.IsOf f) {path : String} :
    path ∈ p.conversion.imports ↔
      (∃ g, TextForm.of? f = some g ∧ path ∈ g.imports) ∨ path ∈ declaredImports f := by
  obtain ⟨_, _, -, -, -, himports⟩ := applies_of_conversionOf h.conversion
  rw [himports, List.mem_append]
  refine or_congr_left ?_
  cases TextForm.of? f with
  | none => simp [TextForm.importsOf]
  | some g => simp [TextForm.importsOf]

/-- **All that a planned field asks for may be imported.** -/
theorem IsOf.isSome_ofText? {p : Plan} (h : p.IsOf f) :
    ∀ path ∈ p.conversion.imports, (Source.Import.ofText? path).isSome := by
  intro path hpath
  rcases h.mem_imports.mp hpath with ⟨g, -, hpath⟩ | hpath
  · exact g.isSome_ofText? path hpath
  · have hconversion := h.conversion
    unfold conversionOf at hconversion
    unfold declaredImports at hpath
    cases hmeaning : f.meaning with
    | mapped m =>
      rw [hmeaning] at hpath hconversion
      cases hc : Conversion.ofMapping f.name m with
      | error e => simp only [hc] at hconversion; cases hconversion
      | ok c =>
        obtain ⟨_, _, -, -, hread, -⟩ := Conversion.exists_of_ofMapping hc
        exact hread path hpath
    | primitive p => rw [hmeaning] at hpath; cases hpath
    | serializable => rw [hmeaning] at hpath; cases hpath
    | unrecognized => rw [hmeaning] at hpath; cases hpath

end Plan

end EntityTable.Column
