import EntityTable.Proofs.Column.Imports
import EntityTable.Proofs.Column.Nullable

/-! # Plannable fields

Whether a field can be planned is said by its description alone: it is plannable if its conversion
exists and the database can number its column if it has to (`IsPlannable`). What can be wrong is
checked in a fixed order (`Check.all`), and the first check that finds a fault decides the error
(`Plan.ofField_ofDescription`). The storage of a plan is looked up in one table of primitive types,
through the mapping if there is one (`storageOf?`). -/

namespace EntityTable.Column

open Entity (FieldDescription Meaning Primitive StoredField TypeMapping)
open Source (Import Ty)

/-! ### Storage of fields -/

/-- The storage of a primitive value. -/
def Storage.ofPrimitive : Primitive → Storage
  | .int32 => .integer
  | .int64 => .bigInt
  | .uuid => .uuid
  | .boolean => .boolean
  | .string | .dateTime | .zonedDateTime | .listOfString | .float32 => .text

/-- The storage that a mapping names, or else that of the type that it stores the value as. -/
def Storage.ofMapping? (m : TypeMapping) : Option Storage :=
  match m.columnType with
  | some name => ofName? name
  | none => (Primitive.ofTy? m.storeAs).map ofPrimitive

/-- The type of a value that is there. -/
def valueTy (d : FieldDescription) : Ty := d.ty.optionItem?.getD d.ty

/-- The storage of a field: a mapping wins over the type of the value, and a type with a meaning of
its own over serialized text. -/
def storageOf? (d : FieldDescription) : Option Storage :=
  match d.mapping, Primitive.ofTy? (valueTy d) with
  | some m, _ => Storage.ofMapping? m
  | none, some known => some (Storage.ofPrimitive known)
  | none, none => if d.serializable then some .text else none

/-- Where the conversion of a field comes from, if it has one. -/
def branchOf (d : FieldDescription) : Branch :=
  if d.mapping.isSome then .mapped
  else if (Primitive.ofTy? (valueTy d)).isSome then .primitive
  else .serializable

theorem storage_ofPrimitive (p : Primitive) (ty : Ty) :
    (Conversion.ofPrimitive p ty).storage = .ofPrimitive p := by
  cases p <;> rfl

/-! ### Plannable fields -/

/-- A mapping can be used: its templates and imports can be read, and it leads to a storage. -/
structure IsUsable (m : TypeMapping) : Prop where
  encode : ∀ text ∈ m.encode, ∃ t, Template.ofText text = .ok t
  decode : ∀ text ∈ m.decode, ∃ t, Template.ofText text = .ok t
  imports : ∀ path ∈ m.imports, ∃ found, Import.ofText? path = some found
  columnType : ∀ name ∈ m.columnType, ∃ storage, Storage.ofName? name = some storage
  storeAs : m.columnType = none → ∃ p, Primitive.ofTy? m.storeAs = some p

/-- The conversion of a field exists, and a key that the database assigns is stored as an integer. -/
structure IsPlannable (d : FieldDescription) : Prop where
  mapped : ∀ m ∈ d.mapping, IsUsable m
  unmapped : d.mapping = none →
    (∃ p, Primitive.ofTy? (valueTy d) = some p) ∨ d.serializable = true
  numbered : d.roles.isAutoIncrement = true →
    storageOf? d = some .integer ∨ storageOf? d = some .bigInt

/-! ### Checks -/

/-- What can be wrong with a field that is to be planned. -/
inductive Check where
  /-- The template of a direction cannot be read. -/
  | template (direction : Direction)
  /-- An import cannot be read. -/
  | imports
  /-- No storage is found. -/
  | storage
  /-- The database cannot number the column. -/
  | numbering
  deriving DecidableEq, Repr

namespace Check

/-- The checks that a field has to pass to have a conversion, in order. -/
def ofConversion : List Check := [.template .encode, .template .decode, .imports, .storage]

/-- All checks, in order. -/
def all : List Check := ofConversion ++ [.numbering]

theorem mem_all (check : Check) : check ∈ all := by
  rcases check with (_ | _) | _ | _ | _ <;> simp [all, ofConversion]

/-- The text that a mapping gives for a direction. -/
def text? (m : TypeMapping) : Direction → Option String
  | .encode => m.encode
  | .decode => m.decode

/-- The error for a field without a storage, by what the storage was looked up for. -/
def noStorage (name : String) (d : FieldDescription) : MappingError :=
  match d.mapping with
  | some m => Conversion.noStorage name m
  | none => .unsupportedType name (valueTy d).display

/-- What the check finds wrong with a field. -/
def fault? (name : String) (d : FieldDescription) : Check → Option MappingError
  | template direction =>
    (d.mapping.bind (text? · direction)).bind fun text =>
      (error? (Template.ofText text)).map fun error =>
        .invalidTemplate name direction text (.text error)
  | imports =>
    (d.mapping.bind fun m => m.imports.find? fun path => (Import.ofText? path).isNone).map
      (.invalidImport name)
  | storage => if (storageOf? d).isSome then none else some (noStorage name d)
  | numbering =>
    (storageOf? d).bind fun storage =>
      if d.roles.isAutoIncrement && !storage.isInteger then
        some (.autoIncrementStorage name storage)
      else none

end Check

/-! ### Conversions of mappings -/

namespace Conversion

variable {name : String} {d : FieldDescription} {m : TypeMapping} {c : Conversion}

theorem storage_ofTemplates? (m : TypeMapping) (encode decode : Template) :
    (ofTemplates? m encode decode).map storage = Storage.ofMapping? m := by
  unfold ofTemplates? Storage.ofMapping?
  cases m.columnType with
  | some column => simp only [Option.map_map, Function.comp_def, Option.map_id']
  | none =>
    simp only [Option.map_map, Function.comp_def, within, storage_ofPrimitive]

theorem storage_of_ofMapping (h : ofMapping name m = .ok c) :
    Storage.ofMapping? m = some c.storage := by
  obtain ⟨encode, decode, -, -, -, hc⟩ := exists_of_ofMapping h
  rw [← storage_ofTemplates? m encode decode, hc]
  rfl

theorem error?_mappingTemplate (hmapping : d.mapping = some m) (direction : Direction) :
    error? (mappingTemplate name direction (Check.text? m direction)) =
      Check.fault? name d (.template direction) := by
  simp only [Check.fault?, hmapping, Option.bind_some]
  cases Check.text? m direction with
  | none => rfl
  | some text => exact error?_mapError

theorem error?_ofMapping (hmapping : d.mapping = some m) :
    error? (ofMapping name m) = Check.ofConversion.findSome? (Check.fault? name d) := by
  have hstorage (encode decode : Template) :
      error? ((ofTemplates? m encode decode).elim (.error (noStorage name m)) .ok) =
        Check.fault? name d .storage := by
    have hfound : storageOf? d = (ofTemplates? m encode decode).map storage := by
      rw [storage_ofTemplates?]
      simp only [storageOf?, hmapping]
    simp only [Check.fault?, Check.noStorage, hmapping, hfound, Option.isSome_map]
    cases ofTemplates? m encode decode <;> rfl
  have himports (encode decode : Template) :
      error? ((m.imports.find? fun path => (Import.ofText? path).isNone).elim
        ((ofTemplates? m encode decode).elim (.error (noStorage name m)) .ok)
        fun path => .error (.invalidImport name path)) =
      (Check.fault? name d .imports).or (Check.fault? name d .storage) := by
    rw [Check.fault?, hmapping, Option.bind_some, ← hstorage encode decode]
    cases m.imports.find? fun path => (Import.ofText? path).isNone <;> rfl
  have hencode : error? (mappingTemplate name .encode m.encode) = _ :=
    error?_mappingTemplate hmapping .encode
  have hdecode : error? (mappingTemplate name .decode m.decode) = _ :=
    error?_mappingTemplate hmapping .decode
  rw [ofMapping_eq,
    error?_bind fun encode _ => error?_bind fun decode _ => himports encode decode, hencode, hdecode]
  simp only [Check.ofConversion, findSome?_cons_eq_or, List.findSome?_nil, Option.or_none]

end Conversion

/-! ### Faults -/

namespace Check

variable {name : String} {d : FieldDescription}

theorem fault?_template_eq_none {direction : Direction} :
    fault? name d (.template direction) = none ↔
      ∀ m ∈ d.mapping, ∀ text ∈ text? m direction, ∃ t, Template.ofText text = .ok t := by
  simp only [fault?, Option.bind_eq_none_iff, Option.map_eq_none_iff, error?_eq_none,
    Option.bind_eq_some_iff, Option.mem_def]
  exact ⟨fun h m hm text htext => h text ⟨m, hm, htext⟩,
    fun h text ⟨m, hm, htext⟩ => h m hm text htext⟩

theorem fault?_imports_eq_none : fault? name d .imports = none ↔
    ∀ m ∈ d.mapping, ∀ path ∈ m.imports, ∃ found, Import.ofText? path = some found := by
  simp only [fault?, Option.map_eq_none_iff, Option.bind_eq_none_iff, List.find?_eq_none,
    Option.mem_def, Bool.not_eq_true, Option.isNone_eq_false_iff, Option.isSome_iff_exists]

theorem fault?_storage_eq_none : fault? name d .storage = none ↔
    ∃ storage, storageOf? d = some storage := by
  rw [fault?, ← Option.isSome_iff_exists]
  cases storageOf? d <;> simp

theorem fault?_numbering_eq_none {storage : Storage} (h : storageOf? d = some storage) :
    fault? name d .numbering = none ↔
      (d.roles.isAutoIncrement = true → storage = .integer ∨ storage = .bigInt) := by
  rw [fault?, h, Option.bind_some]
  cases d.roles.isAutoIncrement <;> cases storage <;> simp [Storage.isInteger]

end Check

/-- When a storage is found. -/
theorem exists_storageOf?_iff {d : FieldDescription} : (∃ storage, storageOf? d = some storage) ↔
    (∀ m ∈ d.mapping,
      (∀ name ∈ m.columnType, ∃ storage, Storage.ofName? name = some storage) ∧
      (m.columnType = none → ∃ p, Primitive.ofTy? m.storeAs = some p)) ∧
    (d.mapping = none → (∃ p, Primitive.ofTy? (valueTy d) = some p) ∨ d.serializable = true) := by
  unfold storageOf? Storage.ofMapping?
  cases d.mapping with
  | some m =>
    cases hcolumn : m.columnType with
    | some column => simp [hcolumn]
    | none => simp [hcolumn]
  | none =>
    cases Primitive.ofTy? (valueTy d) with
    | some known => simp
    | none => simp

/-- **A field is plannable exactly if no check finds a fault.** -/
theorem isPlannable_iff {name : String} {d : FieldDescription} :
    IsPlannable d ↔ ∀ check ∈ Check.all, check.fault? name d = none := by
  constructor
  · intro h check _
    have hstored : ∃ storage, storageOf? d = some storage :=
      exists_storageOf?_iff.mpr ⟨fun m hm => ⟨(h.mapped m hm).columnType, (h.mapped m hm).storeAs⟩,
        h.unmapped⟩
    cases check with
    | template direction =>
      rw [Check.fault?_template_eq_none]
      intro m hm
      cases direction with
      | encode => exact (h.mapped m hm).encode
      | decode => exact (h.mapped m hm).decode
    | imports => exact Check.fault?_imports_eq_none.mpr fun m hm => (h.mapped m hm).imports
    | storage => exact Check.fault?_storage_eq_none.mpr hstored
    | numbering =>
      obtain ⟨storage, hstorage⟩ := hstored
      rw [Check.fault?_numbering_eq_none hstorage]
      simpa only [hstorage, Option.some.injEq] using h.numbered
  · intro h
    replace h (check : Check) := h check check.mem_all
    have hencode := Check.fault?_template_eq_none.mp (h (.template .encode))
    have hdecode := Check.fault?_template_eq_none.mp (h (.template .decode))
    have himports := Check.fault?_imports_eq_none.mp (h .imports)
    obtain ⟨storage, hstorage⟩ := Check.fault?_storage_eq_none.mp (h .storage)
    have hnumbered := (Check.fault?_numbering_eq_none hstorage).mp (h .numbering)
    obtain ⟨hmapped, hunmapped⟩ := exists_storageOf?_iff.mp ⟨storage, hstorage⟩
    exact {
      mapped := fun m hm =>
        ⟨hencode m hm, hdecode m hm, himports m hm, (hmapped m hm).1, (hmapped m hm).2⟩
      unmapped := hunmapped
      numbered := by simpa only [hstorage, Option.some.injEq] using hnumbered }

/-! ### Plans -/

namespace Plan

variable {name : String} {d : FieldDescription} {branch : Branch} {c : Conversion}

theorem conversionOf_of_mapped {m : TypeMapping} (hmapping : d.mapping = some m) :
    conversionOf (.ofDescription name d) =
      (Conversion.ofMapping name m).map fun conversion => (.mapped, conversion) := by
  have hmeaning : (StoredField.ofDescription name d).meaning = .mapped m := by
    change Meaning.classify (valueTy d) d.serializable d.mapping = _
    rw [hmapping]
    rfl
  rw [conversionOf, hmeaning]
  rfl

theorem conversionOf_of_unmapped (hmapping : d.mapping = none) :
    conversionOf (.ofDescription name d) =
      match Primitive.ofTy? (valueTy d) with
      | some known => .ok (.primitive, .ofPrimitive known (valueTy d))
      | none =>
        if d.serializable then .ok (.serializable, .ofText .serialized)
        else .error (.unsupportedType name (valueTy d).display) := by
  have hmeaning : (StoredField.ofDescription name d).meaning =
      Meaning.classify (valueTy d) d.serializable none := by
    rw [← hmapping]
    rfl
  rw [conversionOf, hmeaning]
  unfold Meaning.classify
  cases Primitive.ofTy? (valueTy d) with
  | some known => rfl
  | none => cases d.serializable <;> rfl

/-- The storage of a conversion is the one that is looked up. -/
theorem storageOf?_of_conversionOf (h : conversionOf (.ofDescription name d) = .ok (branch, c)) :
    storageOf? d = some c.storage ∧ branch = branchOf d := by
  unfold storageOf? branchOf
  cases hmapping : d.mapping with
  | some m =>
    rw [conversionOf_of_mapped hmapping] at h
    cases hc : Conversion.ofMapping name m with
    | error e => rw [hc] at h; cases h
    | ok found =>
      rw [hc] at h
      cases h
      exact ⟨Conversion.storage_of_ofMapping hc, rfl⟩
  | none =>
    rw [conversionOf_of_unmapped hmapping] at h
    cases hknown : Primitive.ofTy? (valueTy d) with
    | some known =>
      rw [hknown] at h
      cases h
      exact ⟨congrArg some (storage_ofPrimitive known _).symm, rfl⟩
    | none =>
      rw [hknown] at h
      cases hserializable : d.serializable with
      | false => rw [hserializable] at h; cases h
      | true =>
        rw [hserializable] at h
        cases h
        exact ⟨rfl, rfl⟩

theorem error?_conversionOf : error? (conversionOf (.ofDescription name d)) =
    Check.ofConversion.findSome? (Check.fault? name d) := by
  cases hmapping : d.mapping with
  | some m =>
    rw [conversionOf_of_mapped hmapping, ← Conversion.error?_ofMapping hmapping]
    cases Conversion.ofMapping name m <;> rfl
  | none =>
    rw [conversionOf_of_unmapped hmapping]
    simp only [Check.ofConversion, findSome?_cons_eq_or, List.findSome?_nil, Option.or_none,
      Check.fault?, Check.noStorage, storageOf?, hmapping, Option.bind_none, Option.map_none,
      Option.none_or]
    cases Primitive.ofTy? (valueTy d) with
    | some known => rfl
    | none => cases d.serializable <;> rfl

theorem error?_ofField : error? (ofField (.ofDescription name d)) =
    Check.all.findSome? (Check.fault? name d) := by
  rw [Check.all, List.findSome?_append, List.findSome?_singleton, ← error?_conversionOf]
  cases hconversion : conversionOf (.ofDescription name d) with
  | error e => rw [ofField, hconversion]; rfl
  | ok found =>
    -- No check before the last one has found a fault, and that one looks up what has been converted.
    obtain ⟨branch, c⟩ := found
    rw [ofField_of_conversionOf hconversion, apply_ite error?, Check.fault?,
      (storageOf?_of_conversionOf hconversion).1]
    rfl

/-- **A field is planned exactly if it is plannable.** Of one that is not, the first check that finds a
fault decides the error. The plan of one that is has the storage that is looked up, and all that it
imports can be read. -/
theorem ofField_ofDescription (name : String) (d : FieldDescription) :
    ((∃ plan, ofField (.ofDescription name d) = .ok plan) ↔ IsPlannable d) ∧
    error? (ofField (.ofDescription name d)) = Check.all.findSome? (Check.fault? name d) ∧
    ∀ plan, ofField (.ofDescription name d) = .ok plan →
      storageOf? d = some plan.storage ∧ plan.branch = branchOf d ∧
      ∀ path ∈ plan.conversion.imports, ∃ found, Import.ofText? path = some found := by
  refine ⟨?_, error?_ofField, fun plan hplan => ?_⟩
  · rw [← error?_eq_none, error?_ofField, List.findSome?_eq_none_iff, ← isPlannable_iff]
  · have hof := isOf_of_ofField hplan
    obtain ⟨hstorage, hbranch⟩ := storageOf?_of_conversionOf hof.conversion
    exact ⟨hstorage, hbranch, fun path hpath =>
      Option.isSome_iff_exists.mp (hof.isSome_ofText? path hpath)⟩

/-- A key of the user's own that the database assigns, stored as a number. -/
def userKey : FieldDescription :=
  (FieldDescription.plain "user_key" (.word "UserKey")).asPrimaryKey.withAutoIncrement.mappedBy
    ⟨.word "UserKey", some "BigInt", some "\x7b\x7d.0", some "UserKey(\x7b\x7d)",
      ["crate::user::UserKey"]⟩

theorem ofField_ofDescription_userKey : ∃ plan,
    ofField (.ofDescription "user_key" userKey) = .ok plan ∧ plan.storage = .bigInt ∧
      plan.branch = .mapped := by
  have hread {text : String} (h : (error? (Template.ofText text)).isNone) :
      ∃ t, Template.ofText text = .ok t := error?_eq_none.mp (Option.isNone_iff_eq_none.mp h)
  have hstorage : storageOf? userKey = some .bigInt := by decide +kernel
  have hplannable : IsPlannable userKey := by
    refine ⟨?_, nofun, fun _ => .inr hstorage⟩
    rintro m hm
    cases hm
    refine ⟨?_, ?_, ?_, ?_, nofun⟩
    · rintro text ⟨⟩
      exact hread (by decide +kernel)
    · rintro text ⟨⟩
      exact hread (by decide +kernel)
    · intro path hpath
      rw [List.mem_singleton.mp hpath]
      exact Option.isSome_iff_exists.mp (by decide +kernel)
    · rintro name ⟨⟩
      exact ⟨.bigInt, by decide +kernel⟩
  obtain ⟨hiff, -, hplans⟩ := ofField_ofDescription "user_key" userKey
  obtain ⟨plan, hplan⟩ := hiff.mpr hplannable
  obtain ⟨hfound, hbranch, -⟩ := hplans plan hplan
  exact ⟨plan, hplan, Option.some.inj (hfound.symm.trans hstorage), hbranch⟩

end Plan

end EntityTable.Column
