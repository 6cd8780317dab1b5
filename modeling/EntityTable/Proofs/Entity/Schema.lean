import EntityTable.Proofs.Entity.Fields

/-! # Which descriptions have a schema

A description has a schema exactly if it follows the rules for the entity, for its fields and for
its key (`SoundDescription`). The schema then holds the stored fields and the names of the others in
the order of their declaration, and the marked field is the key (`Schema.Describes`). If only fields
or keys are at fault, the error is that of the first field that breaks a rule, or else that of the
keys. -/

namespace EntityTable.Entity

open Source (Path identifier?)

/-! ### The rules -/

/-- The rules for an entity apart from its fields. -/
structure EntityRules (d : Description) : Prop where
  origin : (identifier? d.name).isSome
  generated : (identifier? (d.className.getD (d.name ++ generatedSuffix))).isSome
  inhabited : d.fields ≠ []
  home : ∃ home, Path.ofText (d.home.getD defaultHome) = .ok home
  table : ∀ table, d.table = some table → Text.isBlankText table = false

/-- The stored fields that are marked as the key. -/
def markedKeys (fs : List FieldDescription) : List FieldDescription :=
  fs.filter fun f => f.isStored && f.roles.primaryKey

/-- Exactly one stored field is marked as the key, and it cannot be null. -/
def SoundKey (fs : List FieldDescription) : Prop :=
  ∃ f, markedKeys fs = [f] ∧ f.ty.optionItem? = none

/-- What is wrong with the keys. -/
inductive KeyFault (entity : String) (fs : List FieldDescription) : SchemaError → Prop where
  | missing : markedKeys fs = [] → KeyFault entity fs (.missingPrimaryKey entity)
  | nullable {f : FieldDescription} : markedKeys fs = [f] → f.ty.optionItem?.isSome →
    KeyFault entity fs (.nullablePrimaryKey entity f.name)
  | multiple : 2 ≤ (markedKeys fs).length →
    KeyFault entity fs
      (.multiplePrimaryKeys entity ((markedKeys fs).map FieldDescription.name))

/-- The rules for a description. -/
structure SoundDescription (d : Description) : Prop where
  entity : EntityRules d
  fields : SoundFields d.fields
  key : SoundKey d.fields

/-- The schema says what the description does. -/
structure Schema.Describes (s : Schema) (d : Description) : Prop where
  origin : identifier? d.name = some s.origin
  generated : identifier? (d.className.getD (d.name ++ generatedSuffix)) = some s.generated
  home : Path.ofText (d.home.getD defaultHome) = .ok s.home
  tableName : s.tableName = d.table.getD (Text.snakeCase d.name)
  storable : (d.fields.filter FieldDescription.isStored).map FieldDescription.stored? =
    s.storable.map some
  transient : (d.fields.filter fun f => !f.isStored).map (fun f => identifier? f.name) =
    s.transient.map some
  /-- The key is the only stored field that is marked. -/
  key : s.storable.filter StoredField.isPrimaryKey = [s.primaryKey]
  required : s.primaryKey.isNullable = false

/-! ### Sound fields lose nothing -/

theorem map_eq_of_isSome {α β : Type} {g : α → Option β} : ∀ {l : List α},
    (∀ a ∈ l, (g a).isSome) → l.map g = (l.filterMap g).map some
  | [], _ => rfl
  | a :: l, h => by
    obtain ⟨b, hb⟩ := Option.isSome_iff_exists.mp (h a (by simp))
    have ih := map_eq_of_isSome fun a ha => h a (List.mem_cons_of_mem _ ha)
    simp [hb, ih]

theorem isSome_stored? {f : FieldDescription} : f.stored?.isSome = (identifier? f.name).isSome := by
  simp [FieldDescription.stored?]

theorem isPrimaryKey_of_stored? {f : FieldDescription} {g : StoredField} (h : f.stored? = some g) :
    g.isPrimaryKey = f.roles.primaryKey := by
  obtain ⟨name, -, rfl⟩ := Option.map_eq_some_iff.mp h
  rfl

theorem isNullable_of_stored? {f : FieldDescription} {g : StoredField} (h : f.stored? = some g) :
    g.isNullable = f.ty.optionItem?.isSome := by
  obtain ⟨name, -, rfl⟩ := Option.map_eq_some_iff.mp h
  rfl

theorem declared_of_stored? {f : FieldDescription} {g : StoredField} (h : f.stored? = some g) :
    g.declared = f.name := by
  obtain ⟨name, -, rfl⟩ := Option.map_eq_some_iff.mp h
  rfl

/-- The keys among the stored fields are those of the marked ones. -/
theorem filter_storedOf (fs : List FieldDescription) :
    (storedOf fs).filter StoredField.isPrimaryKey =
      (markedKeys fs).filterMap FieldDescription.stored? := by
  have hkeys : markedKeys fs =
      (fs.filter FieldDescription.isStored).filter fun f => f.roles.primaryKey := by
    simp [markedKeys, List.filter_filter, Bool.and_comm]
  rw [storedOf, hkeys]
  generalize fs.filter FieldDescription.isStored = stored
  rw [List.filter_filterMap, List.filterMap_filter]
  congr 1
  funext f
  cases hstored : f.stored? with
  | none => simp
  | some g => simp [Option.filter, isPrimaryKey_of_stored? hstored]

section Sound
variable {fs : List FieldDescription} (h : SoundFields fs)
include h

theorem SoundFields.map_stored? :
    (fs.filter FieldDescription.isStored).map FieldDescription.stored? = (storedOf fs).map some :=
  map_eq_of_isSome fun f hf => by
    rw [isSome_stored?]
    exact h.named f ((List.mem_filter.mp hf).1)

theorem SoundFields.map_transient : (fs.filter fun f => !f.isStored).map
    (fun f => identifier? f.name) = (transientOf fs).map some :=
  map_eq_of_isSome fun f hf => h.named f ((List.mem_filter.mp hf).1)

theorem SoundFields.map_keys : (markedKeys fs).map FieldDescription.stored? =
    ((storedOf fs).filter StoredField.isPrimaryKey).map some := by
  rw [filter_storedOf]
  refine map_eq_of_isSome fun f hf => ?_
  rw [isSome_stored?]
  exact h.named f (List.mem_filter.mp hf).1

end Sound

/-! ### The key -/

variable {entity : String} {fs : List FieldDescription}

/-- **The key is found exactly if one stored field is marked and cannot be null.** -/
theorem key_ok_iff {key : StoredField} :
    (FieldsSoFar.of fs).key entity = .ok key ↔
      (storedOf fs).filter StoredField.isPrimaryKey = [key] ∧ key.isNullable = false := by
  rcases hkeys : (storedOf fs).filter StoredField.isPrimaryKey with _ | ⟨a, _ | ⟨b, rest⟩⟩
  · simp [FieldsSoFar.key, FieldsSoFar.of, hkeys]
  · cases hnull : a.isNullable with
    | true =>
      simp only [FieldsSoFar.key, FieldsSoFar.of, hkeys, hnull, if_true]
      constructor
      · intro h
        cases h
      · rintro ⟨ha, hkey⟩
        rw [← (List.cons.inj ha).1, hnull] at hkey
        cases hkey
    | false =>
      simp only [FieldsSoFar.key, FieldsSoFar.of, hkeys, hnull]
      constructor
      · intro h
        cases h
        exact ⟨rfl, hnull⟩
      · rintro ⟨ha, -⟩
        cases ha
        rfl
  · simp [FieldsSoFar.key, FieldsSoFar.of, hkeys]

theorem map_name_eq : ∀ {l : List FieldDescription} {stored : List StoredField},
    l.map FieldDescription.stored? = stored.map some →
    l.map FieldDescription.name = stored.map StoredField.declared
  | [], [], _ => rfl
  | f :: l, g :: stored, h => by
    rw [List.map_cons, List.map_cons, List.cons.injEq] at h
    rw [List.map_cons, List.map_cons, map_name_eq h.2, declared_of_stored? h.1]

/-- One stored field is marked and cannot be null, or something is wrong with the keys. -/
theorem soundKey_or_fault (entity : String) (fs : List FieldDescription) :
    SoundKey fs ∨ ∃ e, KeyFault entity fs e := by
  rcases hkeys : markedKeys fs with _ | ⟨f, _ | ⟨g, rest⟩⟩
  · exact Or.inr ⟨_, .missing hkeys⟩
  · cases hty : f.ty.optionItem? with
    | none => exact Or.inl ⟨f, hkeys, hty⟩
    | some item => exact Or.inr ⟨_, .nullable hkeys (by rw [hty]; rfl)⟩
  · exact Or.inr ⟨_, .multiple (by simp [hkeys])⟩

section SoundKey
variable (h : SoundFields fs)
include h

/-- **The key of sound fields is found if one stored field is marked and cannot be null.** -/
theorem key_of_soundKey (entity : String) (hkey : SoundKey fs) :
    ∃ key, (FieldsSoFar.of fs).key entity = .ok key := by
  obtain ⟨f, hf, hty⟩ := hkey
  have hmap := h.map_keys
  rw [hf, List.map_singleton, eq_comm, List.map_eq_singleton_iff] at hmap
  obtain ⟨key, hkeys, hkey⟩ := hmap
  have hnull : key.isNullable = false := by rw [isNullable_of_stored? hkey.symm, hty]; rfl
  exact ⟨key, key_ok_iff.mpr ⟨hkeys, hnull⟩⟩

theorem key_of_fault {e : SchemaError} (hf : KeyFault entity fs e) :
    (FieldsSoFar.of fs).key entity = .error e := by
  have hmap := h.map_keys
  cases hf with
  | missing hnone =>
    rw [hnone, List.map_nil, eq_comm, List.map_eq_nil_iff] at hmap
    simp [FieldsSoFar.key, FieldsSoFar.of, hmap]
  | @nullable f hone hty =>
    rw [hone, List.map_singleton, eq_comm, List.map_eq_singleton_iff] at hmap
    obtain ⟨key, hkeys, hkey⟩ := hmap
    have hnull : key.isNullable := by rw [isNullable_of_stored? hkey.symm, hty]
    simp [FieldsSoFar.key, FieldsSoFar.of, hkeys, hnull, declared_of_stored? hkey.symm]
  | multiple hmany =>
    have hlength := congrArg List.length hmap
    rw [List.length_map, List.length_map] at hlength
    rw [hlength] at hmany
    rw [map_name_eq hmap]
    rcases hkeys : (storedOf fs).filter StoredField.isPrimaryKey with _ | ⟨a, _ | ⟨b, rest⟩⟩
    · simp [hkeys] at hmany
    · simp [hkeys] at hmany
    · simp [FieldsSoFar.key, FieldsSoFar.of, hkeys]

theorem soundKey_iff : SoundKey fs ↔ ∃ key, (FieldsSoFar.of fs).key entity = .ok key := by
  refine ⟨key_of_soundKey h entity, fun ⟨key, hkey⟩ => ?_⟩
  refine (soundKey_or_fault entity fs).resolve_right fun ⟨e, he⟩ => ?_
  cases (key_of_fault h he).symm.trans hkey

end SoundKey

/-! ### Schemas -/

variable {d : Description}

/-- The rules for the entity hold of a description that has a schema. -/
theorem entityRules_of_build {s : Schema} (h : Schema.build d = .ok s) : EntityRules d := by
  cases horigin : identifier? d.name with
  | none => simp [Schema.build, horigin] at h
  | some origin =>
  cases hfields : d.fields with
  | nil =>
    simp [Schema.build, horigin, hfields] at h
    cases h
  | cons f fs =>
  cases hgenerated : identifier? (d.className.getD (d.name ++ generatedSuffix)) with
  | none => simp [Schema.build, horigin, hfields, hgenerated] at h
  | some generated =>
  cases hhome : Path.ofText (d.home.getD defaultHome) with
  | error e => simp [Schema.build, horigin, hfields, hgenerated, hhome] at h
  | ok home =>
  have htable : ∀ table, d.table = some table → Text.isBlankText table = false := by
    intro table ht
    cases hblank : Text.isBlankText table with
    | false => rfl
    | true =>
      have herror : Schema.tableNameOf d = .error (.malformedEntity d.name .emptyTableName) := by
        simp [Schema.tableNameOf, ht, hblank]
      simp [Schema.build, horigin, hfields, hgenerated, hhome, herror] at h
      cases h
  exact ⟨by simp [horigin], by simp [hgenerated], by simp [hfields], ⟨home, hhome⟩, htable⟩

/-- Under the rules for the entity, a schema is the result of its fields and its key. -/
theorem build_of_entityRules (h : EntityRules d) : ∃ origin generated home,
    identifier? d.name = some origin ∧
    identifier? (d.className.getD (d.name ++ generatedSuffix)) = some generated ∧
    Path.ofText (d.home.getD defaultHome) = .ok home ∧
    Schema.build d = (d.fields.foldlM (FieldsSoFar.add d.name) .none).bind fun fields =>
      (fields.key d.name).map fun primaryKey =>
        { origin, generated, home, tableName := d.table.getD (Text.snakeCase d.name)
          hideColumns := d.hideColumns, storable := fields.storable, primaryKey
          transient := fields.transient } := by
  obtain ⟨origin, horigin⟩ := Option.isSome_iff_exists.mp h.origin
  obtain ⟨generated, hgenerated⟩ := Option.isSome_iff_exists.mp h.generated
  obtain ⟨home, hhome⟩ := h.home
  refine ⟨origin, generated, home, horigin, hgenerated, hhome, ?_⟩
  have hfields : d.fields.isEmpty = false := by simpa using h.inhabited
  have htable : Schema.tableNameOf d = .ok (d.table.getD (Text.snakeCase d.name)) := by
    cases ht : d.table with
    | none => simp [Schema.tableNameOf, ht]
    | some table => simp [Schema.tableNameOf, ht, h.table table ht]
  simp [Schema.build, horigin, hgenerated, hhome, hfields, htable]
  rfl

/-- What a schema is made of. -/
theorem parts_of_build {s : Schema} (h : Schema.build d = .ok s) :
    SoundFields d.fields ∧ (FieldsSoFar.of d.fields).key d.name = .ok s.primaryKey ∧
    identifier? d.name = some s.origin ∧
    identifier? (d.className.getD (d.name ++ generatedSuffix)) = some s.generated ∧
    Path.ofText (d.home.getD defaultHome) = .ok s.home ∧
    s = { s with
      tableName := d.table.getD (Text.snakeCase d.name), hideColumns := d.hideColumns
      storable := storedOf d.fields, transient := transientOf d.fields } := by
  obtain ⟨origin, generated, home, horigin, hgenerated, hhome, hbuild⟩ :=
    build_of_entityRules (entityRules_of_build h)
  rw [h] at hbuild
  cases hfields : d.fields.foldlM (FieldsSoFar.add d.name) .none with
  | error e => rw [hfields] at hbuild; cases hbuild
  | ok found =>
  cases hkey : found.key d.name with
  | error e => rw [hfields, Except.bind, hkey] at hbuild; cases hbuild
  | ok key =>
  rw [hfields, Except.bind, hkey] at hbuild
  obtain ⟨hsound, rfl⟩ := foldlM_add_ok_iff.mp hfields
  cases hbuild
  exact ⟨hsound, hkey, horigin, hgenerated, hhome, rfl⟩

theorem storable_eq_of_build {s : Schema} (h : Schema.build d = .ok s) :
    s.storable = storedOf d.fields ∧ s.transient = transientOf d.fields := by
  obtain ⟨-, -, -, -, -, hs⟩ := parts_of_build h
  exact ⟨congrArg Schema.storable hs, congrArg Schema.transient hs⟩

/-- A stored field is one that is described, under the identifier that its name denotes. -/
theorem exists_description_of_build {s : Schema} (h : Schema.build d = .ok s) {f : StoredField}
    (hf : f ∈ s.storable) : ∃ given ∈ d.fields, given.isStored = true ∧
      ∃ name, identifier? given.name = some name ∧ f = .ofDescription name given := by
  rw [(storable_eq_of_build h).1] at hf
  obtain ⟨given, hgiven, hf⟩ := List.mem_filterMap.mp hf
  obtain ⟨name, hname, rfl⟩ := Option.map_eq_some_iff.mp hf
  obtain ⟨hmem, hstored⟩ := List.mem_filter.mp hgiven
  exact ⟨given, hmem, hstored, name, hname, rfl⟩

/-- **A schema says what the description does**, and the description is sound. -/
theorem describes_of_build {s : Schema} (h : Schema.build d = .ok s) :
    SoundDescription d ∧ s.Describes d := by
  obtain ⟨hsound, hkey, horigin, hgenerated, hhome, hs⟩ := parts_of_build h
  obtain ⟨hstorable, htransient⟩ := storable_eq_of_build h
  obtain ⟨hkeys, hnull⟩ := key_ok_iff.mp hkey
  refine ⟨⟨entityRules_of_build h, hsound, (soundKey_iff hsound).mpr ⟨_, hkey⟩⟩, horigin,
    hgenerated, hhome, congrArg Schema.tableName hs, ?_, ?_, ?_, hnull⟩
  · rw [hstorable, hsound.map_stored?]
  · rw [htransient, hsound.map_transient]
  · rw [hstorable, hkeys]

/-- A description of another table has the same schema, except for the table. -/
theorem build_withTable {s : Schema} (h : Schema.build d = .ok s) {table : Option String}
    (htable : ∀ name, table = some name → Text.isBlankText name = false) :
    Schema.build { d with table } =
      .ok { s with tableName := table.getD (Text.snakeCase d.name) } := by
  obtain ⟨hsound, hkey, horigin, hgenerated, hhome, hs⟩ := parts_of_build h
  have hrules : EntityRules { d with table } := { entityRules_of_build h with table := htable }
  obtain ⟨_, _, _, horigin', hgenerated', hhome', hbuild⟩ := build_of_entityRules hrules
  cases horigin.symm.trans horigin'
  cases hgenerated.symm.trans hgenerated'
  cases hhome.symm.trans hhome'
  have hfields : d.fields.foldlM (FieldsSoFar.add d.name) .none = .ok (.of d.fields) :=
    foldlM_add_ok_iff.mpr ⟨hsound, rfl⟩
  rw [hbuild, hs]
  change (d.fields.foldlM (FieldsSoFar.add d.name) .none).bind _ = _
  rw [hfields, Except.bind, hkey]
  rfl

end EntityTable.Entity
