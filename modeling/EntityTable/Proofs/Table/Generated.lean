import EntityTable.Proofs.Table.Order

/-! # Generated units

What is generated for a description has a column for each of its stored fields, with the plan of the
field (`GeneratedUnit.From`). The parts of a unit are made from these columns, some by what the plan
says and some by what the field says; they are the same parts, since the plan is that of the field
(`From.inserted_eq`, `From.indexed_eq`). A property of all operations is shown for each way in which
one is made (`PlannedTable.Makes`). -/

namespace EntityTable.Table

open Sql
open Column (Plan Plans)
open Entity (Description Schema StoredField describes_of_build exists_description_of_build
  nodup_names_of_build)
open Source (identifier?)

/-! ### Operations -/

/-- The operation is one of those that are made from the columns. -/
inductive PlannedTable.Makes (t : PlannedTable) : Operation → Prop where
  | save : Makes t t.save
  | create {o : Operation} : t.create = .ok o → Makes t o
  | update {o : Operation} : t.update = .ok o → Makes t o
  | delete {o : Operation} : t.delete = .ok o → Makes t o
  | get {o : Operation} : t.get = .ok o → Makes t o
  | getAll : Makes t t.getAll
  | getBy {c : PlannedField} {o : Operation} : c ∈ t.lookups → t.getBy c = .ok o → Makes t o
  | transform {o : Operation} : t.transform = .ok o → Makes t o

theorem PlannedTable.makes_of_mem {t : PlannedTable} {os : List Operation}
    (h : t.operations = .ok os) {o : Operation} (ho : o ∈ os) : t.Makes o := by
  obtain ⟨create, hcreate, h⟩ := bind_eq_ok.mp h
  obtain ⟨update, hupdate, h⟩ := bind_eq_ok.mp h
  obtain ⟨delete, hdelete, h⟩ := bind_eq_ok.mp h
  obtain ⟨get, hget, h⟩ := bind_eq_ok.mp h
  obtain ⟨lookups, hlookups, h⟩ := bind_eq_ok.mp h
  obtain ⟨transform, htransform, h⟩ := bind_eq_ok.mp h
  cases h
  simp only [List.mem_append, List.mem_cons, List.not_mem_nil, or_false] at ho
  rcases ho with ((rfl | rfl | rfl | rfl | rfl | rfl) | ho) | rfl
  · exact .save
  · exact .create hcreate
  · exact .update hupdate
  · exact .delete hdelete
  · exact .get hget
  · exact .getAll
  · obtain ⟨c, hc, hmade⟩ := exists_of_mem_mapM hlookups ho
    exact .getBy hc hmade
  · exact .transform htransform

/-! ### Units -/

/-- The unit is generated for the description: from its schema, the plans of the stored fields and
the columns that these give. -/
structure GeneratedUnit.From (u : GeneratedUnit) (d : Description) (s : Schema) (plans : Plans)
    (t : PlannedTable) : Prop where
  build : Schema.build d = .ok s
  resolve : Plans.resolve s = .ok plans
  fits : t.Fits s plans
  name : u.table.name = s.generated
  entity : u.table.entity = s.origin
  operations : t.operations = .ok u.table.operations
  columns : u.table.columns = t.columns.map (.ofPlanned !s.hideColumns)
  statements : u.table.statements = t.schemaStatements
  tableName : u.table.tableName = t.tableName
  primaryKey : u.table.primaryKey = ⟨t.key.name, t.keyTy, t.keyColumn⟩
  planned : PlannedTable.ofPlans s plans = .ok t
  imports : t.imports = .ok u.imports

/-- **Every generated unit comes from planned columns.** -/
theorem GeneratedUnit.exists_from {d : Description} {u : GeneratedUnit} (h : generate d = .ok u) :
    ∃ s plans t, u.From d s plans t := by
  obtain ⟨s, plans, hs, hplans, hu⟩ := stages_of_generate h
  obtain ⟨t, ht, hu⟩ := bind_eq_ok.mp hu
  obtain ⟨table, htable, hu⟩ := bind_eq_ok.mp hu
  obtain ⟨imports, himports, hu⟩ := bind_eq_ok.mp hu
  obtain ⟨os, hos, htable⟩ := bind_eq_ok.mp htable
  cases hu
  cases htable
  have hfits := PlannedTable.fits_of_ofPlans hs ht
  exact ⟨s, plans, t, hs, hplans, hfits, congrArg Schema.generated hfits.schema,
    congrArg Schema.origin hfits.schema, hos, by rw [hfits.schema], rfl, rfl, rfl, ht, himports⟩

/-- The columns that are planned for a description. -/
def plannedTable? (d : Description) : Option PlannedTable :=
  (Schema.build d).toOption.bind fun s =>
    (Plans.resolve s).toOption.bind fun plans => (PlannedTable.ofPlans s plans).toOption

namespace GeneratedUnit.From

variable {u : GeneratedUnit} {d : Description} {s : Schema} {plans : Plans} {t : PlannedTable}
  {c : PlannedField} (h : u.From d s plans t)
include h

/-! ### Columns and fields -/

theorem plannedTable?_eq : plannedTable? d = some t := by
  rw [plannedTable?, h.build, Except.toOption, Option.bind_some, h.resolve, Except.toOption,
    Option.bind_some, h.planned, Except.toOption]

theorem planOf (hc : c ∈ t.columns) : c.plan.IsOf c.field :=
  Plan.isOf_of_ofField (h.fits.ofField h.build h.resolve hc)

theorem mem_storable (hc : c ∈ t.columns) : c.field ∈ s.storable :=
  h.fits.fields ▸ List.mem_map_of_mem hc

theorem exists_column {f : StoredField} (hf : f ∈ s.storable) : ∃ c ∈ t.columns, c.field = f :=
  List.mem_map.mp (h.fits.fields ▸ hf)

/-- A stored field is one that is described. -/
theorem exists_description {f : StoredField} (hf : f ∈ s.storable) :
    ∃ given ∈ d.fields, given.isStored = true ∧
      ∃ name, identifier? given.name = some name ∧ f = .ofDescription name given :=
  exists_description_of_build h.build hf

/-- What is taken from each column is taken from each stored field. -/
theorem map_columns {α : Type} {g : PlannedField → α} {k : StoredField → α}
    (hg : ∀ c ∈ t.columns, g c = k c.field) : t.columns.map g = s.storable.map k := by
  rw [← h.fits.fields, List.map_map]
  exact List.map_congr_left hg

/-- The columns that are inserted are those of the fields that the database does not number. -/
theorem inserted_eq : t.inserted = t.columns.filter fun c => !c.field.isAutoIncrement :=
  List.filter_congr fun _ hc => congrArg (! ·) ((h.planOf hc).has_eq .autoIncrement)

/-- The columns with an index are those by which entities are looked up. -/
theorem indexed_eq : t.columns.filter (fun c => c.plan.has .indexed) = t.lookups :=
  List.filter_congr fun _ hc => (h.planOf hc).has_eq .indexed

theorem map_filter {α : Type} {p : StoredField → Bool} {g : PlannedField → α} {k : StoredField → α}
    (hg : ∀ c ∈ t.columns, g c = k c.field) :
    (t.columns.filter fun c => p c.field).map g = (s.storable.filter p).map k := by
  rw [← h.fits.fields, List.filter_map, List.map_map]
  exact List.map_congr_left fun c hc => hg c (List.mem_filter.mp hc).1

theorem map_inserted {α : Type} {g : PlannedField → α} {k : StoredField → α}
    (hg : ∀ c ∈ t.columns, g c = k c.field) :
    t.inserted.map g = (s.storable.filter fun f => !f.isAutoIncrement).map k := by
  rw [h.inserted_eq]
  exact h.map_filter (p := fun f => !f.isAutoIncrement) hg

theorem names : t.columnNames = s.storable.map StoredField.name :=
  h.fits.columnNames.trans h.fits.names

/-- The table has the name that is given, or else that of the entity in snake case. -/
theorem tableName_eq : u.table.tableName = d.table.getD (Text.snakeCase d.name) := by
  rw [h.tableName, PlannedTable.tableName, h.fits.schema, (describes_of_build h.build).2.tableName]

theorem isNullable_key : s.primaryKey.isNullable = false := (describes_of_build h.build).2.required

/-! ### Constants -/

theorem exists_planned {k : ColumnConstant} (hk : k ∈ u.table.columns) :
    ∃ c ∈ t.columns, ColumnConstant.ofPlanned (!s.hideColumns) c = k := by
  rw [h.columns] at hk
  exact List.mem_map.mp hk

theorem fields_columns :
    u.table.columns.map ColumnConstant.field = s.storable.map StoredField.name := by
  rw [h.columns, List.map_map]
  exact h.map_columns fun _ _ => rfl

/-- All column constants are for different fields. -/
theorem nodup_fields_columns : (u.table.columns.map ColumnConstant.field).Nodup := by
  rw [h.fields_columns]
  exact nodup_names_of_build h.build

/-- The constants that pass a test are those of the fields that do. -/
theorem fields_filter {q : ColumnConstant → Bool} {p : StoredField → Bool}
    (hq : ∀ c ∈ t.columns, ∀ isPublic, q (.ofPlanned isPublic c) = p c.field) :
    (u.table.columns.filter q).map ColumnConstant.field =
      (s.storable.filter p).map StoredField.name := by
  have hfilter : t.columns.filter (q ∘ ColumnConstant.ofPlanned !s.hideColumns) =
      t.columns.filter fun c => p c.field := List.filter_congr fun c hc => hq c hc _
  rw [h.columns, List.filter_map, hfilter, List.map_map]
  exact h.map_filter fun _ _ => rfl

/-! ### Operations and their kinds -/

theorem kinds : u.table.operations.map Operation.kind =
    [OperationKind.save, .create, .update, .delete, .get, .getAll] ++
      s.lookups.map (fun f => OperationKind.getBy f.name) ++ [OperationKind.transform] := by
  rw [(PlannedTable.operations_run h.fits h.operations).1, PlannedTable.kinds, ← h.fits.lookups,
    List.map_map]
  rfl

theorem makes {o : Operation} (ho : o ∈ u.table.operations) : t.Makes o :=
  PlannedTable.makes_of_mem h.operations ho

/-- The text of an operation is that of the statement of its kind. -/
theorem sql?_eq {o : Operation} (ho : o ∈ u.table.operations) :
    o.sql? = (t.statement? o.kind).map Statement.text := by
  rw [← (PlannedTable.operations_in_order h.fits h.operations o ho).1, Option.map_map]
  rfl

/-- The text is read as the shape of the statement on the table. -/
theorem lexemes_sql {o : Operation} (ho : o ∈ u.table.operations) {st : Statement}
    (hst : t.statement? o.kind = some st) : o.sql? = some st.text ∧
      lexemes st.text = some (onTable u.table.tableName st.shape) := by
  rw [h.sql?_eq ho, hst, h.tableName]
  exact ⟨rfl, st.reads_text (PlannedTable.isOn_statement? hst).1⟩

/-- An operation with a statement lists the fields that it is given values of. -/
theorem fields_eq {o : Operation} (ho : o ∈ u.table.operations) {st : Statement}
    (hst : t.statement? o.kind = some st) :
    o.fields = PlannedTable.namesOf (t.operands o.kind) := by
  obtain ⟨hkind | hkind, -⟩ | ⟨q, hq⟩ := (PlannedTable.operations_run h.fits h.operations).2 o ho
  · rw [hkind] at hst
    cases hst
  · rw [hkind] at hst
    cases hst
  · exact hq.fields

end GeneratedUnit.From

end EntityTable.Table
