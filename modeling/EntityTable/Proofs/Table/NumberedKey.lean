import EntityTable.Proofs.Table.ColumnLists
import EntityTable.Proofs.Table.Conversions

/-! # Keys that the database numbers

A column is numbered by the database if it has the modifier for it. That is decided by the roles of
its field, of which the schema has checked that only one is the key, while its storage comes from
the conversion. Together they leave at most one numbered column, the key, stored as an integer
(`From.numbered_key`). Insertions leave out the numbered column and no other, and still return it,
and updates write it like any other. Main statement: `numberedKey_of_generate`. -/

namespace EntityTable.Table

open Source Sql
open Column (Modifier Plan Plans)
open Entity (Description Schema StoredField describes_of_build storable_eq_of_build)

/-- The database numbers the column. -/
def ColumnConstant.isNumbered (c : ColumnConstant) : Bool := c.modifiers.contains .autoIncrement

/-- The fields whose columns the database does not number. -/
def TableObject.givenFields (t : TableObject) : List String :=
  (t.columns.filter fun c => !c.isNumbered).map ColumnConstant.field

/-- If at most one element passes a test, all do only if there is just one. -/
theorem filter_not_eq_nil_iff {α : Type} {p : α → Bool} {l : List α} (hne : l ≠ [])
    (hone : (l.filter p).length ≤ 1) :
    l.filter (fun a => !p a) = [] ↔ ∃ a, l = [a] ∧ p a = true := by
  constructor
  · intro hnil
    -- All elements pass, so the list is as short as the list of those that do.
    have hall : ∀ a ∈ l, p a = true := by simpa using hnil
    rw [List.filter_eq_self.mpr hall] at hone
    obtain ⟨a, rfl⟩ : ∃ a, l = [a] :=
      List.length_eq_one_iff.mp (Nat.le_antisymm hone (List.length_pos_iff.mpr hne))
    exact ⟨a, rfl, hall a (List.mem_singleton_self a)⟩
  · rintro ⟨a, rfl, ha⟩
    simp [ha]

namespace GeneratedUnit.From

variable {u : GeneratedUnit} {d : Description} {s : Schema} {plans : Plans} {t : PlannedTable}
  (h : u.From d s plans t)
include h

/-! ### Fields -/

/-- Only the key is a key that the database numbers. -/
theorem filter_isAutoIncrement_sublist :
    (s.storable.filter StoredField.isAutoIncrement).Sublist [s.primaryKey] := by
  rw [← (describes_of_build h.build).2.key]
  refine List.monotone_filter_right _ fun f hf => ?_
  exact (Bool.and_eq_true_iff.mp hf).1

theorem eq_primaryKey {f : StoredField} (hf : f ∈ s.storable) (hauto : f.isAutoIncrement = true) :
    f = s.primaryKey :=
  List.mem_singleton.mp (h.filter_isAutoIncrement_sublist.subset (List.mem_filter.mpr ⟨hf, hauto⟩))

/-! ### Columns -/

theorem isNumbered_ofPlanned {p : PlannedField} (hp : p ∈ t.columns) (isPublic : Bool) :
    (ColumnConstant.ofPlanned isPublic p).isNumbered = p.field.isAutoIncrement :=
  (h.planOf hp).has_eq .autoIncrement

/-- **The modifiers of every column are in order.** -/
theorem pairwise_modifiers {k : ColumnConstant} (hk : k ∈ u.table.columns) :
    k.modifiers.Pairwise fun a b => a.rank < b.rank := by
  obtain ⟨c, hc, rfl⟩ := h.exists_planned hk
  have hmodifiers : c.plan.modifiers = Plan.modifiersOf c.field := (h.planOf hc).modifiers
  change c.plan.modifiers.Pairwise _
  rw [hmodifiers]
  exact Plan.pairwise_modifiersOf c.field

/-- At most one column is numbered. -/
theorem length_numbered_le : (u.table.columns.filter ColumnConstant.isNumbered).length ≤ 1 := by
  have hfields := congrArg List.length (h.fields_filter fun _ hc isPublic =>
    h.isNumbered_ofPlanned hc isPublic)
  rw [List.length_map, List.length_map] at hfields
  rw [hfields]
  exact h.filter_isAutoIncrement_sublist.length_le

/-- **A numbered column is that of the key**, which is marked for it, stored as an integer and never
null. -/
theorem numbered_key {k : ColumnConstant} (hk : k ∈ u.table.columns)
    (hnumbered : k.isNumbered = true) :
    k.field = u.table.primaryKey.field ∧ (k.storage = .integer ∨ k.storage = .bigInt) ∧
      Modifier.nullable ∉ k.modifiers ∧
      ∃ f ∈ d.fields, identifier? f.name = some k.field ∧ f.isStored = true ∧
        f.roles.primaryKey = true ∧ f.roles.autoIncrement = true ∧ f.ty.optionItem? = none := by
  obtain ⟨c, hc, rfl⟩ := h.exists_planned hk
  have hauto : c.field.isAutoIncrement = true := (h.isNumbered_ofPlanned hc _).symm.trans hnumbered
  have hkey : c.field = s.primaryKey := h.eq_primaryKey (h.mem_storable hc) hauto
  have hrequired : c.field.isNullable = false := hkey ▸ h.isNullable_key
  refine ⟨?_, ?_, ?_, ?_⟩
  · rw [h.primaryKey]
    exact congrArg StoredField.name (hkey.trans h.fits.key.symm)
  · have hinteger : c.plan.storage.isInteger = true := (h.planOf hc).numbered hauto
    change c.plan.storage = .integer ∨ c.plan.storage = .bigInt
    cases hstorage : c.plan.storage with
    | integer => exact .inl rfl
    | bigInt => exact .inr rfl
    | uuid | text | boolean =>
      rw [hstorage] at hinteger
      cases hinteger
  · intro hnullable
    have hnullable : Modifier.nullable ∈ c.plan.modifiers := hnullable
    rw [(h.planOf hc).modifiers, Plan.mem_modifiersOf] at hnullable
    exact absurd (hrequired.symm.trans hnullable) (by decide)
  · obtain ⟨f, hf, hstored, name, hname, hfield⟩ := h.exists_description (h.mem_storable hc)
    rw [hfield] at hauto hrequired
    obtain ⟨hprimary, hmarked⟩ := Bool.and_eq_true_iff.mp hauto
    refine ⟨f, hf, ?_, hstored, hprimary, hmarked, Option.not_isSome_iff_eq_none.mp ?_⟩
    · rw [hname]
      exact congrArg (fun g => some g.name) hfield.symm
    · exact Bool.not_eq_true _ ▸ hrequired

/-! ### Statements -/

/-- The field of a numbered column is not given, since no other column is for the same field. -/
theorem notMem_givenFields {k : ColumnConstant} (hk : k ∈ u.table.columns)
    (hnumbered : k.isNumbered = true) : k.field ∉ u.table.givenFields := by
  intro hgiven
  obtain ⟨k', hk', hfield⟩ := List.mem_map.mp hgiven
  obtain ⟨hmem, hother⟩ := List.mem_filter.mp hk'
  have hsame : k' = k := List.inj_on_of_nodup_map h.nodup_fields_columns hmem hk hfield
  rw [hsame, hnumbered] at hother
  cases hother

theorem givenFields_eq : u.table.givenFields =
    (s.storable.filter fun f => !f.isAutoIncrement).map StoredField.name :=
  h.fields_filter fun _ hc isPublic => congrArg (! ·) (h.isNumbered_ofPlanned hc isPublic)

/-- An insertion gives values for the columns that the database does not number. -/
theorem names_inserted : (t.inserted.map fun c => c.plan.column) = u.table.givenFields := by
  rw [h.givenFields_eq]
  exact h.map_inserted fun _ hc => h.fits.column hc

theorem givenFields_eq_nil_iff :
    u.table.givenFields = [] ↔ ∃ k, u.table.columns = [k] ∧ k.isNumbered = true := by
  have hne : u.table.columns ≠ [] := by
    rw [h.columns]
    exact fun hnil => List.ne_nil_of_mem h.fits.mem_key (List.map_eq_nil_iff.mp hnil)
  rw [TableObject.givenFields, List.map_eq_nil_iff]
  exact filter_not_eq_nil_iff hne h.length_numbered_le

/-- **What an insertion writes and returns**: the columns that are not numbered, and all columns. -/
theorem insertion {o : Operation} (ho : o ∈ u.table.operations) (hkind : o.kind = .create) :
    o.fields = u.table.givenFields ∧
    ∃ sql tokens, o.sql? = some sql ∧ lexemes sql = some tokens ∧
      insertedColumns tokens = u.table.givenFields ∧
      (insertsDefaults tokens = true ↔ ∃ k, u.table.columns = [k] ∧ k.isNumbered = true) ∧
      resultColumns tokens = u.table.columns.map ColumnConstant.field := by
  have hst : t.statement? o.kind = some (.insert t.tableName
      (t.inserted.map fun c => c.plan.column) t.columnNames) := by
    rw [hkind]
    rfl
  obtain ⟨hsql, htokens⟩ := h.lexemes_sql ho hst
  have hfields : o.fields = t.inserted.map PlannedField.name := by
    rw [h.fields_eq ho hst, hkind]
    rfl
  refine ⟨?_, _, _, hsql, htokens, ?_, ?_, ?_⟩
  · rw [hfields, ← h.names_inserted]
    exact List.map_congr_left fun c hc => (h.fits.column (List.mem_filter.mp hc).1).symm
  · rw [Statement.insertedColumns_onTable, h.names_inserted]
  · rw [Statement.insertsDefaults_onTable, h.names_inserted, h.givenFields_eq_nil_iff]
  · rw [Statement.resultColumns_onTable _ rfl, h.fields_columns]
    exact h.names

/-- **What an update writes**: all columns. -/
theorem assignment {o : Operation} (ho : o ∈ u.table.operations) (hkind : o.kind = .update) :
    o.fields = u.table.columns.map ColumnConstant.field ∧
    ∃ sql tokens, o.sql? = some sql ∧ lexemes sql = some tokens ∧
      assignedColumns tokens = u.table.columns.map ColumnConstant.field := by
  have hst : t.statement? o.kind = some (.update t.tableName t.columnNames t.keyColumn) := by
    rw [hkind]
    rfl
  obtain ⟨hsql, htokens⟩ := h.lexemes_sql ho hst
  have hfields : o.fields = t.columns.map PlannedField.name := by
    rw [h.fields_eq ho hst, hkind]
    rfl
  refine ⟨?_, _, _, hsql, htokens, ?_⟩
  · rw [hfields, h.fields_columns, h.fits.names]
  · rw [Statement.assignedColumns_onTable, h.fields_columns, h.names]

end GeneratedUnit.From

/-- **The numbered key**: at most one column is numbered by the database, and it is the key, marked
for it and stored as an integer that is never null. It is the only column that an insertion leaves
out, so that nothing is left if there is no other column, and it is returned and updated like all
columns. -/
theorem numberedKey_of_generate {d : Description} {u : GeneratedUnit} (h : generate d = .ok u) :
    ∃ s, Schema.build d = .ok s ∧
      u.table.columns.map ColumnConstant.field = s.storable.map StoredField.name ∧
      (∀ k ∈ u.table.columns, k.modifiers.Pairwise fun a b => a.rank < b.rank) ∧
      (u.table.columns.filter ColumnConstant.isNumbered).length ≤ 1 ∧
      (∀ k ∈ u.table.columns, k.isNumbered = true → k.field ∉ u.table.givenFields ∧
        k.field = u.table.primaryKey.field ∧ (k.storage = .integer ∨ k.storage = .bigInt) ∧
        Modifier.nullable ∉ k.modifiers ∧
        ∃ f ∈ d.fields, identifier? f.name = some k.field ∧ f.isStored = true ∧
          f.roles.primaryKey = true ∧ f.roles.autoIncrement = true ∧ f.ty.optionItem? = none) ∧
      u.table.givenFields =
        (s.storable.filter fun f => !f.isAutoIncrement).map StoredField.name ∧
      OperationKind.create ∈ u.table.operations.map Operation.kind ∧
      OperationKind.update ∈ u.table.operations.map Operation.kind ∧
      ∀ o ∈ u.table.operations,
        (o.kind = .create → o.fields = u.table.givenFields ∧
          ∃ sql tokens, o.sql? = some sql ∧ lexemes sql = some tokens ∧
            insertedColumns tokens = u.table.givenFields ∧
            (insertsDefaults tokens = true ↔ ∃ k, u.table.columns = [k] ∧ k.isNumbered = true) ∧
            resultColumns tokens = u.table.columns.map ColumnConstant.field) ∧
        (o.kind = .update → o.fields = u.table.columns.map ColumnConstant.field ∧
          ∃ sql tokens, o.sql? = some sql ∧ lexemes sql = some tokens ∧
            assignedColumns tokens = u.table.columns.map ColumnConstant.field) := by
  obtain ⟨s, plans, t, hfrom⟩ := GeneratedUnit.exists_from h
  refine ⟨s, hfrom.build, hfrom.fields_columns, fun k hk => hfrom.pairwise_modifiers hk,
    hfrom.length_numbered_le,
    fun k hk hnumbered => ⟨hfrom.notMem_givenFields hk hnumbered, hfrom.numbered_key hk hnumbered⟩,
    hfrom.givenFields_eq, ?_, ?_,
    fun o ho => ⟨hfrom.insertion ho, hfrom.assignment ho⟩⟩
  · simp [hfrom.kinds]
  · simp [hfrom.kinds]

/-- The number of a lap is left out of insertions, which return it. -/
theorem numberedKey_of_generate_lap : ∃ u, generate lap = .ok u ∧
    ∃ o ∈ u.table.operations, o.kind = .create ∧ o.fields = ["time"] ∧
      ∃ sql tokens, o.sql? = some sql ∧ lexemes sql = some tokens ∧
        insertedColumns tokens = ["time"] ∧ resultColumns tokens = ["number", "time"] := by
  obtain ⟨u, hu⟩ := exists_generate_lap
  obtain ⟨s, hs, hcolumns, -, -, -, hgiven, hcreate, -, hoperations⟩ := numberedKey_of_generate hu
  have hnames : s.storable.map StoredField.name = ["number", "time"] := by
    rw [(storable_eq_of_build hs).1]
    decide
  have htime : (s.storable.filter fun f => !f.isAutoIncrement).map StoredField.name = ["time"] := by
    rw [(storable_eq_of_build hs).1]
    decide
  obtain ⟨o, ho, hkind⟩ := List.mem_map.mp hcreate
  obtain ⟨hfields, sql, tokens, hsql, htokens, hinserted, -, hresults⟩ := (hoperations o ho).1 hkind
  refine ⟨u, hu, o, ho, hkind, ?_, sql, tokens, hsql, htokens, ?_, ?_⟩
  · rw [hfields, hgiven, htime]
  · rw [hinserted, hgiven, htime]
  · rw [hresults, hcolumns, hnames]

end EntityTable.Table
