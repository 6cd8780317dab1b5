import EntityTable.Generation
import EntityTable.Proofs.Column.Resolved

/-! # The columns of a planned table

A planned table has a column for each stored field of its schema, in order, with the plan for the
name of the field; the name of the column is that of the field. In a schema that has been built no
two fields share a name, so the key is the column of the schema's primary key and a name denotes one
column (`PlannedTable.Fits`). -/

namespace EntityTable.Table

open Column (MappingError Plan Plans)
open Entity (Description Schema StoredField article describes_of_build nodup_names_of_build)

/-- The stages of a generation that succeeds. -/
theorem stages_of_generate {d : Description} {u : GeneratedUnit} (h : generate d = .ok u) :
    ∃ s plans, Schema.build d = .ok s ∧ Plans.resolve s = .ok plans ∧
      GeneratedUnit.synthesize s plans = .ok u := by
  obtain ⟨s, hs, h⟩ := bind_eq_ok.mp h
  obtain ⟨plans, hplans, h⟩ := bind_eq_ok.mp h
  exact ⟨s, plans, mapError_eq_ok.mp hs, mapError_eq_ok.mp hplans, mapError_eq_ok.mp h⟩

theorem generate_of_resolve {d : Description} {s : Schema} {plans : Plans}
    (hs : Schema.build d = .ok s) (hplans : Plans.resolve s = .ok plans) :
    generate d = (GeneratedUnit.synthesize s plans).mapError .mapping := by
  rw [generate, hs]
  show ((Plans.resolve s).mapError GenerateError.mapping >>= _) = _
  rw [hplans]
  rfl

theorem generate_of_resolve_error {d : Description} {s : Schema} {e : MappingError}
    (hs : Schema.build d = .ok s) (hplans : Plans.resolve s = .error e) :
    generate d = .error (.mapping e) := by
  rw [generate, hs]
  show ((Plans.resolve s).mapError GenerateError.mapping >>= _) = _
  rw [hplans]
  rfl

theorem exists_generate_article : ∃ u, generate article = .ok u :=
  exists_ok_of_toBool (by decide +kernel)

namespace PlannedTable

/-- The columns are the stored fields of the schema with their plans, and the key is among them. -/
structure Fits (t : PlannedTable) (s : Schema) (plans : Plans) : Prop where
  schema : t.schema = s
  fields : t.columns.map PlannedField.field = s.storable
  planned : ∀ c ∈ t.columns, plans.get? c.name = some c.plan
  mem_key : t.key ∈ t.columns
  key : t.key.field = s.primaryKey
  /-- No two columns share a name. -/
  distinct : (t.columns.map PlannedField.name).Nodup

variable {t : PlannedTable} {s : Schema} {plans : Plans}

theorem Fits.column (h : t.Fits s plans) {c : PlannedField} (hc : c ∈ t.columns) :
    c.plan.column = c.name := Plans.column_of_get? (h.planned c hc)

theorem Fits.columnNames (h : t.Fits s plans) :
    t.columnNames = t.columns.map PlannedField.name :=
  List.map_congr_left fun _ hc => h.column hc

theorem planned_eq {field : StoredField} {c : PlannedField} (h : planned plans field = .ok c) :
    c.field = field ∧ plans.get? c.name = some c.plan := by
  unfold planned at h
  split at h
  · cases h
    exact ⟨rfl, ‹_›⟩
  · cases h

theorem mapM_planned : ∀ {fields : List StoredField} {columns : List PlannedField},
    fields.mapM (planned plans) = .ok columns →
    columns.map PlannedField.field = fields ∧ ∀ c ∈ columns, plans.get? c.name = some c.plan
  | [], columns, h => by
    cases h
    simp
  | field :: fields, columns, h => by
    rw [List.mapM_cons] at h
    obtain ⟨c, hc, h⟩ := bind_eq_ok.mp h
    obtain ⟨rest, hrest, h⟩ := bind_eq_ok.mp h
    cases h
    obtain ⟨hfield, hplan⟩ := planned_eq hc
    obtain ⟨hfields, hplans⟩ := mapM_planned hrest
    exact ⟨by rw [List.map_cons, hfield, hfields], by simpa using ⟨hplan, hplans⟩⟩

/-- **The planned columns of a schema that has been built.** -/
theorem fits_of_ofPlans {d : Description} (hs : Schema.build d = .ok s)
    (h : ofPlans s plans = .ok t) : t.Fits s plans := by
  obtain ⟨columns, hcolumns, h⟩ := bind_eq_ok.mp h
  obtain ⟨hfields, hplans⟩ := mapM_planned hcolumns
  have hnames : columns.map PlannedField.name = s.storable.map StoredField.name := by
    rw [← hfields, List.map_map]
    rfl
  have hdistinct : (columns.map PlannedField.name).Nodup := by
    rw [hnames]
    exact nodup_names_of_build hs
  have hprimary : s.primaryKey ∈ s.storable :=
    (List.mem_filter.mp ((describes_of_build hs).2.key ▸ List.mem_singleton_self _)).1
  obtain ⟨c, hc, hcfield⟩ := List.mem_map.mp (hfields ▸ hprimary)
  cases hkey : columns.find? fun c => c.name == s.primaryKey.name with
  | none => rw [hkey] at h; cases h
  | some key =>
    rw [hkey] at h
    cases h
    have hmem := List.mem_of_find?_eq_some hkey
    -- the key is found by its name, which no other column has
    have hname : key.name = c.name := by
      have hname := List.find?_some hkey
      rw [beq_iff_eq] at hname
      rw [hname, ← hcfield]
      rfl
    obtain rfl := List.inj_on_of_nodup_map hdistinct hmem hc hname
    exact ⟨rfl, hfields, hplans, hmem, hcfield, hdistinct⟩

/-- The plan of a column is that of its field. -/
theorem Fits.ofField {d : Description} (hfits : t.Fits s plans) (hs : Schema.build d = .ok s)
    (h : Plans.resolve s = .ok plans) {c : PlannedField} (hc : c ∈ t.columns) :
    Plan.ofField c.field = .ok c.plan := by
  obtain ⟨f, hf, hplan⟩ :=
    exists_of_mem_mapM (Plans.mapM_ofField_of_resolve hs h) (Plans.mem_of_get? (hfits.planned c hc))
  have hfield : c.field ∈ s.storable := hfits.fields ▸ List.mem_map_of_mem hc
  have hname : f.name = c.field.name :=
    (Plan.column_of_ofField hplan).symm.trans (hfits.column hc)
  obtain rfl := List.inj_on_of_nodup_map (nodup_names_of_build hs) hf hfield hname
  exact hplan

/-- What a unit that is synthesized takes from its planned table. -/
theorem planned_of_synthesize {d : Description} {u : GeneratedUnit} (hs : Schema.build d = .ok s)
    (hu : GeneratedUnit.synthesize s plans = .ok u) :
    ∃ t, ofPlans s plans = .ok t ∧ t.Fits s plans ∧ t.operations = .ok u.table.operations ∧
      u.table.tableName = s.tableName ∧ u.table.statements = t.schemaStatements := by
  obtain ⟨t, ht, hu⟩ := bind_eq_ok.mp hu
  obtain ⟨table, htable, hu⟩ := bind_eq_ok.mp hu
  obtain ⟨imports, -, hu⟩ := bind_eq_ok.mp hu
  obtain ⟨os, hos, htable⟩ := bind_eq_ok.mp htable
  cases hu
  cases htable
  have hfits := fits_of_ofPlans hs ht
  exact ⟨t, ht, hfits, hos, congrArg Schema.tableName hfits.schema, rfl⟩

end PlannedTable

end EntityTable.Table
