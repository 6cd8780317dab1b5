import EntityTable.Proofs.Entity.Reordered
import EntityTable.Proofs.Table.Generated
import EntityTable.Proofs.Table.ImportPaths
import EntityTable.Proofs.Table.Planning

/-! # Units of fields in another order

A description with its fields in another order is planned with the same columns, in that order
(`mem_columns_iff`, `key_eq`). So the same templates are filled and the same paths are imported, and
if a unit is generated for one of the descriptions, then one is for the other
(`exists_generate_of_perm`). -/

namespace EntityTable.Table

open Column (Plan Plans)
open Entity (Description FieldDescription Schema StoredField build_of_perm storable_eq_of_build
  storedOf_perm)

namespace PlannedTable

variable {d : Description} {s : Schema} {plans : Plans} {t t' : PlannedTable}

/-- The columns are the stored fields with the plans that these have. -/
theorem Fits.mem_columns_iff (h : t.Fits s plans) (hs : Schema.build d = .ok s)
    (hplans : Plans.resolve s = .ok plans) {c : PlannedField} :
    c ∈ t.columns ↔ c.field ∈ s.storable ∧ Plan.ofField c.field = .ok c.plan := by
  constructor
  · exact fun hc => ⟨h.fields ▸ List.mem_map_of_mem hc, h.ofField hs hplans hc⟩
  · obtain ⟨field, plan⟩ := c
    rintro ⟨hfield, hplan⟩
    obtain ⟨⟨_, plan'⟩, hc', rfl⟩ := List.mem_map.mp (h.fields ▸ hfield)
    obtain rfl : plan = plan' := Except.ok.inj (hplan.symm.trans (h.ofField hs hplans hc'))
    exact hc'

/-- No two columns are of one field. -/
theorem Fits.eq_of_field (h : t.Fits s plans) {a b : PlannedField} (ha : a ∈ t.columns)
    (hb : b ∈ t.columns) (hfield : a.field = b.field) : a = b :=
  List.inj_on_of_nodup_map h.distinct ha hb (congrArg StoredField.name hfield)

/-- The tables have the same columns, in whatever order. -/
structure SameColumns (t t' : PlannedTable) : Prop where
  home : t'.schema.home = t.schema.home
  key : t'.key = t.key
  columns : ∀ c, c ∈ t'.columns ↔ c ∈ t.columns

theorem SameColumns.mem_fillings (h : t.SameColumns t') {f : Filling} :
    f ∈ t'.fillings ↔ f ∈ t.fillings := by
  simp only [fillings, inserted, lookups, List.mem_append, List.mem_map, List.mem_filter,
    List.mem_singleton, h.columns, h.key]

theorem SameColumns.paths (h : t.SameColumns t') : t'.paths = t.paths := by
  rw [PlannedTable.paths, PlannedTable.paths, h.home, planPaths_congr h.columns]

theorem firstFault_eq_none {fillings : List Filling} :
    firstFault fillings = none ↔ ∀ f ∈ fillings, error? f.expr = none :=
  List.findSome?_eq_none_iff

/-- **If one of the tables is synthesized, so is the other.** -/
theorem SameColumns.synthesize (h : t.SameColumns t') {s' : Schema} {plans' : Plans}
    {u : GeneratedUnit} (ht : ofPlans s plans = .ok t) (ht' : ofPlans s' plans' = .ok t')
    (hu : GeneratedUnit.synthesize s plans = .ok u) :
    ∃ u', GeneratedUnit.synthesize s' plans' = .ok u' := by
  have hnone := error?_eq_none.mpr ⟨u, hu⟩
  rw [error?_synthesize ht, Option.or_eq_none_iff, firstFault_eq_none, error?_eq_none] at hnone
  obtain ⟨hfillings, is, himports⟩ := hnone
  rw [imports_eq_ok_iff, ← h.paths, ← imports_eq_ok_iff] at himports
  refine error?_eq_none.mp ?_
  rw [error?_synthesize ht', Option.or_eq_none_iff, firstFault_eq_none, error?_eq_none]
  exact ⟨fun f hf => hfillings f (h.mem_fillings.mp hf), is, himports⟩

end PlannedTable

variable {d : Description} {u : GeneratedUnit} {fields : List FieldDescription}

/-- **Fields in another order give a unit as well**, from a table with the same columns. -/
theorem exists_generate_of_perm (hu : generate d = .ok u) (h : fields.Perm d.fields) :
    ∃ s plans t u' s' plans' t', u.From d s plans t ∧
      generate { d with fields } = .ok u' ∧ u'.From { d with fields } s' plans' t' ∧
      t.SameColumns t' := by
  obtain ⟨s, plans, hs, hplans, hsynthesize⟩ := stages_of_generate hu
  obtain ⟨t, ht, hfits, -⟩ := PlannedTable.planned_of_synthesize hs hsynthesize
  obtain ⟨s', hs', hhome, hprimary, hstorable⟩ :
      ∃ s', Schema.build { d with fields } = .ok s' ∧ s'.home = s.home ∧
        s'.primaryKey = s.primaryKey ∧ ∀ f, f ∈ s'.storable ↔ f ∈ s.storable := by
    refine ⟨_, build_of_perm hs h, rfl, rfl, fun f => ?_⟩
    rw [(storable_eq_of_build hs).1]
    exact (storedOf_perm h).mem_iff
  obtain ⟨plans', hplans'⟩ := Plans.exists_resolve_iff.mpr fun f hf =>
    Plans.exists_resolve_iff.mp ⟨plans, hplans⟩ f ((hstorable f).mp hf)
  obtain ⟨t', ht'⟩ := exists_ofPlans_of_resolve hs' hplans'
  have hfits' := PlannedTable.fits_of_ofPlans hs' ht'
  have hcolumns : ∀ c, c ∈ t'.columns ↔ c ∈ t.columns := fun c => by
    rw [hfits'.mem_columns_iff hs' hplans', hfits.mem_columns_iff hs hplans, hstorable]
  have hkey : t'.key = t.key :=
    hfits.eq_of_field ((hcolumns _).mp hfits'.mem_key) hfits.mem_key
      (by rw [hfits'.key, hfits.key, hprimary])
  have hsame : t.SameColumns t' := ⟨by rw [hfits'.schema, hfits.schema, hhome], hkey, hcolumns⟩
  obtain ⟨u', hu'⟩ := hsame.synthesize ht ht' hsynthesize
  have hgenerate : generate { d with fields } = .ok u' := by
    rw [generate_of_resolve hs' hplans', hu']
    rfl
  obtain ⟨_, _, _, hfrom⟩ := GeneratedUnit.exists_from hu
  cases hs.symm.trans hfrom.build
  cases hplans.symm.trans hfrom.resolve
  cases ht.symm.trans hfrom.planned
  obtain ⟨_, _, _, hfrom'⟩ := GeneratedUnit.exists_from hgenerate
  cases hs'.symm.trans hfrom'.build
  cases hplans'.symm.trans hfrom'.resolve
  cases ht'.symm.trans hfrom'.planned
  exact ⟨s, plans, t, u', s', plans', t', hfrom, hgenerate, hfrom', hsame⟩

end EntityTable.Table
