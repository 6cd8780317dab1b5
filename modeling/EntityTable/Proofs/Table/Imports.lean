import EntityTable.Proofs.Column.Imports
import EntityTable.Proofs.Table.Direct
import EntityTable.Proofs.Table.Reordered
import EntityTable.Proofs.Text.ByteOrder

/-! # What a unit imports

A unit imports the module of its entity, the base, and what the plans of its columns list. The
functions of a text form are imported exactly if a stored field is converted by the form or a mapping
declares them. The functions that a user's template calls by itself are up to the mapping: it has to
declare them, and what it does not declare is not imported (`imports_ownCall`). Main statement:
`imports_of_generate`. -/

namespace EntityTable.Table

open Source
open Column (Conversion Plan Plans TextForm declaredImports userText)
open Entity (Description FieldDescription Schema StoredField)

/-- No function of a text form belongs to the base. -/
theorem notMem_baseImports_of_textForm {g : TextForm} {path : String} (h : path ∈ g.imports) :
    path ∉ baseImports := by
  simp only [TextForm.imports, List.mem_cons, List.not_mem_nil, or_false] at h
  rcases h with rfl | rfl <;> cases g <;> decide

namespace GeneratedUnit.From

variable {u : GeneratedUnit} {d : Description} {s : Schema} {plans : Plans} {t : PlannedTable}
  (h : u.From d s plans t)
include h

theorem map_paths : u.imports.map Import.path = t.paths :=
  map_path_of_ofText? (PlannedTable.imports_eq_ok_iff.mp h.imports)

theorem map_path : u.imports.map Import.path = homeGlob s.home :: baseImports ++ t.planPaths := by
  rw [h.map_paths, PlannedTable.paths, h.fits.schema]

theorem get?_name {c : PlannedField} (hc : c ∈ t.columns) : plans.get? c.field.name = some c.plan :=
  h.fits.planned c hc

/-- The plans of the columns are all plans. -/
theorem mem_plans {plan : Plan} : plan ∈ plans.toList ↔ ∃ c ∈ t.columns, c.plan = plan := by
  constructor
  · intro hplan
    obtain ⟨f, hf, hplanned⟩ :=
      exists_of_mem_mapM (Plans.mapM_ofField_of_resolve h.build h.resolve) hplan
    exact ⟨⟨f, plan⟩, (h.fits.mem_columns_iff h.build h.resolve).mpr ⟨hf, hplanned⟩, rfl⟩
  · rintro ⟨c, hc, rfl⟩
    exact Plans.mem_of_get? (h.get?_name hc)

/-- **A path is added exactly if it is not in the base and some plan lists it.** -/
theorem mem_planPaths {path : String} : path ∈ t.planPaths ↔
    path ∉ baseImports ∧ ∃ plan ∈ plans.toList, path ∈ plan.conversion.imports := by
  rw [t.planPaths_spec.2]
  refine and_congr_right fun _ => ⟨?_, ?_⟩
  · rintro ⟨c, hc, hpath⟩
    exact ⟨c.plan, h.mem_plans.mpr ⟨c, hc, rfl⟩, hpath⟩
  · rintro ⟨plan, hplan, hpath⟩
    obtain ⟨c, hc, rfl⟩ := h.mem_plans.mp hplan
    exact ⟨c, hc, hpath⟩

/-- **A function of a text form is added exactly if a field is stored in the form**, or if a mapping
declares the function. -/
theorem mem_planPaths_of_textForm {g : TextForm} {path : String} (hpath : path ∈ g.imports) :
    path ∈ t.planPaths ↔
      ∃ f ∈ s.storable, TextForm.of? f = some g ∨ path ∈ declaredImports f := by
  rw [t.planPaths_spec.2, and_iff_right (notMem_baseImports_of_textForm hpath)]
  constructor
  · rintro ⟨c, hc, hlisted⟩
    refine ⟨c.field, h.mem_storable hc, ((h.planOf hc).mem_imports.mp hlisted).imp_left ?_⟩
    rintro ⟨g', hg', hpath'⟩
    rw [hg', TextForm.eq_of_mem_imports hpath' hpath]
  · rintro ⟨f, hf, hform⟩
    obtain ⟨c, hc, rfl⟩ := h.exists_column hf
    exact ⟨c, hc, (h.planOf hc).mem_imports.mpr (hform.imp_left fun hg => ⟨g, hg, hpath⟩)⟩

/-- The conversion of a stored field applies its text form and the templates of its mapping. -/
theorem exists_applies {f : StoredField} (hf : f ∈ s.storable) :
    ∃ plan encode decode, plans.get? f.name = some plan ∧
      Conversion.mappingTemplate f.name .encode (userText f .encode) = .ok encode ∧
      Conversion.mappingTemplate f.name .decode (userText f .decode) = .ok decode ∧
      plan.conversion.Applies (TextForm.of? f) encode decode := by
  obtain ⟨c, hc, rfl⟩ := h.exists_column hf
  obtain ⟨encode, decode, hencode, hdecode, happlies, -⟩ :=
    Plan.applies_of_conversionOf (h.planOf hc).conversion
  exact ⟨c.plan, encode, decode, h.get?_name hc, hencode, hdecode, happlies⟩

end GeneratedUnit.From

/-- The imports do not depend on the order of the fields. -/
theorem imports_of_perm {d : Description} {u : GeneratedUnit} (hu : generate d = .ok u)
    {fields : List FieldDescription} (h : fields.Perm d.fields) :
    ∃ u', generate { d with fields } = .ok u' ∧ u'.imports = u.imports := by
  obtain ⟨s, plans, t, u', s', plans', t', hfrom, hu', hfrom', hsame⟩ :=
    exists_generate_of_perm hu h
  have himports := PlannedTable.imports_eq_ok_iff.mp hfrom.imports
  have himports' := PlannedTable.imports_eq_ok_iff.mp hfrom'.imports
  rw [hsame.paths, himports] at himports'
  exact ⟨u', hu', (List.map_inj_right fun _ _ => Option.some.inj).mp himports'.symm⟩

/-- **The imports of a generated unit**: the module of the entity, the base, and in the order of
their bytes the paths that the plans list besides. A function of a text form is among them exactly
if a field is stored in the form or a mapping declares it; a conversion applies the form of its field
and the templates of the mapping, and nothing else. Fields in another order give the same imports. -/
theorem imports_of_generate {d : Description} {u : GeneratedUnit} (hu : generate d = .ok u) :
    ∃ s plans extra, Schema.build d = .ok s ∧ Plans.resolve s = .ok plans ∧
      u.imports.map Import.path = homeGlob s.home :: baseImports ++ extra ∧
      extra.Pairwise (fun p q => Text.bytes p < Text.bytes q) ∧
      (∀ p, p ∈ extra ↔
        p ∉ baseImports ∧ ∃ plan ∈ plans.toList, p ∈ plan.conversion.imports) ∧
      (∀ g : TextForm, ∀ p ∈ g.imports, p ∈ extra ↔
        ∃ f ∈ s.storable, TextForm.of? f = some g ∨ p ∈ declaredImports f) ∧
      (∀ f ∈ s.storable, ∃ plan encode decode, plans.get? f.name = some plan ∧
        Conversion.mappingTemplate f.name .encode (userText f .encode) = .ok encode ∧
        Conversion.mappingTemplate f.name .decode (userText f .decode) = .ok decode ∧
        plan.conversion.Applies (TextForm.of? f) encode decode) ∧
      ∀ fields, fields.Perm d.fields →
        ∃ u', generate { d with fields } = .ok u' ∧ u'.imports = u.imports := by
  obtain ⟨s, plans, t, hfrom⟩ := GeneratedUnit.exists_from hu
  exact ⟨s, plans, t.planPaths, hfrom.build, hfrom.resolve, hfrom.map_path,
    t.planPaths_spec.1.imp Text.bytes_lt_bytes, fun _ => hfrom.mem_planPaths,
    fun _ _ => hfrom.mem_planPaths_of_textForm, fun _ => hfrom.exists_applies,
    fun _ => imports_of_perm hu⟩

/-- Entries of a journal, with a list of texts. -/
def journal : Description where
  name := "Entry"
  home := none
  className := none
  table := none
  hideColumns := false
  fields := [(FieldDescription.plain "uuid" (.word "Uuid")).asPrimaryKey,
    .plain "tags" (.applied "Vec" [.word "String"])]

theorem imports_of_generate_journal : ∃ u u', generate journal = .ok u ∧
    u.imports.map Import.path = "super::*" :: baseImports ++ [
      "table_dao::codec::decode_list", "table_dao::codec::encode_list"] ∧
    generate { journal with fields := journal.fields.reverse } = .ok u' ∧
    u'.imports = u.imports := by
  obtain ⟨u, hu⟩ := exists_generate_of_isSimple (d := journal) (by decide +kernel)
  obtain ⟨s, plans, t, hfrom⟩ := GeneratedUnit.exists_from hu
  have hpaths : (plannedTable? journal).map PlannedTable.paths =
      some ("super::*" :: baseImports ++ [
        "table_dao::codec::decode_list", "table_dao::codec::encode_list"]) := by
    decide +kernel
  rw [hfrom.plannedTable?_eq] at hpaths
  obtain ⟨_, _, _, -, -, -, -, -, -, -, horder⟩ := imports_of_generate hu
  obtain ⟨u', hu', himports⟩ := horder journal.fields.reverse (List.reverse_perm _)
  exact ⟨u, u', hu, hfrom.map_paths.trans (Option.some.inj hpaths), hu', himports⟩

/-- A template that calls the function of a text form by itself, without an import. -/
def ownCall : Description where
  name := "Entry"
  home := none
  className := none
  table := none
  hideColumns := false
  fields := [(FieldDescription.plain "uuid" (.word "Uuid")).asPrimaryKey,
    (FieldDescription.plain "tags" (.word "Tags")).mappedBy
      ⟨.word "String", none, some "encode_list(\x7b\x7d)", none, []⟩]

/-- The expression is a call of a function by its name. -/
def callsFunction (name : String) : Expr → Bool
  | .call (.path (.plain (.mk false [.plain word]))) _ _ => word == name
  | _ => false

/-- The function that the template calls is not imported. -/
theorem imports_ownCall : ∃ u, generate ownCall = .ok u ∧
    (∃ o ∈ u.table.operations, ∃ q, o.query = some q ∧
      ∃ e ∈ q.binds, callsFunction TextForm.list.encoder e = true) ∧
    TextForm.home ++ "::" ++ TextForm.list.encoder ∉ u.imports.map Import.path := by
  have hrun : (generate ownCall).toOption.any (fun u =>
      (u.table.operations.any fun o => o.query.any fun q =>
        q.binds.any (callsFunction TextForm.list.encoder)) &&
      !(u.imports.map Import.path).contains (TextForm.home ++ "::" ++ TextForm.list.encoder)) =
      true := by decide +kernel
  obtain ⟨u, hu, hrun⟩ := (Option.any_eq_true _ _).mp hrun
  obtain ⟨hcall, hpath⟩ := Bool.and_eq_true_iff.mp hrun
  obtain ⟨o, ho, hcall⟩ := List.any_eq_true.mp hcall
  obtain ⟨q, hq, hcall⟩ := (Option.any_eq_true _ _).mp hcall
  rw [Bool.not_eq_true', ← Bool.not_eq_true, List.contains_iff_mem] at hpath
  exact ⟨u, toOption_eq_some.mp hu, ⟨o, ho, q, hq, List.any_eq_true.mp hcall⟩, hpath⟩

end EntityTable.Table
