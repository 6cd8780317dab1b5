import EntityTable.Proofs.Table.Binding
import EntityTable.Proofs.Table.Planning

/-! # The order of a table object

Plans are only ever asked for the plan of a stored field, so all that matters of them is what they
answer (`ofPlans_congr`). The order of what is generated is that of the stored fields: the column
constants, the statements that prepare the table and the fields of every operation. -/

namespace EntityTable.Table

open Column (MappingError Plans)
open Entity (Description Schema StoredField article nodup_names_of_build)

namespace PlannedTable

variable {t : PlannedTable} {s : Schema} {plans : Plans}

/-- **Plans that agree on the stored fields give the same columns.** -/
theorem ofPlans_congr {other : Plans}
    (h : ∀ f ∈ s.storable, plans.get? f.name = other.get? f.name) :
    ofPlans s plans = ofPlans s other := by
  have hplanned : s.storable.mapM (planned plans) = s.storable.mapM (planned other) :=
    mapM_congr fun f hf => by rw [planned, planned, h f hf]
  rw [ofPlans, ofPlans, hplanned]

theorem Fits.names (h : t.Fits s plans) :
    t.columns.map PlannedField.name = s.storable.map StoredField.name := by
  rw [← h.fields, List.map_map]
  rfl

theorem Fits.lookups (h : t.Fits s plans) : t.lookups.map PlannedField.field = s.lookups := by
  rw [PlannedTable.lookups, Schema.lookups, ← h.fields, List.filter_map]
  rfl

theorem namesOf_operands_sublist (h : t.Fits s plans) (kind : OperationKind) :
    (namesOf (t.operands kind)).Sublist (namesOf t.columns) := by
  have hkey : (namesOf [t.key]).Sublist (namesOf t.columns) :=
    List.singleton_sublist.mpr (List.mem_map_of_mem h.mem_key)
  cases kind with
  | create => exact List.filter_sublist.map _
  | update => exact List.Sublist.refl _
  | delete => exact hkey
  | get => exact hkey
  | getBy field => exact List.filter_sublist.map _
  | save => exact List.nil_sublist _
  | getAll => exact List.nil_sublist _
  | transform => exact List.nil_sublist _

/-- **Every operation runs the statement of its kind and goes through fields in their order.** -/
theorem operations_in_order (h : t.Fits s plans) {os : List Operation}
    (hos : t.operations = .ok os) : ∀ o ∈ os, o.query.map Query.statement = t.statement? o.kind ∧
      o.fields.Sublist (namesOf t.columns) := by
  rw [operations_eq] at hos
  obtain ⟨calls, hcalls, hos⟩ := bind_eq_ok.mp hos
  obtain ⟨transform, htransform, hos⟩ := bind_eq_ok.mp hos
  cases hos
  obtain ⟨-, rest, rfl, hruns⟩ := calls_run h hcalls
  obtain ⟨hkind, hnone, hfields⟩ := transform_eq htransform
  intro o ho
  rcases List.mem_append.mp ho with ho | ho
  · rcases List.mem_cons.mp ho with rfl | ho
    · exact ⟨rfl, List.singleton_sublist.mpr (List.mem_map_of_mem h.mem_key)⟩
    · obtain ⟨q, hq⟩ := hruns o ho
      rw [hq.query, hq.statement, hq.fields]
      exact ⟨rfl, namesOf_operands_sublist h o.kind⟩
  · obtain rfl := List.mem_singleton.mp ho
    rw [hnone, hkind, hfields]
    exact ⟨rfl, List.Sublist.refl _⟩

end PlannedTable

/-- **Only what plans say about stored fields matters, and only the order of these.** -/
theorem synthesize_by_fields (s : Schema) (plans : Plans) :
    (∀ other : Plans, (∀ f ∈ s.storable, plans.get? f.name = other.get? f.name) →
      GeneratedUnit.synthesize s plans = GeneratedUnit.synthesize s other) ∧
    (∀ d u, Schema.build d = .ok s → GeneratedUnit.synthesize s plans = .ok u →
      ∃ t : PlannedTable, t.Fits s plans ∧ t.columns.map PlannedField.field = s.storable ∧
        u.table.columns = t.columns.map (ColumnConstant.ofPlanned !s.hideColumns) ∧
        u.table.statements = t.schemaStatements ∧
        t.columnNames = s.storable.map StoredField.name ∧
        u.table.operations.map Operation.kind =
          [OperationKind.save, .create, .update, .delete, .get, .getAll] ++
            s.lookups.map (fun f => OperationKind.getBy f.name) ++ [OperationKind.transform] ∧
        ∀ o ∈ u.table.operations, o.query.map Query.statement = t.statement? o.kind ∧
          o.fields.Sublist (s.storable.map StoredField.name)) ∧
    ∀ before f after, s.storable = before ++ f :: after →
      (∀ g ∈ before, (plans.get? g.name).isSome) → plans.get? f.name = none →
      GeneratedUnit.synthesize s plans = .error (.missingPlan f.name) := by
  refine ⟨fun other h => ?_, fun d u hs hu => ?_, fun before f after hsplit hbefore hf => ?_⟩
  · rw [GeneratedUnit.synthesize, GeneratedUnit.synthesize, PlannedTable.ofPlans_congr h]
  · obtain ⟨t, ht, hu⟩ := bind_eq_ok.mp hu
    obtain ⟨table, htable, hu⟩ := bind_eq_ok.mp hu
    obtain ⟨imports, -, hu⟩ := bind_eq_ok.mp hu
    obtain ⟨os, hos, htable⟩ := bind_eq_ok.mp htable
    cases hu
    cases htable
    have hfits := PlannedTable.fits_of_ofPlans hs ht
    have hnames : PlannedTable.namesOf t.columns = s.storable.map StoredField.name := hfits.names
    refine ⟨t, hfits, hfits.fields, by rw [hfits.schema], rfl,
      by rw [hfits.columnNames, hfits.names], ?_, fun o ho => ?_⟩
    · rw [(PlannedTable.operations_run hfits hos).1, PlannedTable.kinds, ← hfits.lookups,
        List.map_map]
      rfl
    · rw [← hnames]
      exact PlannedTable.operations_in_order hfits hos o ho
  · rw [GeneratedUnit.synthesize, PlannedTable.ofPlans_of_missing hsplit hbefore hf]
    rfl

/-- Moving the plan of the key to the end changes nothing; without a plan for the title the title is
missed. -/
theorem synthesize_by_fields_article : ∃ s plans plan u, Schema.build article = .ok s ∧
    plans.get? "uuid" = some plan ∧ GeneratedUnit.synthesize s plans = .ok u ∧
    GeneratedUnit.synthesize s ((plans.erase "uuid").insert plan) = .ok u ∧
    u.table.columns.length = 2 ∧
    GeneratedUnit.synthesize s (plans.erase "title") = .error (.missingPlan "title") := by
  obtain ⟨u, hu⟩ := exists_generate_article
  obtain ⟨s, plans, hs, hplans, hu⟩ := stages_of_generate hu
  have hnames := names_of_build_article hs
  have hcolumns : plans.columns = ["uuid", "title"] :=
    (Plans.columns_of_resolve hs hplans).trans hnames
  have hnodup : plans.columns.Nodup := hcolumns ▸ (by decide)
  obtain ⟨plan, hplan⟩ : ∃ plan, plans.get? "uuid" = some plan :=
    Option.isSome_iff_exists.mp (Plans.isSome_get?.mpr (hcolumns ▸ (by decide)))
  obtain ⟨uuid, rest, hstorable, huuid, hrest⟩ := List.map_eq_cons_iff.mp hnames
  obtain ⟨title, after, rfl, htitle, hafter⟩ := List.map_eq_cons_iff.mp hrest
  obtain rfl := List.map_eq_nil_iff.mp hafter
  refine ⟨s, plans, plan, u, hs, hplan, hu, ?_, ?_, ?_⟩
  · rw [← hu]
    refine ((synthesize_by_fields s plans).1 _ fun f _ => ?_).symm
    rw [Plans.get?_insert, Plans.get?_erase hnodup, Plans.column_of_get? hplan]
    by_cases hf : "uuid" = f.name
    · rw [if_pos hf, ← hf, hplan]
    · rw [if_neg hf, if_neg hf]
  · obtain ⟨t, -, hfields, hconstants, -⟩ := (synthesize_by_fields s plans).2.1 article u hs hu
    have hlength : t.columns.length = s.storable.length := by rw [← hfields, List.length_map]
    rw [hconstants, List.length_map, hlength, hstorable]
    rfl
  · have hmissing : (plans.erase "title").get? title.name = none := by
      rw [Plans.get?_erase hnodup, if_pos htitle.symm]
    have hbefore : ∀ g ∈ [uuid], ((plans.erase "title").get? g.name).isSome := by
      intro g hg
      rw [List.mem_singleton.mp hg, huuid, Plans.get?_erase hnodup, if_neg (by decide), hplan]
      rfl
    have hfirst := (synthesize_by_fields s (plans.erase "title")).2.2 [uuid] title [] hstorable
      hbefore hmissing
    rwa [htitle] at hfirst

end EntityTable.Table
