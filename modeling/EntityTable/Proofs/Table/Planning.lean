import EntityTable.Proofs.Column.History
import EntityTable.Proofs.Table.Faults

/-! # Plans before a synthesis

A caller may change plans in any way before a table object is synthesized. `plans_of_run` collects
what is known of plans after any run of steps, and of those that a schema has been resolved to: they
are the plans of all stored fields, so that none is missing. -/

namespace EntityTable.Table

open Column (Plan Plans Step history)
open Column.Move (Latest)
open Column.Plans (InOrderOfBirth run)
open Entity (Description Schema StoredField article describes_of_build storable_eq_of_build)

variable {d : Description} {s : Schema} {plans : Plans}

/-- A table is planned with plans for all stored fields of a schema that has been built. -/
theorem exists_ofPlans_of_build (hs : Schema.build d = .ok s)
    (h : ∀ f ∈ s.storable, (plans.get? f.name).isSome) :
    ∃ t, PlannedTable.ofPlans s plans = .ok t := by
  have hkey : s.primaryKey ∈ s.storable.filter StoredField.isPrimaryKey := by
    rw [(describes_of_build hs).2.key]
    exact List.mem_singleton_self _
  exact PlannedTable.exists_ofPlans (List.mem_filter.mp hkey).1 h

theorem exists_ofPlans_of_resolve (hs : Schema.build d = .ok s)
    (h : Plans.resolve s = .ok plans) : ∃ t, PlannedTable.ofPlans s plans = .ok t :=
  exists_ofPlans_of_build hs fun _ hf => Plans.isSome_get?_of_resolve hs h hf

/-- Taking a plan out leaves all others in their places. -/
theorem take_spec (plans : Plans) (column : String) :
    (plans.take column).1 = plans.get? column ∧
    ∃ before after, plans.toList = before ++ (plans.get? column).toList ++ after ∧
      (plans.take column).2.toList = before ++ after := by
  rw [Plans.take_eq]
  refine ⟨rfl, ?_⟩
  cases hplan : plans.get? column with
  | none =>
    refine ⟨plans.toList, [], by simp, ?_⟩
    rw [Plans.erase_of_notMem (Plans.get?_eq_none_iff.mp hplan), List.append_nil]
  | some plan =>
    obtain ⟨before, after, hsplit, herase⟩ := Plans.erase_of_get? hplan
    exact ⟨before, after, by simpa using hsplit, herase⟩

/-- **What plans are after any run of steps**, which begins without plans or, with a reset as its
first step, with resolved ones. -/
theorem plans_of_run (steps : List Step) :
    (run steps).columns.Nodup ∧
    (∀ column plan, (run steps).get? column = some plan ↔ Latest (history steps) column plan) ∧
    (∀ column, ((run steps).take column).1 = (run steps).get? column ∧
      ∃ before after, (run steps).toList = before ++ ((run steps).get? column).toList ++ after ∧
        ((run steps).take column).2.toList = before ++ after) ∧
    InOrderOfBirth (history steps) (run steps).columns ∧
    ∀ d s resolved, Schema.build d = .ok s → Plans.resolve s = .ok resolved →
      s.storable.mapM Plan.ofField = .ok resolved.toList ∧
      resolved.columns = s.storable.map StoredField.name ∧
      ∀ field, GeneratedUnit.synthesize s resolved ≠ .error (.missingPlan field) := by
  refine ⟨?_, fun column plan => ?_, take_spec (run steps), ?_, fun d s resolved hs hresolved => ?_⟩
  · rw [Plans.run_eq_replay]
    exact Plans.nodup_columns_replay _
  · rw [Plans.run_eq_replay]
    exact Plans.get?_replay _
  · rw [Plans.run_eq_replay]
    exact Plans.columns_replay _
  · obtain ⟨t, ht⟩ := exists_ofPlans_of_resolve hs hresolved
    exact ⟨Plans.mapM_ofField_of_resolve hs hresolved, Plans.columns_of_resolve hs hresolved,
      synthesize_ne_missingPlan ht⟩

theorem names_of_build_article (hs : Schema.build article = .ok s) :
    s.storable.map StoredField.name = ["uuid", "title"] := by
  rw [(storable_eq_of_build hs).1]
  decide

theorem plans_of_run_article : ∃ s resolved, Schema.build article = .ok s ∧
    Plans.resolve s = .ok resolved ∧ resolved.columns = ["uuid", "title"] ∧
    (∀ field, GeneratedUnit.synthesize s resolved ≠ .error (.missingPlan field)) ∧
    (run [.reset s, .erase "uuid"]).columns.Nodup := by
  obtain ⟨u, hu⟩ := exists_generate_article
  obtain ⟨s, resolved, hs, hresolved, -⟩ := stages_of_generate hu
  obtain ⟨hnodup, -, -, -, hspec⟩ := plans_of_run [.reset s, .erase "uuid"]
  obtain ⟨-, hcolumns, hmissing⟩ := hspec article s resolved hs hresolved
  exact ⟨s, resolved, hs, hresolved, hcolumns.trans (names_of_build_article hs), hmissing, hnodup⟩

end EntityTable.Table
