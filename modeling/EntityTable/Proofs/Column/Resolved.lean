import EntityTable.Proofs.Column.Modifiers
import EntityTable.Proofs.Column.Plans
import EntityTable.Proofs.Entity.Identifiers

/-! # Resolved plans

Resolving a schema is planning its stored fields and inserting the plans one by one (`resolve_eq`).
In a schema that has been built no two stored fields share a name, so no plan replaces another: the
resolved plans are those of the stored fields, in order (`mapM_ofField_of_resolve`). -/

namespace EntityTable.Column

open Entity (Description Schema StoredField nodup_names_of_build)

theorem Plan.column_of_ofField {f : StoredField} {plan : Plan} (h : Plan.ofField f = .ok plan) :
    plan.column = f.name := (Plan.isOf_of_ofField h).column

theorem Plan.columns_of_mapM : ∀ {fields : List StoredField} {plans : List Plan},
    fields.mapM Plan.ofField = .ok plans → plans.map Plan.column = fields.map StoredField.name
  | [], plans, h => by
    cases h
    rfl
  | f :: fields, plans, h => by
    rw [List.mapM_cons] at h
    obtain ⟨plan, hplan, h⟩ := bind_eq_ok.mp h
    obtain ⟨rest, hrest, h⟩ := bind_eq_ok.mp h
    cases h
    rw [List.map_cons, List.map_cons, column_of_ofField hplan, columns_of_mapM hrest]

namespace Plans

/-- Resolving is planning all stored fields and inserting the plans one by one. -/
theorem resolve_eq (s : Schema) :
    resolve s = (s.storable.mapM Plan.ofField).map fun plans => plans.foldl insert .empty := by
  have hrun : ∀ (fields : List Entity.StoredField) (ps : Plans),
      fields.foldlM (fun ps field => do return ps.insert (← Plan.ofField field)) ps =
        (fields.mapM Plan.ofField).map fun plans => plans.foldl insert ps := by
    intro fields
    induction fields with
    | nil => exact fun _ => rfl
    | cons field fields ih =>
      intro ps
      rw [List.foldlM_cons, List.mapM_cons]
      cases Plan.ofField field with
      | error e => rfl
      | ok plan =>
        change fields.foldlM _ (ps.insert plan) = _
        rw [ih]
        cases fields.mapM Plan.ofField <;> rfl
  exact hrun s.storable .empty

/-- **A schema is resolved exactly if all its stored fields can be planned.** -/
theorem exists_resolve_iff {s : Schema} :
    (∃ plans, resolve s = .ok plans) ↔ ∀ f ∈ s.storable, ∃ plan, Plan.ofField f = .ok plan := by
  have hfault : error? (resolve s) = error? (s.storable.mapM Plan.ofField) := by
    rw [resolve_eq]
    cases s.storable.mapM Plan.ofField <;> rfl
  rw [← error?_eq_none, hfault, error?_mapM, List.findSome?_eq_none_iff]
  simp only [error?_eq_none]

variable {d : Description} {s : Schema} {resolved : Plans}

/-- **The resolved plans are those of the stored fields, in order.** -/
theorem mapM_ofField_of_resolve (hs : Schema.build d = .ok s) (h : resolve s = .ok resolved) :
    s.storable.mapM Plan.ofField = .ok resolved.toList := by
  rw [resolve_eq] at h
  cases hplans : s.storable.mapM Plan.ofField with
  | error e => rw [hplans] at h; cases h
  | ok plans =>
    rw [hplans] at h
    cases h
    have hnodup : (plans.map Plan.column).Nodup := by
      rw [Plan.columns_of_mapM hplans]
      exact nodup_names_of_build hs
    have hnew : ∀ plan ∈ plans, plan.column ∉ empty.columns := fun _ _ => List.not_mem_nil
    change Except.ok plans = Except.ok (plans.foldl insert .empty).toList
    rw [foldl_insert hnodup hnew]
    rfl

theorem columns_of_resolve (hs : Schema.build d = .ok s) (h : resolve s = .ok resolved) :
    resolved.columns = s.storable.map StoredField.name :=
  Plan.columns_of_mapM (mapM_ofField_of_resolve hs h)

/-- Every stored field has a resolved plan. -/
theorem isSome_get?_of_resolve (hs : Schema.build d = .ok s) (h : resolve s = .ok resolved)
    {f : StoredField} (hf : f ∈ s.storable) : (resolved.get? f.name).isSome := by
  rw [isSome_get?, columns_of_resolve hs h]
  exact List.mem_map_of_mem hf

end Plans

end EntityTable.Column
