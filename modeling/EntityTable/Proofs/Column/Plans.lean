import EntityTable.Column.Plans
import Mathlib.Data.List.Nodup

/-! # Plans by column

What inserting and erasing do to the columns of a list of plans and to the plan of each column. The
columns stay distinct (`nodup_columns_insert`, `nodup_columns_erase`), and as long as they are, a
plan that is erased is the only thing that changes (`erase_of_get?`). Plans for distinct columns
that are inserted one by one come out in the order in which they went in (`foldl_insert`). -/

namespace EntityTable.Column

open Entity (Schema StoredField)

namespace Plans

variable {ps : Plans} {plan : Plan} {column : String}

/-! ### Finding -/

theorem column_of_get? (h : ps.get? column = some plan) : plan.column = column := by
  simpa using List.find?_some h

theorem mem_of_get? (h : ps.get? column = some plan) : plan ∈ ps.toList :=
  List.mem_of_find?_eq_some h

theorem get?_eq_none_iff : ps.get? column = none ↔ column ∉ ps.columns := by
  simp [get?, columns]

theorem isSome_get? : (ps.get? column).isSome ↔ column ∈ ps.columns := by
  rw [← not_iff_not, ← get?_eq_none_iff, Bool.not_eq_true, Option.isSome_eq_false_iff,
    Option.isNone_iff_eq_none]

theorem get?_empty : empty.get? column = none := rfl

/-! ### Inserting -/

theorem insertInto_of_mem : ∀ {l : List Plan}, plan.column ∈ l.map Plan.column →
    (insertInto plan l).map Plan.column = l.map Plan.column
  | [], h => by simp at h
  | p :: l, h => by
    by_cases hp : p.column = plan.column
    · simp [insertInto, hp]
    · have hl : plan.column ∈ l.map Plan.column := by
        simpa [Ne.symm hp] using h
      simp [insertInto, hp, insertInto_of_mem hl]

theorem insertInto_of_notMem : ∀ {l : List Plan}, plan.column ∉ l.map Plan.column →
    insertInto plan l = l ++ [plan]
  | [], _ => rfl
  | p :: l, h => by
    rw [List.map_cons, List.mem_cons, not_or] at h
    rw [insertInto, if_neg (Ne.symm h.1), insertInto_of_notMem h.2, List.cons_append]

theorem find?_insertInto : ∀ l : List Plan,
    (insertInto plan l).find? (fun p => p.column == column) =
      if plan.column = column then some plan else l.find? fun p => p.column == column
  | [] => by
    by_cases h : plan.column = column <;> simp [insertInto, h]
  | p :: l => by
    by_cases hp : p.column = plan.column
    · by_cases h : plan.column = column <;> simp [insertInto, hp, h]
    · by_cases hc : p.column = column
      · have h : plan.column ≠ column := fun h => hp (hc.trans h.symm)
        rw [insertInto, if_neg hp, if_neg h, List.find?_cons_of_pos (by simpa using hc),
          List.find?_cons_of_pos (by simpa using hc)]
      · rw [insertInto, if_neg hp, List.find?_cons_of_neg (by simpa using hc),
          List.find?_cons_of_neg (by simpa using hc), find?_insertInto l]

theorem get?_insert : (ps.insert plan).get? column =
    if plan.column = column then some plan else ps.get? column :=
  find?_insertInto ps.toList

/-- Replacing a plan keeps all columns in their places. -/
theorem columns_insert_of_mem (h : plan.column ∈ ps.columns) :
    (ps.insert plan).columns = ps.columns :=
  insertInto_of_mem h

/-- A plan for a new column comes last. -/
theorem insert_of_notMem (h : plan.column ∉ ps.columns) :
    ps.insert plan = ⟨ps.toList ++ [plan]⟩ :=
  congrArg Plans.mk (insertInto_of_notMem h)

theorem columns_insert_of_notMem (h : plan.column ∉ ps.columns) :
    (ps.insert plan).columns = ps.columns ++ [plan.column] := by
  rw [insert_of_notMem h, columns, List.map_append]
  rfl

theorem nodup_columns_insert (h : ps.columns.Nodup) : (ps.insert plan).columns.Nodup := by
  by_cases hmem : plan.column ∈ ps.columns
  · rwa [columns_insert_of_mem hmem]
  · rw [columns_insert_of_notMem hmem, List.nodup_append]
    exact ⟨h, List.nodup_singleton _, fun a ha b hb hab =>
      hmem (List.mem_singleton.mp hb ▸ hab ▸ ha)⟩

/-! ### Erasing -/

theorem eraseP_of_notMem {l : List Plan} (h : column ∉ l.map Plan.column) :
    l.eraseP (fun p => p.column == column) = l := by
  refine List.eraseP_of_forall_not fun p hp hc => h ?_
  exact beq_iff_eq.mp hc ▸ List.mem_map_of_mem hp

theorem erase_of_notMem (h : column ∉ ps.columns) : ps.erase column = ps :=
  congrArg Plans.mk (eraseP_of_notMem h)

/-- **The plan that is found is the one that is erased**, and all others keep their places. -/
theorem erase_of_get? (h : ps.get? column = some plan) :
    ∃ before after, ps.toList = before ++ plan :: after ∧
      (ps.erase column).toList = before ++ after := by
  obtain ⟨hplan, before, after, hsplit, hbefore⟩ := List.find?_eq_some_iff_append.mp h
  refine ⟨before, after, hsplit, ?_⟩
  have hrest : (plan :: after).eraseP (fun p => p.column == column) = after :=
    List.eraseP_cons_of_pos hplan
  change ps.toList.eraseP (fun p => p.column == column) = before ++ after
  rw [hsplit, List.eraseP_append_right _ (by simpa using hbefore), hrest]

/-- **Taking a plan out finds it and erases it.** -/
theorem take_eq : ps.take column = (ps.get? column, ps.erase column) := by
  cases hplan : ps.get? column with
  | none =>
    have hnone : ps.toList.findIdx? (fun p => p.column == column) = none :=
      List.findIdx?_eq_none_iff.mpr fun p hp => by
        simpa using List.find?_eq_none.mp hplan p hp
    rw [take, hnone, erase_of_notMem (get?_eq_none_iff.mp hplan)]
  | some plan =>
    obtain ⟨hcolumn, before, after, hsplit, hbefore⟩ := List.find?_eq_some_iff_append.mp hplan
    have hindex : ps.toList.findIdx? (fun p => p.column == column) = some before.length := by
      have hnone : before.findIdx? (fun p => p.column == column) = none :=
        List.findIdx?_eq_none_iff.mpr fun p hp => by simpa using hbefore p hp
      rw [hsplit, List.findIdx?_append, hnone, List.findIdx?_cons, hcolumn]
      simp
    have hrest : (plan :: after).eraseP (fun p => p.column == column) = after :=
      List.eraseP_cons_of_pos hcolumn
    have herase : ps.toList.eraseIdx before.length =
        ps.toList.eraseP fun p => p.column == column := by
      rw [hsplit, List.eraseP_append_right _ (by simpa using hbefore), hrest,
        List.eraseIdx_append_of_length_le (Nat.le_refl _), Nat.sub_self, List.eraseIdx_cons_zero]
    have hfound : ps.toList[before.length]? = some plan := by
      rw [hsplit, List.getElem?_append_right (Nat.le_refl _), Nat.sub_self, List.getElem?_cons_zero]
    rw [take, hindex, erase, ← herase, ← hfound]

theorem nodup_columns_erase (h : ps.columns.Nodup) : (ps.erase column).columns.Nodup :=
  (List.eraseP_sublist.map Plan.column).nodup h

theorem columns_erase_sublist : (ps.erase column).columns.Sublist ps.columns :=
  List.eraseP_sublist.map Plan.column

/-- Of plans for distinct columns, those for other columns are left. -/
theorem mem_columns_erase (h : ps.columns.Nodup) {c : String} :
    c ∈ (ps.erase column).columns ↔ c ∈ ps.columns ∧ column ≠ c := by
  cases hplan : ps.get? column with
  | none =>
    have hnot := get?_eq_none_iff.mp hplan
    rw [erase_of_notMem hnot]
    exact ⟨fun hc => ⟨hc, fun hne => hnot (hne ▸ hc)⟩, And.left⟩
  | some plan =>
    obtain ⟨before, after, hsplit, herase⟩ := erase_of_get? hplan
    have hcolumn := column_of_get? hplan
    rw [columns, hsplit, List.map_append, List.map_cons, List.nodup_append, List.nodup_cons] at h
    obtain ⟨-, ⟨hafter, -⟩, hbefore⟩ := h
    have hbefore' : column ∉ before.map Plan.column := fun hmem =>
      hbefore _ hmem _ (List.mem_cons_self ..) hcolumn.symm
    rw [hcolumn] at hafter
    rw [columns, herase, columns, hsplit, List.map_append, List.map_append, List.map_cons, hcolumn,
      List.mem_append, List.mem_append, List.mem_cons]
    constructor
    · rintro (hc | hc)
      · exact ⟨Or.inl hc, fun hne => hbefore' (hne ▸ hc)⟩
      · exact ⟨Or.inr (Or.inr hc), fun hne => hafter (hne ▸ hc)⟩
    · rintro ⟨hc | rfl | hc, hne⟩
      · exact Or.inl hc
      · exact absurd rfl hne
      · exact Or.inr hc

theorem get?_erase (h : ps.columns.Nodup) {c : String} :
    (ps.erase column).get? c = if column = c then none else ps.get? c := by
  by_cases hc : column = c
  · rw [if_pos hc, get?_eq_none_iff, mem_columns_erase h]
    exact fun hmem => hmem.2 hc
  · rw [if_neg hc]
    cases hplan : ps.get? column with
    | none => rw [erase_of_notMem (get?_eq_none_iff.mp hplan)]
    | some plan =>
      obtain ⟨before, after, hsplit, herase⟩ := erase_of_get? hplan
      have hcolumn : ¬ plan.column = c := column_of_get? hplan ▸ hc
      rw [get?, get?, herase, hsplit, List.find?_append, List.find?_append,
        List.find?_cons_of_neg (by simpa using hcolumn)]

/-! ### Inserting one by one -/

/-- **Plans for new and distinct columns are added in their order.** -/
theorem foldl_insert : ∀ {l : List Plan} {ps : Plans}, (l.map Plan.column).Nodup →
    (∀ p ∈ l, p.column ∉ ps.columns) → l.foldl insert ps = ⟨ps.toList ++ l⟩
  | [], ps, _, _ => by simp
  | plan :: l, ps, hnodup, hnew => by
    rw [List.map_cons, List.nodup_cons] at hnodup
    have hplan : plan.column ∉ ps.columns := hnew plan (by simp)
    have hl : ∀ p ∈ l, p.column ∉ (ps.insert plan).columns := fun p hp hmem => by
      rw [columns_insert_of_notMem hplan, List.mem_append, List.mem_singleton] at hmem
      rcases hmem with hmem | hmem
      · exact hnew p (by simp [hp]) hmem
      · exact hnodup.1 (hmem ▸ List.mem_map_of_mem hp)
    rw [List.foldl_cons, foldl_insert hnodup.2 hl, insert_of_notMem hplan, List.append_assoc]
    rfl

end Plans

end EntityTable.Column
