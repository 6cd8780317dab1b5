import EntityTable.Proofs.Table.Faults
import Mathlib.Data.String.Basic
import Mathlib.Tactic.SplitIfs

/-! # The paths of imports

After the module of the entity and the base, a table imports what the plans of its columns ask for,
each path once and in the order of the texts: collecting a path keeps the paths sorted and adds no
other (`pairwise_insertByPath`, `mem_insertByPath`), so that `planPaths_spec` says what is collected
without the run. A sorted list is known from its members, hence tables with the same columns in
another order import the same (`planPaths_congr`). Imports differ only in what their paths are
(`imports_eq_ok_iff`). -/

namespace EntityTable.Table

open Source

/-! ### Collecting paths -/

section Collecting
variable {path field : String} {l : List (String × String)}

theorem mem_insertByPath {q : String} :
    q ∈ (insertByPath path field l).map Prod.fst ↔ q = path ∨ q ∈ l.map Prod.fst := by
  induction l with
  | nil => simp [insertByPath]
  | cons e l ih =>
    unfold insertByPath
    split_ifs with hlt heq
    · simp
    · simp [heq]
    · rw [List.map_cons, List.map_cons, List.mem_cons, List.mem_cons, ih, or_left_comm]

/-- **Sorted paths stay sorted.** -/
theorem pairwise_insertByPath (h : (l.map Prod.fst).Pairwise (· < ·)) :
    ((insertByPath path field l).map Prod.fst).Pairwise (· < ·) := by
  induction l with
  | nil => exact List.pairwise_singleton _ _
  | cons e l ih =>
    obtain ⟨hfirst, hrest⟩ := List.pairwise_cons.mp h
    unfold insertByPath
    split_ifs with hlt heq
    · refine List.pairwise_cons.mpr ⟨?_, h⟩
      rintro q (_ | ⟨_, hq⟩)
      · exact hlt
      · exact hlt.trans (hfirst q hq)
    · exact h
    · refine List.pairwise_cons.mpr ⟨fun q hq => ?_, ih hrest⟩
      rcases mem_insertByPath.mp hq with rfl | hq
      · exact lt_of_le_of_ne (not_lt.mp hlt) (Ne.symm heq)
      · exact hfirst q hq

end Collecting

namespace PlannedTable

variable {t t' : PlannedTable}

/-- The paths that a list of wishes adds to the base. -/
theorem collected (wanted : List (String × String)) : ∀ {sorted : List (String × String)},
    (sorted.map Prod.fst).Pairwise (· < ·) →
    let all := wanted.foldl (fun sorted (path, field) =>
      if baseImports.contains path then sorted else insertByPath path field sorted) sorted
    (all.map Prod.fst).Pairwise (· < ·) ∧ ∀ q, q ∈ all.map Prod.fst ↔
      q ∈ sorted.map Prod.fst ∨ q ∉ baseImports ∧ q ∈ wanted.map Prod.fst := by
  induction wanted with
  | nil => exact fun hsorted => ⟨hsorted, fun q => by simp⟩
  | cons w wanted ih =>
    obtain ⟨path, field⟩ := w
    intro sorted hsorted
    rw [List.foldl_cons]
    by_cases hbase : path ∈ baseImports
    · obtain ⟨hall, hmem⟩ := ih hsorted
      simp only [List.contains_iff_mem.mpr hbase, if_true]
      refine ⟨hall, fun q => (hmem q).trans (or_congr_right ?_)⟩
      rw [List.map_cons, List.mem_cons]
      constructor
      · exact fun h => ⟨h.1, .inr h.2⟩
      · rintro ⟨hq, rfl | hmem⟩
        · exact absurd hbase hq
        · exact ⟨hq, hmem⟩
    · obtain ⟨hall, hmem⟩ := ih (@pairwise_insertByPath path field _ hsorted)
      have hcontains : baseImports.contains path = false := by
        rw [Bool.eq_false_iff, ne_eq, List.contains_iff_mem]
        exact hbase
      simp only [hcontains, Bool.false_eq_true, if_false]
      refine ⟨hall, fun q => (hmem q).trans ?_⟩
      rw [mem_insertByPath, List.map_cons, List.mem_cons]
      constructor
      · rintro ((rfl | h) | h)
        · exact .inr ⟨hbase, .inl rfl⟩
        · exact .inl h
        · exact .inr ⟨h.1, .inr h.2⟩
      · rintro (h | ⟨hq, rfl | h⟩)
        · exact .inl (.inr h)
        · exact .inl (.inl rfl)
        · exact .inr ⟨hq, h⟩

/-- The paths that the plans ask for besides the base. -/
def planPaths (t : PlannedTable) : List String := t.planImports.map Prod.fst

/-- **The paths are in order, and each is one that a plan lists.** -/
theorem planPaths_spec (t : PlannedTable) : t.planPaths.Pairwise (· < ·) ∧
    ∀ q, q ∈ t.planPaths ↔ q ∉ baseImports ∧ ∃ c ∈ t.columns, q ∈ c.plan.conversion.imports := by
  obtain ⟨hsorted, hmem⟩ := @collected
    (t.columns.flatMap fun c => c.plan.conversion.imports.map fun path => (path, c.name)) [] .nil
  refine ⟨hsorted, fun q => (hmem q).trans ?_⟩
  simp only [List.map_nil, List.not_mem_nil, false_or, List.mem_map, List.mem_flatMap]
  refine and_congr_right fun _ => ⟨?_, ?_⟩
  · rintro ⟨_, ⟨c, hc, path, hpath, rfl⟩, rfl⟩
    exact ⟨c, hc, hpath⟩
  · rintro ⟨c, hc, hq⟩
    exact ⟨_, ⟨c, hc, q, hq, rfl⟩, rfl⟩

/-- Tables with the same columns in another order ask for the same paths. -/
theorem planPaths_congr (h : ∀ c, c ∈ t'.columns ↔ c ∈ t.columns) :
    t'.planPaths = t.planPaths := by
  obtain ⟨hsorted, hmem⟩ := t.planPaths_spec
  obtain ⟨hsorted', hmem'⟩ := t'.planPaths_spec
  have hperm : t'.planPaths.Perm t.planPaths := by
    refine (List.perm_ext_iff_of_nodup ?_ ?_).mpr fun q => ?_
    · exact hsorted'.imp ne_of_lt
    · exact hsorted.imp ne_of_lt
    · rw [hmem, hmem']
      simp only [h]
  exact hperm.eq_of_pairwise (fun _ _ _ _ hab hba => absurd hba (lt_asymm hab)) hsorted' hsorted

/-! ### Reading paths -/

theorem importOf_eq_ok_iff {path field : String} {i : Import} :
    importOf path field = .ok i ↔ Import.ofText? path = some i := by
  unfold importOf
  cases Import.ofText? path <;> simp

/-- All paths that a table imports, in order. -/
def paths (t : PlannedTable) : List String :=
  homeGlob t.schema.home :: baseImports ++ t.planPaths

/-- **The imports are what the paths are read as.** -/
theorem imports_eq_ok_iff {is : List Import} :
    t.imports = .ok is ↔ t.paths.map Import.ofText? = is.map some := by
  have hbase : ∀ {is}, (homeGlob t.schema.home :: baseImports).mapM
      (fun path => importOf path t.entity) = .ok is ↔
        (homeGlob t.schema.home :: baseImports).map Import.ofText? = is.map some :=
    mapM_eq_ok_iff fun _ _ => importOf_eq_ok_iff
  have hextra : ∀ {is}, t.planImports.mapM (fun w => importOf w.1 w.2) = .ok is ↔
      t.planImports.map (fun w => Import.ofText? w.1) = is.map some :=
    mapM_eq_ok_iff fun _ _ => importOf_eq_ok_iff
  have hpaths : t.planImports.map (fun w => Import.ofText? w.1) =
      t.planPaths.map Import.ofText? := by
    rw [planPaths, List.map_map]
    rfl
  rw [paths, List.map_append]
  constructor
  · intro h
    obtain ⟨base, hb, h⟩ := bind_eq_ok.mp h
    obtain ⟨extra, he, h⟩ := bind_eq_ok.mp h
    cases h
    rw [List.map_append, hbase.mp hb, ← hpaths, hextra.mp he]
  · intro h
    obtain ⟨base, extra, rfl, hb, he⟩ := List.map_eq_append_iff.mp h.symm
    rw [← hpaths] at he
    exact bind_eq_ok.mpr ⟨base, hbase.mpr hb.symm,
      bind_eq_ok.mpr ⟨extra, hextra.mpr he.symm, rfl⟩⟩

end PlannedTable

theorem path_of_ofText? {text : String} {i : Import} (h : Import.ofText? text = some i) :
    i.path = text := by
  obtain ⟨tree, -, rfl⟩ := Option.map_eq_some_iff.mp h
  rfl

theorem map_path_of_ofText? : ∀ {paths : List String} {is : List Import},
    paths.map Import.ofText? = is.map some → is.map Import.path = paths
  | [], is, h => by
    rw [List.map_eq_nil_iff.mp h.symm]
    rfl
  | path :: paths, is, h => by
    obtain ⟨i, rest, rfl, hpath, hrest⟩ := List.map_eq_cons_iff.mp h.symm
    rw [List.map_cons, path_of_ofText? hpath.symm, map_path_of_ofText? hrest.symm]

end EntityTable.Table
