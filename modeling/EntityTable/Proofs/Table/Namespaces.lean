import EntityTable.Proofs.Column.Imports
import EntityTable.Proofs.Source.Globs
import EntityTable.Proofs.Table.ImportPaths
import EntityTable.Proofs.Table.Planning
import EntityTable.Proofs.Table.Templates

/-! # The namespace of an entity

A unit imports everything in the namespace of its entity. The namespace has been read as a path and
is read again as an import; `Path.ofText?_glob` says when that succeeds. All other imports of a
table have been read before its columns are planned, or are fixed, so the namespace is the only one
that a synthesis can refuse (`error?_imports`). -/

namespace EntityTable.Table

open Source
open Column (Direction MappingError Plan Plans TemplateFault)
open Entity (Description FieldDescription Schema article parts_of_build)

/-! ### The text of the glob -/

theorem toList_intercalate_append : ∀ {names : List String}, names ≠ [] →
    ("::".intercalate names ++ "::*").toList = globText names
  | [], h => absurd rfl h
  | [w], _ => by
    rw [String.toList_append]
    rfl
  | v :: w :: ws, _ => by
    have hmore := toList_intercalate_append (List.cons_ne_nil w ws)
    rw [String.intercalate_cons_cons, String.append_assoc, String.append_assoc, String.toList_append,
      String.toList_append, hmore]
    rfl

theorem toList_homeGlob {p : Path} (h : p.segments ≠ []) : (homeGlob p).toList = p.globText := by
  have hnames : p.segments.map Segment.name ≠ [] := mt List.map_eq_nil_iff.mp h
  rw [homeGlob, String.append_assoc, String.toList_append, toList_intercalate_append hnames,
    Path.globText]
  split <;> rfl

variable {d : Description} {s : Schema} {plans : Plans} {t : PlannedTable}

/-- What the glob of a schema's namespace is read as. -/
theorem ofText?_homeGlob (hs : Schema.build d = .ok s) : Import.ofText? (homeGlob s.home) =
    if s.home.IsImportable then some ⟨homeGlob s.home, s.home.globTree⟩ else none := by
  obtain ⟨-, -, -, -, hhome, -⟩ := parts_of_build hs
  exact Path.ofText?_glob hhome (toList_homeGlob (Path.names_of_ofText hhome).1)

example : (Import.ofText? "::model::*").isSome = false ∧
    (Import.ofText? "crate::model::*").isSome = true := by
  decide +kernel

/-! ### All other imports -/

namespace PlannedTable

theorem isSome_of_mem_baseImports : ∀ path ∈ baseImports, (Import.ofText? path).isSome := by
  have hall : (baseImports.all fun path => (Import.ofText? path).isSome) = true := by
    decide +kernel
  exact List.all_eq_true.mp hall

theorem Fits.isSome_of_mem_planPaths (hfits : t.Fits s plans) (hs : Schema.build d = .ok s)
    (hplans : Plans.resolve s = .ok plans) : ∀ path ∈ t.planPaths, (Import.ofText? path).isSome := by
  intro path hpath
  obtain ⟨-, c, hc, hpath⟩ := (t.planPaths_spec.2 path).mp hpath
  exact (Plan.isOf_of_ofField (hfits.ofField hs hplans hc)).isSome_ofText? path hpath

theorem error?_importOf_of_isSome {path : String} (h : (Import.ofText? path).isSome)
    (field : String) : error? (importOf path field) = none := by
  obtain ⟨i, hi⟩ := Option.isSome_iff_exists.mp h
  exact error?_eq_none.mpr ⟨i, importOf_eq_ok_iff.mpr hi⟩

/-- **Of the imports of resolved plans only the namespace can be refused.** -/
theorem Fits.error?_imports (hfits : t.Fits s plans) (hs : Schema.build d = .ok s)
    (hplans : Plans.resolve s = .ok plans) :
    error? t.imports = if s.home.IsImportable then none
      else some (.invalidImport s.origin (homeGlob s.home)) := by
  have hbase : baseImports.findSome? (fun path => error? (importOf path t.entity)) = none :=
    List.findSome?_eq_none_iff.mpr fun path hpath =>
      error?_importOf_of_isSome (isSome_of_mem_baseImports path hpath) _
  have hextra : t.planImports.findSome? (fun wanted => error? (importOf wanted.1 wanted.2)) = none :=
    List.findSome?_eq_none_iff.mpr fun wanted hwanted => error?_importOf_of_isSome
      (hfits.isSome_of_mem_planPaths hs hplans _ (List.mem_map_of_mem hwanted)) _
  have hhome : error? (importOf (homeGlob s.home) s.origin) = if s.home.IsImportable then none
      else some (.invalidImport s.origin (homeGlob s.home)) := by
    rw [importOf, ofText?_homeGlob hs]
    by_cases himportable : s.home.IsImportable
    · rw [if_pos himportable, if_pos himportable]
      rfl
    · rw [if_neg himportable, if_neg himportable]
      rfl
  rw [PlannedTable.error?_imports, hextra, Option.or_none, List.findSome?_cons, hbase, entity,
    hfits.schema, hhome]
  split <;> simp [*]

end PlannedTable

/-! ### Schemas -/

/-- **When an import of resolved plans ends the synthesis**: exactly if the namespace starts with
`::` or has `Self` in it, and no filled template is refused before. -/
theorem synthesize_imports (hs : Schema.build d = .ok s) (hplans : Plans.resolve s = .ok plans) :
    ((Import.ofText? (homeGlob s.home)).isSome ↔ s.home.IsImportable) ∧
    ∀ field path, GeneratedUnit.synthesize s plans = .error (.invalidImport field path) ↔
      ¬ s.home.IsImportable ∧ field = s.origin ∧ path = homeGlob s.home ∧
        ∀ field direction text fault, GeneratedUnit.synthesize s plans ≠
          .error (.invalidTemplate field direction text fault) := by
  refine ⟨?_, fun field path => ?_⟩
  · rw [ofText?_homeGlob hs]
    split <;> simp [*]
  · obtain ⟨t, ht⟩ := exists_ofPlans_of_resolve hs hplans
    have hfits := PlannedTable.fits_of_ofPlans hs ht
    have hfaults : (PlannedTable.firstFault t.fillings = none) ↔ ∀ field direction text fault,
        GeneratedUnit.synthesize s plans ≠
          .error (.invalidTemplate field direction text fault) := by
      constructor
      · intro hnone field direction text fault herror
        have hfault := (synthesize_eq_invalidTemplate ht).mp herror
        cases hnone.symm.trans hfault
      · intro hnever
        cases hfault : PlannedTable.firstFault t.fillings with
        | none => rfl
        | some e =>
          obtain ⟨g, -, reason, rfl⟩ := PlannedTable.exists_filling_of_firstFault hfault
          exact absurd ((synthesize_eq_invalidTemplate ht).mpr hfault) (hnever _ _ _ _)
    rw [← error?_eq_some, error?_synthesize ht, hfits.error?_imports hs hplans,
      Option.or_eq_some_iff, ← hfaults]
    constructor
    · rintro (hfault | ⟨hnone, himport⟩)
      · obtain ⟨_, -, _, heq⟩ := PlannedTable.exists_filling_of_firstFault hfault
        cases heq
      · split at himport
        · cases himport
        · cases himport
          exact ⟨‹_›, rfl, rfl, hnone⟩
    · rintro ⟨himportable, rfl, rfl, hnone⟩
      exact Or.inr ⟨hnone, if_neg himportable⟩

/-- The namespace has arguments, which are left out of the import. -/
def withArguments : Description :=
  { article with home := some "crate::model<'static, u8>::entities" }

theorem synthesize_imports_withArguments : ∃ s plans, Schema.build withArguments = .ok s ∧
    Plans.resolve s = .ok plans ∧ homeGlob s.home = "crate::model::entities::*" ∧
    ∀ field path, GeneratedUnit.synthesize s plans ≠ .error (.invalidImport field path) := by
  have hrun : ((Schema.build withArguments).toOption.bind fun s =>
      (Plans.resolve s).toOption.map fun _ => (homeGlob s.home, decide s.home.IsImportable)) =
      some ("crate::model::entities::*", true) := by decide +kernel
  obtain ⟨s, hs, hrun⟩ := Option.bind_eq_some_iff.mp hrun
  obtain ⟨plans, hplans, hrun⟩ := Option.map_eq_some_iff.mp hrun
  obtain ⟨hglob, himportable⟩ := Prod.ext_iff.mp hrun
  have hs := toOption_eq_some.mp hs
  have hplans := toOption_eq_some.mp hplans
  refine ⟨s, plans, hs, hplans, hglob, fun field path herror => ?_⟩
  exact (((synthesize_imports hs hplans).2 field path).mp herror).1 (of_decide_eq_true himportable)

/-- The namespace starts with `::`. -/
def fromRoot : Description := { article with home := some "::model" }

/-- The path and field of an error about an import. -/
def refusedImport? : MappingError → Option (String × String)
  | .invalidImport field path => some (field, path)
  | _ => none

theorem synthesize_fromRoot : ∃ s plans, Schema.build fromRoot = .ok s ∧
    Plans.resolve s = .ok plans ∧
    GeneratedUnit.synthesize s plans = .error (.invalidImport "Article" "::model::*") := by
  have hrun : ((Schema.build fromRoot).toOption.bind fun s =>
      (Plans.resolve s).toOption.bind fun plans =>
        (error? (GeneratedUnit.synthesize s plans)).bind refusedImport?) =
      some ("Article", "::model::*") := by decide +kernel
  obtain ⟨s, hs, hrun⟩ := Option.bind_eq_some_iff.mp hrun
  obtain ⟨plans, hplans, hrun⟩ := Option.bind_eq_some_iff.mp hrun
  obtain ⟨e, he, hrefused⟩ := Option.bind_eq_some_iff.mp hrun
  refine ⟨s, plans, toOption_eq_some.mp hs, toOption_eq_some.mp hplans, ?_⟩
  unfold refusedImport? at hrefused
  split at hrefused <;> cases hrefused
  exact error?_eq_some.mp he

end EntityTable.Table
