import EntityTable.Proofs.Table.Imports
import EntityTable.Proofs.Table.Namespaces

/-! # The declarations of imports

No path is imported twice, but a path may be spelled in several ways, and all are written out in the
same way. What every unit imports on its own account is written out in different ways: the fixed
paths by evaluation, and the glob by its `*`. So two declarations of a unit are alike only if a
mapping declares one of the paths. Main statement: `nodup_useTexts_of_generate`. -/

namespace EntityTable.Source

theorem Token.mem_textList {c : Char} {t : Token} (hc : c ∈ t.text.toList) :
    ∀ {tokens : List Token}, t ∈ tokens → c ∈ (Token.textList tokens).toList
  | [], h => by cases h
  | [first], h => by
    cases List.mem_singleton.mp h
    exact hc
  | first :: second :: rest, h => by
    have hmore (hmem : t ∈ second :: rest) := mem_textList hc hmem
    unfold Token.textList
    split
    · rename_i heq
      cases heq
    · rename_i heq
      cases heq
    · rename_i heq
      cases heq
      rw [String.toList_append, List.mem_append]
      exact (List.mem_cons.mp h).imp (fun heq => by rw [heq] at hc; exact hc) hmore
    · rename_i heq
      cases heq
      rw [String.toList_append, String.toList_append, List.mem_append, List.mem_append]
      exact (List.mem_cons.mp h).imp (fun heq => Or.inl (by rw [← heq]; exact hc)) hmore

theorem star_mem_globTree : ∀ names : List String, .punct '*' false ∈ (globTree names).tokens
  | [] => List.mem_singleton_self _
  | w :: ws => by
    rw [globTree, UseTree.tokens]
    exact List.mem_append_right _ (star_mem_globTree ws)

namespace Import

/-- The text of the declaration. -/
def useText (i : Import) : String := Token.textList i.tokens

/-- The text of the declaration that a path is written out as. -/
def useText? (path : String) : Option String := (ofText? path).map useText

example : useText? "sqlx :: Row" = some "use sqlx :: Row ;" ∧
    useText? "sqlx::Row" = some "use sqlx :: Row ;" := by
  decide +kernel

theorem star_mem_useText (path : String) (names : List String) :
    '*' ∈ (Import.mk path (globTree names)).useText.toList := by
  refine Token.mem_textList (t := .punct '*' false) (by decide) ?_
  exact List.mem_append_left _ (List.mem_append_right _ (star_mem_globTree names))

end Import

end EntityTable.Source

namespace EntityTable.Table

open Source
open Column (Plans TextForm declaredImports)
open Entity (Description FieldDescription Schema)

/-! ### Fixed paths -/

/-- The paths that units import without being told: the base and the functions of all text forms. -/
def fixedPaths : List String :=
  baseImports ++
    [TextForm.dateTime, .zonedDateTime, .list, .float, .serialized].flatMap TextForm.imports

theorem mem_fixedPaths_of_textForm {g : TextForm} {path : String} (h : path ∈ g.imports) :
    path ∈ fixedPaths :=
  List.mem_append_right _ (List.mem_flatMap.mpr ⟨g, by cases g <;> decide, h⟩)

/-- The declarations of the fixed paths, in the same order. -/
def fixedTexts : List String :=
  ["use sqlx :: Row ;", "use sqlx :: postgres :: \x7b PgPool , PgRow \x7d ;"] ++
    [TextForm.dateTime, .zonedDateTime, .list, .float, .serialized].flatMap fun g =>
      ["use table_dao :: codec :: " ++ g.decoder ++ " ;",
        "use table_dao :: codec :: " ++ g.encoder ++ " ;"]

theorem map_useText?_fixedPaths : fixedPaths.map Import.useText? = fixedTexts.map some := by
  decide +kernel

theorem nodup_useTexts_fixedPaths : (fixedPaths.map Import.useText?).Nodup := by
  have hnodup : fixedTexts.Nodup := by decide
  rw [map_useText?_fixedPaths]
  exact hnodup.map (Option.some_injective String)

theorem exists_useText_fixedPaths {path : String} (h : path ∈ fixedPaths) :
    ∃ text, Import.useText? path = some text ∧ '*' ∉ text.toList := by
  have hstars : ∀ text ∈ fixedTexts, '*' ∉ text.toList := by decide
  have hmem : Import.useText? path ∈ fixedTexts.map some :=
    map_useText?_fixedPaths ▸ List.mem_map_of_mem h
  obtain ⟨text, htext, heq⟩ := List.mem_map.mp hmem
  exact ⟨text, heq.symm, hstars text htext⟩

/-- The glob of a namespace is written out as no fixed path is. -/
theorem useText?_homeGlob_ne {d : Description} {s : Schema} (hs : Schema.build d = .ok s)
    {path : String} (h : path ∈ fixedPaths) :
    Import.useText? path ≠ Import.useText? (homeGlob s.home) := by
  obtain ⟨text, htext, hstar⟩ := exists_useText_fixedPaths h
  rw [htext, Import.useText?, ofText?_homeGlob hs]
  split
  · intro heq
    cases heq
    exact hstar (Import.star_mem_useText _ _)
  · exact Option.some_ne_none text

/-! ### Units -/

namespace GeneratedUnit.From

variable {u : GeneratedUnit} {d : Description} {s : Schema} {plans : Plans} {t : PlannedTable}
  (h : u.From d s plans t)
include h

/-- A path that is imported besides the namespace is a fixed one or declared by a mapping. -/
theorem fixed_or_declared {path : String} (hpath : path ∈ baseImports ++ t.planPaths) :
    path ∈ fixedPaths ∨ ∃ f ∈ s.storable, path ∈ declaredImports f ∧ path ∉ baseImports := by
  rcases List.mem_append.mp hpath with hbase | hplan
  · exact Or.inl (List.mem_append_left _ hbase)
  · obtain ⟨hbase, c, hc, hlisted⟩ := (t.planPaths_spec.2 path).mp hplan
    rcases (h.planOf hc).mem_imports.mp hlisted with ⟨g, -, hform⟩ | hdeclared
    · exact Or.inl (mem_fixedPaths_of_textForm hform)
    · exact Or.inr ⟨c.field, h.mem_storable hc, hdeclared, hbase⟩

omit h in
/-- No path is imported twice besides the namespace. -/
theorem nodup_paths (t : PlannedTable) : (baseImports ++ t.planPaths).Nodup := by
  obtain ⟨hsorted, hmem⟩ := t.planPaths_spec
  refine List.nodup_append.mpr ⟨by decide, hsorted.imp ne_of_lt, ?_⟩
  rintro p hp _ hq rfl
  exact ((hmem p).mp hq).1 hp

/-- The declarations of a unit are those that its paths are written out as. -/
theorem map_some_useText :
    (u.imports.map Import.useText).map some = t.paths.map Import.useText? := by
  have hread := congrArg (List.map (Option.map Import.useText))
    (PlannedTable.imports_eq_ok_iff.mp h.imports)
  rw [List.map_map, List.map_map] at hread
  rw [List.map_map]
  exact hread.symm

/-- **Two paths besides the namespace are written out alike only if a mapping declares one.** -/
theorem eq_of_useText?_eq
    (hclash : ∀ f ∈ s.storable, ∀ path ∈ declaredImports f, path ∉ baseImports →
      ∀ other ∈ baseImports ++ t.planPaths, Import.useText? other = Import.useText? path →
        other = path)
    {p q : String} (hp : p ∈ baseImports ++ t.planPaths) (hq : q ∈ baseImports ++ t.planPaths)
    (heq : Import.useText? p = Import.useText? q) : p = q := by
  rcases h.fixed_or_declared hp with hpfixed | ⟨f, hf, hdeclared, hbase⟩
  · rcases h.fixed_or_declared hq with hqfixed | ⟨f, hf, hdeclared, hbase⟩
    · exact List.inj_on_of_nodup_map nodup_useTexts_fixedPaths hpfixed hqfixed heq
    · exact hclash f hf q hdeclared hbase p hp heq
  · exact (hclash f hf p hdeclared hbase q hq heq.symm).symm

end GeneratedUnit.From

/-- **When all declarations of a unit are different**: exactly if no path that a mapping declares,
besides those of the base, is written out as the glob of the namespace is or as another path of the
unit is. -/
theorem nodup_useTexts_of_generate {d : Description} {u : GeneratedUnit} (hu : generate d = .ok u) :
    ∃ s, Schema.build d = .ok s ∧
      ((u.imports.map Import.useText).Nodup ↔
        ∀ f ∈ s.storable, ∀ path ∈ declaredImports f, path ∉ baseImports →
          Import.useText? path ≠ Import.useText? (homeGlob s.home) ∧
          ∀ i ∈ u.imports, i.path ≠ path → Import.useText? i.path ≠ Import.useText? path) := by
  obtain ⟨s, plans, t, h⟩ := GeneratedUnit.exists_from hu
  refine ⟨s, h.build, ?_⟩
  have hpaths : ∀ path, path ∈ homeGlob s.home :: (baseImports ++ t.planPaths) ↔
      ∃ i ∈ u.imports, i.path = path := by
    intro path
    rw [← List.cons_append, ← h.map_path, List.mem_map]
  rw [← List.nodup_map_iff (Option.some_injective String), h.map_some_useText, PlannedTable.paths,
    h.fits.schema, List.cons_append, List.map_cons, List.nodup_cons,
    List.nodup_map_iff_inj_on (GeneratedUnit.From.nodup_paths t)]
  constructor
  · rintro ⟨hglob, hinjective⟩ f hf path hdeclared hbase
    obtain ⟨c, hc, rfl⟩ := h.exists_column hf
    have hlisted := (h.planOf hc).mem_imports.mpr (Or.inr hdeclared)
    have hmem : path ∈ baseImports ++ t.planPaths :=
      List.mem_append_right _ ((t.planPaths_spec.2 path).mpr ⟨hbase, c, hc, hlisted⟩)
    have hne : Import.useText? path ≠ Import.useText? (homeGlob s.home) :=
      fun heq => hglob (List.mem_map.mpr ⟨path, hmem, heq⟩)
    refine ⟨hne, fun i hi hother heq => ?_⟩
    rcases List.mem_cons.mp ((hpaths i.path).mpr ⟨i, hi, rfl⟩) with hhome | hrest
    · exact hne (hhome ▸ heq.symm)
    · exact hother (hinjective _ hrest _ hmem heq)
  · intro hclash
    refine ⟨fun hglob => ?_, fun p hp q hq => h.eq_of_useText?_eq ?_ hp hq⟩
    · obtain ⟨path, hpath, heq⟩ := List.mem_map.mp hglob
      rcases h.fixed_or_declared hpath with hfixed | ⟨f, hf, hdeclared, hbase⟩
      · exact useText?_homeGlob_ne h.build hfixed heq
      · exact (hclash f hf path hdeclared hbase).1 heq
    · intro f hf path hdeclared hbase other hother heq
      obtain ⟨i, hi, rfl⟩ := (hpaths other).mp (List.mem_cons_of_mem _ hother)
      by_contra hne
      exact (hclash f hf path hdeclared hbase).2 i hi hne heq

/-- Two mappings of one entity that declare the same path. -/
def sharedImport : Description where
  name := "Reading"
  home := none
  className := none
  table := none
  hideColumns := false
  fields := [(FieldDescription.plain "uuid" (.word "Uuid")).asPrimaryKey,
    (FieldDescription.plain "start" (.word "Instant")).mappedBy
      ⟨.word "i64", none, none, none, ["clock::Instant"]⟩,
    (FieldDescription.plain "stop" (.word "Instant")).mappedBy
      ⟨.word "i64", none, none, none, ["clock::Instant"]⟩]

theorem nodup_useTexts_of_generate_sharedImport : ∃ u, generate sharedImport = .ok u ∧
    u.imports.map Import.path = "super::*" :: baseImports ++ ["clock::Instant"] ∧
    (u.imports.map Import.useText).Nodup := by
  obtain ⟨u, hu⟩ := exists_generate_of_isSimple (d := sharedImport) (by decide +kernel)
  obtain ⟨s, hs, hiff⟩ := nodup_useTexts_of_generate hu
  obtain ⟨s', plans, t, hfrom⟩ := GeneratedUnit.exists_from hu
  cases hs.symm.trans hfrom.build
  have hpaths : (plannedTable? sharedImport).map PlannedTable.paths =
      some ("super::*" :: baseImports ++ ["clock::Instant"]) := by decide +kernel
  rw [hfrom.plannedTable?_eq] at hpaths
  have hpaths := hfrom.map_paths.trans (Option.some.inj hpaths)
  have hrun : ((Schema.build sharedImport).toOption.map fun s =>
      ((s.storable.flatMap declaredImports).all fun path => path == "clock::Instant",
        homeGlob s.home)) = some (true, "super::*") := by decide +kernel
  rw [hs] at hrun
  obtain ⟨hdeclared, hhome⟩ := Prod.mk.inj (Option.some.inj hrun)
  refine ⟨u, hu, hpaths, hiff.mpr fun f hf path hpath _ => ?_⟩
  have hpath := eq_of_beq (List.all_eq_true.mp hdeclared path (List.mem_flatMap.mpr ⟨f, hf, hpath⟩))
  have hglob : Import.useText? "clock::Instant" ≠ Import.useText? "super::*" := by decide +kernel
  have hbase : ∀ other ∈ baseImports, Import.useText? other ≠ Import.useText? "clock::Instant" := by
    decide +kernel
  rw [hhome, hpath]
  refine ⟨hglob, fun i hi hne => ?_⟩
  have hi : i.path ∈ "super::*" :: baseImports ++ ["clock::Instant"] :=
    hpaths ▸ List.mem_map_of_mem hi
  rcases List.mem_append.mp hi with hi | hi
  · rcases List.mem_cons.mp hi with hi | hi
    · exact hi ▸ hglob.symm
    · exact hbase i.path hi
  · exact absurd (List.mem_singleton.mp hi) hne

/-- A mapping that declares a path of the base, spelled with blanks. -/
def respelledImport : Description where
  name := "Entry"
  home := none
  className := none
  table := none
  hideColumns := false
  fields := [(FieldDescription.plain "uuid" (.word "Uuid")).asPrimaryKey,
    (FieldDescription.plain "count" (.word "Count")).mappedBy
      ⟨.word "i64", none, none, none, ["sqlx :: Row"]⟩]

theorem nodup_useTexts_respelledImport : ∃ u, generate respelledImport = .ok u ∧
    u.imports.map Import.useText = ["use super :: * ;", "use sqlx :: Row ;",
      "use sqlx :: postgres :: \x7b PgPool , PgRow \x7d ;", "use sqlx :: Row ;"] ∧
    ¬ (u.imports.map Import.useText).Nodup := by
  obtain ⟨u, hu⟩ := exists_generate_of_isSimple (d := respelledImport) (by decide +kernel)
  obtain ⟨s, plans, t, hfrom⟩ := GeneratedUnit.exists_from hu
  have hread : ((plannedTable? respelledImport).map fun t => t.paths.map Import.useText?) =
      some (["use super :: * ;", "use sqlx :: Row ;",
        "use sqlx :: postgres :: \x7b PgPool , PgRow \x7d ;", "use sqlx :: Row ;"].map some) := by
    decide +kernel
  rw [hfrom.plannedTable?_eq] at hread
  have htexts := List.map_injective_iff.mpr (Option.some_injective String)
    (hfrom.map_some_useText.trans (Option.some.inj hread))
  refine ⟨u, hu, htexts, ?_⟩
  rw [htexts]
  decide

end EntityTable.Table
