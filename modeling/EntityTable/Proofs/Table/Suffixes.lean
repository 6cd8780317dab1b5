import EntityTable.Proofs.Table.ItemNames
import EntityTable.Proofs.Text.Pascal

/-! # Suffixes of lookups

The suffix of a lookup is `By` and the name of its field in Pascal case, which drops the low lines.
The fields of a table have different column constants, and these keep the low lines, so two lookups
may share a suffix, as `title` and `_title` do. When they do is told by the words of their fields
(`LookupsApart`); lookups by tidy names never do. -/

namespace EntityTable.Table

open Entity (Description FieldDescription Schema StoredField columnConstant describes_of_build
  storable_eq_of_build)
open Text (ArePlain capitalize isTidy joinedWords pascalCase words)

/-- What tells two lookups apart: their fields and the constants of these do, and their suffixes do
if their words, capitalized and joined, are different texts. -/
structure LookupsApart (f g : String) : Prop where
  fields : f ≠ g
  constants : columnConstant f ≠ columnConstant g
  suffixes : (OperationKind.getBy f).suffix? = (OperationKind.getBy g).suffix? ↔
    ((words f).map capitalize).flatten = ((words g).map capitalize).flatten
  /-- With one upper and one lower form for each character, it is enough to compare the words. -/
  plain : ArePlain f.toList → ArePlain g.toList →
    ((OperationKind.getBy f).suffix? = (OperationKind.getBy g).suffix? ↔
      joinedWords f = joinedWords g)
  /-- Tidy names have different suffixes. -/
  tidy : ArePlain f.toList → ArePlain g.toList → isTidy f = true → isTidy g = true →
    (OperationKind.getBy f).suffix? ≠ (OperationKind.getBy g).suffix?

theorem suffix?_getBy_eq_iff {f g : String} :
    (OperationKind.getBy f).suffix? = (OperationKind.getBy g).suffix? ↔
      pascalCase f = pascalCase g := by
  rw [OperationKind.suffix?, OperationKind.suffix?, Option.some.injEq]
  exact String.append_right_inj "By"

theorem LookupsApart.of_constants {f g : String} (h : columnConstant f ≠ columnConstant g) :
    LookupsApart f g where
  fields := fun heq => h (heq ▸ rfl)
  constants := h
  suffixes := by
    rw [suffix?_getBy_eq_iff, pascalCase, pascalCase, String.ofList_inj]
  plain := fun hf hg => by
    rw [suffix?_getBy_eq_iff, Text.pascalCase_eq_iff hf hg]
  tidy := fun hf hg hftidy hgtidy heq => by
    have hpascal := suffix?_getBy_eq_iff.mp heq
    refine h ?_
    rw [columnConstant, columnConstant,
      Text.upperSnakeCase_eq_of_pascalCase_eq hf hg hftidy hgtidy hpascal]

section From
variable {u : GeneratedUnit} {d : Description} {s : Entity.Schema} {plans : Column.Plans}
  {t : PlannedTable} (h : u.From d s plans t)
include h

/-- A lookup goes by a stored field. -/
theorem GeneratedUnit.From.exists_field {o : Operation} (ho : o ∈ u.table.operations) {f : String}
    (hkind : o.kind = .getBy f) : ∃ field ∈ s.storable, field.name = f := by
  have hmem : o.kind ∈ u.table.operations.map Operation.kind := List.mem_map_of_mem ho
  rw [h.kinds, hkind] at hmem
  simp only [List.mem_append, List.mem_cons, List.not_mem_nil, List.mem_map, or_false, reduceCtorEq,
    false_or] at hmem
  obtain ⟨field, hfield, hname⟩ := hmem
  exact ⟨field, (List.mem_filter.mp hfield).1, OperationKind.getBy.inj hname⟩

end From

/-- **Two lookups of a table have different fields and constants**, and share their suffix exactly
if their fields agree in Pascal case. -/
theorem suffixes_of_generate {d : Description} {u : GeneratedUnit} (h : generate d = .ok u) :
    u.table.operations.Pairwise fun o o' =>
      ∀ f g, o.kind = .getBy f → o'.kind = .getBy g → LookupsApart f g := by
  obtain ⟨s, plans, t, hfrom⟩ := GeneratedUnit.exists_from h
  have hkinds : u.table.operations.Pairwise fun o o' => o.kind ≠ o'.kind :=
    List.pairwise_map.mp hfrom.nodup_kinds
  refine hkinds.imp_of_mem fun {o o'} ho ho' hne f g hf hg => .of_constants fun heq => hne ?_
  obtain ⟨field, hfield, rfl⟩ := hfrom.exists_field ho hf
  obtain ⟨field', hfield', rfl⟩ := hfrom.exists_field ho' hg
  have hsame : field = field' :=
    List.inj_on_of_nodup_map hfrom.nodup_constants hfield hfield' heq
  rw [hf, hg, hsame]

/-! ### Titles of an article -/

/-- An article with the lookups `title`, `_title` and `tag_line`. -/
def titledArticle : Description where
  name := "Article"
  home := none
  className := none
  table := none
  hideColumns := false
  fields := [(FieldDescription.plain "uuid" (.word "Uuid")).asPrimaryKey,
    (FieldDescription.plain "title" (.word "String")).asLookupKey,
    (FieldDescription.plain "_title" (.word "String")).asLookupKey,
    (FieldDescription.plain "tag_line" (.word "String")).asLookupKey]

theorem exists_generate_titledArticle : ∃ u, generate titledArticle = .ok u ∧
    u.table.operations.map Operation.kind = [.save, .create, .update, .delete, .get, .getAll,
      .getBy "title", .getBy "_title", .getBy "tag_line", .transform] := by
  obtain ⟨u, hu⟩ := exists_generate_of_isSimple (d := titledArticle) (by decide +kernel)
  obtain ⟨s, plans, t, hfrom⟩ := GeneratedUnit.exists_from hu
  have hlookups : s.lookups.map (fun f => OperationKind.getBy f.name) =
      [.getBy "title", .getBy "_title", .getBy "tag_line"] := by
    rw [Schema.lookups, (storable_eq_of_build hfrom.build).1]
    decide
  exact ⟨u, hu, by rw [hfrom.kinds, hlookups]; rfl⟩

/-- The lookups by `title` and `_title` have the same joined words, and the suffix of the lookup by
`tag_line` is not theirs. -/
theorem suffixes_of_generate_titledArticle : ∃ u, generate titledArticle = .ok u ∧
    OperationKind.getBy "title" ∈ u.table.operations.map Operation.kind ∧
    OperationKind.getBy "_title" ∈ u.table.operations.map Operation.kind ∧
    (OperationKind.getBy "title").suffix? = (OperationKind.getBy "_title").suffix? ∧
    (OperationKind.getBy "title").suffix? ≠ (OperationKind.getBy "tag_line").suffix? := by
  obtain ⟨u, hu, hkinds⟩ := exists_generate_titledArticle
  have hpairs : (u.table.operations.map Operation.kind).Pairwise fun kind kind' =>
      ∀ f g, kind = .getBy f → kind' = .getBy g → LookupsApart f g :=
    List.pairwise_map.mpr (suffixes_of_generate hu)
  have hsublist : [OperationKind.getBy "title", .getBy "_title", .getBy "tag_line"].Sublist
      (u.table.operations.map Operation.kind) := by
    rw [hkinds]
    decide
  obtain ⟨htitle, -⟩ := List.pairwise_cons.mp (hpairs.sublist hsublist)
  have hline := htitle (.getBy "_title") (by simp) "title" "_title" rfl rfl
  have htag := htitle (.getBy "tag_line") (by simp) "title" "tag_line" rfl rfl
  have hplain : ∀ name ∈ ["title", "_title", "tag_line"], ArePlain name.toList := by
    intro name hname
    simp only [List.mem_cons, List.not_mem_nil, or_false] at hname
    rcases hname with rfl | rfl | rfl <;> exact Text.arePlain_of_ascii (by decide)
  refine ⟨u, hu, by rw [hkinds]; decide, by rw [hkinds]; decide, ?_, ?_⟩
  · exact (hline.plain (hplain _ (by decide)) (hplain _ (by decide))).mpr (by decide)
  · exact htag.tidy (hplain _ (by decide)) (hplain _ (by decide)) (by decide) (by decide)

/-- Two lookups of one table that share a suffix. -/
theorem suffixes_collide : ∃ u, generate titledArticle = .ok u ∧
    ∃ o ∈ u.table.operations, ∃ o' ∈ u.table.operations,
      o.kind = .getBy "title" ∧ o'.kind = .getBy "_title" ∧
      o.kind.suffix? = some "ByTitle" ∧ o'.kind.suffix? = some "ByTitle" := by
  obtain ⟨u, hu, hkinds⟩ := exists_generate_titledArticle
  have hmem (kind : OperationKind) (hkind : kind ∈ u.table.operations.map Operation.kind) :
      ∃ o ∈ u.table.operations, o.kind = kind := List.mem_map.mp hkind
  obtain ⟨o, ho, hkind⟩ := hmem (.getBy "title") (by rw [hkinds]; decide)
  obtain ⟨o', ho', hkind'⟩ := hmem (.getBy "_title") (by rw [hkinds]; decide)
  refine ⟨u, hu, o, ho, o', ho', hkind, hkind', ?_, ?_⟩
  · rw [hkind]
    decide
  · rw [hkind']
    decide

end EntityTable.Table
