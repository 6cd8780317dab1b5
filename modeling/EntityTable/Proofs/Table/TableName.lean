import EntityTable.Proofs.Table.Direct
import EntityTable.Proofs.Table.Order
import EntityTable.Proofs.Table.Quoting
import EntityTable.Proofs.Table.Templates
import EntityTable.Proofs.Text.Words

/-! # The names in statements are not blank

A table name that is given is refused if it is blank; one that is derived from the entity's name is
not checked. But the text of that name has an identifier in it, so it is not blank, and it is not
blank in snake case. Columns are called by identifiers, and the names of indexes have a prefix. So no
name that a statement quotes is blank, and in particular none is empty. Main statement:
`names_not_blank_of_build`. -/

namespace EntityTable.Source

open Text Lexer

variable {text name : String}

/-! ### Blank texts -/

/-- A blank text has no tokens. -/
theorem ofText?_of_isBlankText (h : isBlankText text = true) : Token.ofText? text = some [] := by
  have hblank : ∀ c ∈ text.toList, isBlank c = true := List.all_eq_true.mp h
  have hmark : dropByteOrderMark text.toList = text.toList := by
    unfold dropByteOrderMark
    split
    · rename_i rest heq
      have hfeff := hblank '\ufeff' (heq ▸ List.mem_cons_self)
      exact absurd hfeff (by decide)
    · rfl
  have hskip : skip text.toList = [] := by
    have hgap := skip_append text.toList hblank []
    rwa [List.append_nil] at hgap
  rw [Token.ofText?, hmark, Lexer.sequence, hskip]
  rfl

/-- **No identifier is in a blank text.** -/
theorem isBlankText_of_identifier? (h : identifier? text = some name) :
    isBlankText text = false := by
  by_contra hblank
  unfold identifier? identOfText Parser.runText at h
  rw [ofText?_of_isBlankText (Bool.not_eq_false _ ▸ hblank)] at h
  split_ifs at h
  cases h

theorem isBlankText_of_isNameText (h : IsNameText name.toList) : isBlankText name = false := by
  obtain ⟨c, cs, heq, hstart⟩ := h.word.exists_cons
  have hsolid := isSeparator_eq_false_of_isStart hstart
  rw [isSeparator, Bool.or_eq_false_iff, Bool.or_eq_false_iff] at hsolid
  exact isBlankText_eq_false_iff.mpr ⟨c, heq ▸ List.mem_cons_self, hsolid.1.1⟩

end EntityTable.Source

namespace EntityTable.Table

open Sql Text
open Column (Plans)
open Entity (Description Schema article describes_of_build)
open Source (isBlankText_of_identifier? isBlankText_of_isNameText)

variable {d : Description} {s : Schema}

/-- **The name of the table is not blank**, given or derived. -/
theorem isBlankText_tableName (hs : Schema.build d = .ok s) : isBlankText s.tableName = false := by
  obtain ⟨hsound, hdescribes⟩ := describes_of_build hs
  rw [hdescribes.tableName]
  cases htable : d.table with
  | none =>
    obtain ⟨origin, horigin⟩ := Option.isSome_iff_exists.mp hsound.entity.origin
    exact isBlankText_snakeCase (isBlankText_of_identifier? horigin)
  | some table => exact hsound.entity.table table htable

theorem isBlankText_indexName (table column : String) :
    isBlankText (indexName table column) = false := by
  have hmark : IsInked "idx_".toList := ⟨'i', List.mem_cons_self, by decide⟩
  rw [isBlankText_eq_false_iff, indexName, String.toList_append, String.toList_append,
    String.toList_append]
  exact ((hmark.append_left _).append_left _).append_left _

/-! ### Names in statements -/

/-- Every statement names its table. -/
theorem Statement.table_mem_shape (st : Statement) : Lexeme.name NamePlace.table ∈ st.shape := by
  cases st with
  | insert table columns returning => cases columns <;> simp [shape]
  | createTable | addColumn | createIndex | update | delete | select => simp [shape]

/-- A name on a table is not blank if neither the table's name nor a column's is. -/
theorem NamePlace.IsOf.isBlankText_nameOn {names : List String} {place : NamePlace}
    {table : String} (h : place.IsOf names) (htable : isBlankText table = false)
    (hnames : ∀ name ∈ names, isBlankText name = false) :
    isBlankText (place.nameOn table) = false := by
  cases place with
  | table => exact htable
  | column name => exact hnames name h
  | index name => exact isBlankText_indexName table name

/-- **No statement quotes a blank name.** The name of the table is the given one, or else that of
the entity in snake case, and it is not blank. Every statement of a unit that is made from the
schema is read as tokens among which is that name, and no name among them is blank. -/
theorem names_not_blank_of_build (hs : Schema.build d = .ok s) :
    s.tableName = d.table.getD (snakeCase d.name) ∧ isBlankText s.tableName = false ∧
    ∀ plans u, GeneratedUnit.synthesize s plans = .ok u →
      u.table.tableName = s.tableName ∧ ∀ sql ∈ u.sqlTexts, ∃ tokens, lexemes sql = some tokens ∧
        .name s.tableName ∈ tokens ∧ ∀ name, .name name ∈ tokens → isBlankText name = false := by
  refine ⟨(describes_of_build hs).2.tableName, isBlankText_tableName hs, fun plans u hu => ?_⟩
  obtain ⟨t, -, hfits, htable, hstatements⟩ := PlannedTable.statements_of_synthesize hs hu
  have hname : t.tableName = s.tableName := congrArg Schema.tableName hfits.schema
  have hcolumns : ∀ name ∈ t.columnNames, isBlankText name = false := by
    intro name hmem
    rw [hfits.columnNames, hfits.names] at hmem
    obtain ⟨f, hf, rfl⟩ := List.mem_map.mp hmem
    exact isBlankText_of_isNameText (isNameText_of_build hs hf)
  refine ⟨htable, fun sql hsql => ?_⟩
  rw [GeneratedUnit.sqlTexts_eq, hstatements] at hsql
  obtain ⟨st, hst, rfl⟩ := List.mem_map.mp hsql
  refine ⟨onTable s.tableName st.shape, ?_, ?_, fun name hmem => ?_⟩
  · exact st.reads_text (hname ▸ PlannedTable.isOn_of_mem hst)
  · exact List.mem_map.mpr ⟨_, st.table_mem_shape, rfl⟩
  · obtain ⟨token, htoken, heq⟩ := List.mem_map.mp hmem
    have hnames := Statement.namesIn_shape (PlannedTable.mentions_of_mem hfits hst)
    cases token with
    | name place =>
      cases heq
      exact (hnames place htoken).isBlankText_nameOn (isBlankText_tableName hs) hcolumns
    | word _ => cases heq
    | parameter _ => cases heq
    | mark _ => cases heq

/-- An entity whose name consists of what separates words. -/
def lowLines : Description := { article with name := "__" }

theorem names_not_blank_of_build_lowLines : ∃ s plans u, Schema.build lowLines = .ok s ∧
    GeneratedUnit.synthesize s plans = .ok u ∧ u.table.tableName = "__" ∧
    ∀ sql ∈ u.sqlTexts, ∃ tokens, lexemes sql = some tokens ∧ .name "__" ∈ tokens ∧
      ∀ name, .name name ∈ tokens → isBlankText name = false := by
  obtain ⟨u, hgenerate⟩ := exists_generate_of_isSimple (d := lowLines) (by decide +kernel)
  obtain ⟨s, plans, hs, -, hu⟩ := stages_of_generate hgenerate
  obtain ⟨hderived, -, htexts⟩ := names_not_blank_of_build hs
  have hname : s.tableName = "__" := hderived.trans (by decide)
  rw [hname] at htexts
  exact ⟨s, plans, u, hs, hu, htexts plans u hu⟩

end EntityTable.Table
