import EntityTable.Proofs.Layout.Documentation
import EntityTable.Proofs.Source.Files
import EntityTable.Proofs.Table.Rendering

/-! # The comment of a table object

The name of the table stands in the documentation of the table object. Rendered, this is a comment,
the first in the file after its first line. A name in which a carriage return stands alone makes it
one that no lexer takes, although the unit is generated and rendered
(`documentation_of_generate`). -/

namespace EntityTable.Table

open Source
open Source.Lexer (docTokens doc?)
open Layout (docComment? dropInnerBlanks)
open Column (Plans)
open Entity (Description FieldDescription Schema StoredField)

namespace TableObject

/-- What is said about the table object. -/
def documentation (t : TableObject) : String :=
  "Table-backed data access object for [`" ++ t.entity ++ "`], stored in `" ++ t.tableName ++ "`."

/-- What a lexer reads in the comment of the table object. -/
def commentText (t : TableObject) : List Char := dropInnerBlanks t.documentation.toList

theorem getLast?_documentation (t : TableObject) :
    t.documentation.toList.getLast? = some '.' := by
  have hend : "`.".toList = ['`', '.'] := by decide
  unfold documentation
  generalize "Table-backed data access object for [`" ++ t.entity ++ "`], stored in `" ++
    t.tableName = front
  rw [String.toList_append, hend, List.getLast?_append]
  rfl

theorem head?_documentation (t : TableObject) : t.documentation.toList.head? = some 'T' := by
  have hhead : ("Table-backed data access object for [`").toList.head? = some 'T' := by decide
  unfold documentation
  generalize "Table-backed data access object for [`" = front at hhead ⊢
  simp only [String.toList_append, List.head?_append, hhead, Option.some_or]

/-- The comment of the table object has a carriage return that no lexer takes. -/
def hasBareReturn (t : TableObject) : Bool :=
  (docComment? t.documentation).isSome && Lexer.hasBareReturn t.commentText

end TableObject

namespace GeneratedUnit.From

variable {u : GeneratedUnit} {d : Description} {s : Schema} {plans : Plans} {t : PlannedTable}
  (h : u.From d s plans t)
include h

/-- **The file of a unit begins with its imports and its struct.** -/
theorem exists_items {file : File} (hfile : File.ofTokens u.tokens = .ok file) :
    ∃ more, file.items = u.imports.map Import.item ++ u.table.structItem :: more := by
  rw [u.tokens_eq] at hfile
  obtain ⟨more, hmore⟩ := File.exists_more_of_ofTokens h.printsItem_front hfile
  exact ⟨more, by rw [hmore, GeneratedUnit.front, List.append_assoc, List.singleton_append]⟩

/-- **The comment of the table object is the first one in the rendered unit** after its first line. -/
theorem exists_rendered {text comment : String} (hrender : u.render = .ok text)
    (hcomment : docComment? u.table.documentation = some comment) : ∃ quiet after,
      text.toList = generatedMarker.toList ++ '\n' :: quiet ++ (comment.toList ++ '\n' :: after) ∧
        ∀ c ∈ quiet, Lexer.isQuiet c = true := by
  obtain ⟨file, hfile, hrender⟩ := bind_eq_ok.mp hrender
  cases hrender
  obtain ⟨more, hmore⟩ := h.exists_items hfile
  have huses : u.imports.map Import.item =
      (u.imports.map Import.tree).map (.use [] .inherited false) := by
    rw [List.map_map]
    rfl
  have hwords : ∀ tree ∈ u.imports.map Import.tree, ∀ w ∈ tree.names, Lexer.IsWord w.toList := by
    intro tree htree
    obtain ⟨import', himport, rfl⟩ := List.mem_map.mp htree
    obtain ⟨text, htext⟩ := h.exists_text himport
    exact UseTree.isWord_of_ofText htext
  obtain ⟨before, after, htext, hquiet⟩ :=
    Layout.exists_fileText (huses ▸ hmore) hwords hcomment
  refine ⟨'\n' :: before, after, ?_, List.forall_mem_cons.mpr ⟨by decide, hquiet⟩⟩
  rw [String.toList_append, String.toList_append, htext]
  simp

/-- **A comment with a bare carriage return leaves the rendered unit without tokens.** -/
theorem ofText?_eq_none {text : String} (hrender : u.render = .ok text)
    (hbare : u.table.hasBareReturn = true) : Token.ofText? text = none := by
  obtain ⟨hcomment, hbare⟩ := Bool.and_eq_true_iff.mp hbare
  obtain ⟨comment, hcomment⟩ := Option.isSome_iff_exists.mp hcomment
  obtain ⟨quiet, after, htext, hquiet⟩ := h.exists_rendered hrender hcomment
  obtain ⟨tail, htail, hrefused⟩ :=
    Layout.exists_isRefused hcomment u.table.getLast?_documentation hbare after
  obtain ⟨line, hmarker, hline⟩ : ∃ line, generatedMarker.toList = '/' :: '/' :: ' ' :: line ∧
      '\n' ∉ line := ⟨generatedMarker.toList.drop 3, by decide, by decide⟩
  rw [htail, hmarker] at htext
  exact Lexer.ofText?_eq_none hrefused htext hline hquiet

/-- The ends of lines in the documentation are those in the name of the table. -/
theorem mem_documentation {c : Char} (hc : c = '\n' ∨ c = '\r') :
    c ∈ u.table.documentation.toList ↔ c ∈ u.table.tableName.toList := by
  have hentity : c ∉ u.table.entity.toList := fun hmem => by
    have hform := Layout.form_of_mem_isWord h.isWord_entity hmem
    rcases hc with rfl | rfl <;> exact absurd hform (by decide)
  have hfirst : c ∉ "Table-backed data access object for [`".toList := by
    rcases hc with rfl | rfl <;> decide
  have hsecond : c ∉ "`], stored in `".toList := by
    rcases hc with rfl | rfl <;> decide
  have hlast : c ∉ "`.".toList := by
    rcases hc with rfl | rfl <;> decide
  have hjoined {a b d e : String} (ha : c ∉ a.toList) (hb : c ∉ b.toList) (hd : c ∉ d.toList)
      (he : c ∉ e.toList) (name : String) :
      c ∈ (a ++ b ++ d ++ name ++ e).toList ↔ c ∈ name.toList := by
    simp [String.toList_append, ha, hb, hd, he]
  exact hjoined hfirst hentity hsecond hlast u.table.tableName

theorem isSome_docComment? (hline : '\n' ∉ u.table.tableName.toList) :
    (docComment? u.table.documentation).isSome = true :=
  Layout.isSome_docComment? ((h.mem_documentation (.inl rfl)).not.mpr hline)
    (by rw [u.table.head?_documentation]; decide)

/-- Where the name of the table is a line, its carriage returns are bare. -/
theorem hasBareReturn_iff (hline : '\n' ∉ u.table.tableName.toList) :
    u.table.hasBareReturn = true ↔ '\r' ∈ u.table.tableName.toList := by
  have hcomment := h.isSome_docComment? hline
  have hline := (h.mem_documentation (.inl rfl)).not.mpr hline
  rw [TableObject.hasBareReturn, hcomment, Bool.true_and, TableObject.commentText,
    Layout.dropInnerBlanks_line hline, Layout.hasBareReturn_line hline, h.mem_documentation (.inr rfl)]

end GeneratedUnit.From

/-- **Where the comment of the table object is read, it is read as the documentation**, and where it
is not, the rendered unit has no tokens. -/
theorem documentation_of_generate {d : Description} {u : GeneratedUnit} {text : String}
    (h : generate d = .ok u) (hrender : u.render = .ok text) :
    (u.table.hasBareReturn = true → Token.ofText? text = none) ∧
    (∀ comment, docComment? u.table.documentation = some comment → ∃ before after,
      text.toList = before ++ (comment.toList ++ '\n' :: after) ∧
      (u.table.hasBareReturn = false → doc? (comment.toList ++ '\n' :: after) =
        some (docTokens false u.table.commentText, '\n' :: after))) ∧
    ('\n' ∉ u.table.tableName.toList →
      (u.table.hasBareReturn = true ↔ '\r' ∈ u.table.tableName.toList)) := by
  obtain ⟨s, plans, t, hfrom⟩ := GeneratedUnit.exists_from h
  refine ⟨hfrom.ofText?_eq_none hrender, fun comment hcomment => ?_, hfrom.hasBareReturn_iff⟩
  obtain ⟨quiet, after, htext, -⟩ := hfrom.exists_rendered hrender hcomment
  refine ⟨_, after, htext, fun hbare => ?_⟩
  have hcomment' : Lexer.hasBareReturn u.table.commentText = false := by
    rwa [TableObject.hasBareReturn, hcomment, Option.isSome_some, Bool.true_and] at hbare
  have hdoc := Layout.doc?_docComment hcomment u.table.getLast?_documentation after
  rwa [← TableObject.commentText, hcomment', if_neg Bool.false_ne_true] at hdoc

/-! ### Fixed names of tables -/

/-- An entity with nothing but a key, in a table of this name. -/
def keyOnly (table : String) : Description where
  name := "Entry"
  home := none
  className := none
  table := some table
  hideColumns := false
  fields := [(FieldDescription.plain "uuid" (.word "Uuid")).asPrimaryKey]

/-- The entity is generated and rendered under every name that its schema takes. -/
theorem exists_render {table : String} (h : isPlanned (keyOnly table) StoredField.isSimple = true) :
    ∃ u text, generate (keyOnly table) = .ok u ∧ u.render = .ok text ∧
      u.table.tableName = table := by
  obtain ⟨u, hu⟩ := exists_generate_of_isSimple h
  obtain ⟨s, plans, t, hfrom⟩ := GeneratedUnit.exists_from hu
  obtain ⟨_, _, hs, -, -, hsimple⟩ := exists_of_isPlanned _ h
  cases hs.symm.trans hfrom.build
  have hdirect : ∀ f ∈ s.storable, f.IsDirect :=
    fun f hf => StoredField.isDirect_of_isSimple (hsimple f hf)
  have hkeys : ∀ f ∈ s.primaryKey :: s.lookups, f.ty.IsWritten ∧ f.ty.isOpenSum = false := by
    intro f hf
    obtain ⟨given, hgiven, -, name, -, rfl⟩ := hfrom.exists_description (hfrom.mem_storable_key hf)
    cases List.mem_singleton.mp hgiven
    exact ⟨Grammar.isWritten_word (by decide), rfl⟩
  obtain ⟨text, hrender⟩ := hfrom.exists_rendered_of_isDirect hdirect hkeys
  exact ⟨u, text, hu, hrender, hfrom.tableName_eq⟩

example : ∃ u text, generate (keyOnly "two\nlines") = .ok u ∧ u.render = .ok text ∧
    u.table.tableName = "two\nlines" :=
  exists_render (by decide +kernel)

theorem documentation_of_generate_twoWords : ∃ u text comment before after,
    generate (keyOnly "two words") = .ok u ∧ u.render = .ok text ∧
    docComment? u.table.documentation = some comment ∧
    text.toList = before ++ (comment.toList ++ '\n' :: after) ∧
    doc? (comment.toList ++ '\n' :: after) =
      some (docTokens false u.table.commentText, '\n' :: after) := by
  obtain ⟨u, text, hu, hrender, htable⟩ :
      ∃ u text, generate (keyOnly "two words") = .ok u ∧ u.render = .ok text ∧
        u.table.tableName = "two words" := exists_render (by decide +kernel)
  obtain ⟨-, hcomment, hreturn⟩ := documentation_of_generate hu hrender
  obtain ⟨s, plans, t, hfrom⟩ := GeneratedUnit.exists_from hu
  rw [htable] at hreturn
  have hread : u.table.hasBareReturn = false := by
    rw [← Bool.not_eq_true, hreturn (by decide)]
    decide
  obtain ⟨comment, hsome⟩ := Option.isSome_iff_exists.mp
    (hfrom.isSome_docComment? (by rw [htable]; decide))
  obtain ⟨before, after, htext, hdoc⟩ := hcomment comment hsome
  exact ⟨u, text, comment, before, after, hu, hrender, hsome, htext, hdoc hread⟩

theorem ofText?_render_bareReturn : ∃ u text, generate (keyOnly "two\rlines") = .ok u ∧
    u.render = .ok text ∧ Token.ofText? text = none := by
  obtain ⟨u, text, hu, hrender, htable⟩ :
      ∃ u text, generate (keyOnly "two\rlines") = .ok u ∧ u.render = .ok text ∧
        u.table.tableName = "two\rlines" := exists_render (by decide +kernel)
  obtain ⟨s, plans, t, hfrom⟩ := GeneratedUnit.exists_from hu
  refine ⟨u, text, hu, hrender, hfrom.ofText?_eq_none hrender ?_⟩
  rw [hfrom.hasBareReturn_iff] <;> rw [htable] <;> decide

end EntityTable.Table
