import EntityTable.Proofs.Table.Direct
import EntityTable.Proofs.Table.ImportPaths
import EntityTable.Proofs.Table.Members
import EntityTable.Proofs.Table.Templates
import EntityTable.Table.Rendering

/-! # Units that are rendered

The tokens of a unit form a file exactly if no key has for its type a sum that stands open, such as
`dyn Read + Send`: the methods that find an entity by a key take it by reference, and the type is
put behind the mark `&` as it is, without parentheses. Nothing else can go wrong, as long as the
expressions that fill the templates are read back, and those of a field that is converted directly
always are (`render_of_generate`). -/

namespace EntityTable.Table

open Source Source.Grammar
open Column (Plans Template)
open Entity (Description FieldDescription Schema StoredField describes_of_build
  exists_description_of_build)

/-! ### Items before the members -/

/-- The items before the implementation. -/
def GeneratedUnit.front (u : GeneratedUnit) : List Item :=
  u.imports.map Import.item ++ [u.table.structItem]

theorem GeneratedUnit.tokens_eq (u : GeneratedUnit) :
    u.tokens = Item.tokensOf u.front ++ u.table.implItem.tokens := by
  have hitems : u.items = u.front ++ [u.table.implItem] := by
    rw [front, List.append_assoc]
    rfl
  rw [tokens, hitems, Item.tokensOf_append _ [u.table.implItem], Item.tokensOf, Item.tokensOf,
    List.append_nil]

namespace GeneratedUnit.From

variable {u : GeneratedUnit} {d : Description} {s : Schema} {plans : Plans} {t : PlannedTable}
  (h : u.From d s plans t)
include h

/-- The imports are trees that are read from texts. -/
theorem exists_text {i : Import} (hi : i ∈ u.imports) : ∃ text, UseTree.ofText text = .ok i.tree := by
  have hpaths := PlannedTable.imports_eq_ok_iff.mp h.imports
  obtain ⟨text, -, htext⟩ := List.mem_map.mp (hpaths ▸ List.mem_map_of_mem hi)
  obtain ⟨tree, htree, rfl⟩ := Option.map_eq_some_iff.mp htext
  refine ⟨text, ?_⟩
  cases hread : UseTree.ofText text with
  | error e => rw [hread] at htree; cases htree
  | ok read => rw [hread] at htree; cases htree; rfl

theorem isName_name : IsName u.table.name := by
  have hname := (isNameText_of_identifier? (describes_of_build h.build).2.generated).isName
  rwa [String.ofList_toList, ← h.name] at hname

theorem isWord_entity : Lexer.IsWord u.table.entity.toList := by
  rw [h.entity]
  exact (isNameText_of_identifier? (describes_of_build h.build).2.origin).word

/-- The imports and the struct are items that are read back. -/
theorem printsItem_front : ∀ i ∈ u.front, Grammar.PrintsItem i := by
  intro i hi
  rcases List.mem_append.mp hi with hi | hi
  · obtain ⟨import', himport, rfl⟩ := List.mem_map.mp hi
    obtain ⟨text, htext⟩ := h.exists_text himport
    exact Grammar.printsItem_use (UseTree.isWritten_of_ofText htext)
  · cases List.mem_singleton.mp hi
    refine Grammar.printsItem_struct (fun a ha => ?_) true h.isName_name (by decide)
      (Grammar.isWritten_word (by decide))
    simp only [List.mem_cons, List.not_mem_nil, or_false] at ha
    rcases ha with rfl | rfl
    · exact Grammar.printsAttribute_doc _
    · exact Grammar.printsAttribute_listing (by decide) _

end GeneratedUnit.From

/-! ### Members -/

namespace TableObject

/-- The members before the operations. -/
def declarations (t : TableObject) : List Item :=
  textConstant [.docText "Table name."] true "TABLE_NAME" t.tableName ::
    (t.columns.map ColumnConstant.item ++
      [textConstant [.docText "Primary key column."] true "PRIMARY_KEY" t.primaryKey.column,
        newMethod, schemaMethod (t.statements.map Statement.text)])

theorem implItem_eq (t : TableObject) : t.implItem =
    .impl [] .inherited (.word t.name) (t.declarations ++ t.operations.map Operation.method) := rfl

theorem printsMember_declarations (t : TableObject) : ∀ i ∈ t.declarations, PrintsMember i := by
  have hcolumns : ∀ i ∈ t.columns.map ColumnConstant.item, PrintsMember i :=
    List.forall_mem_map.mpr fun c _ => c.printsMember
  have hlast : ∀ i ∈ [textConstant [.docText "Primary key column."] true "PRIMARY_KEY"
      t.primaryKey.column, newMethod, schemaMethod (t.statements.map Statement.text)],
      PrintsMember i :=
    List.forall_mem_cons.mpr ⟨printsMember_textConstant (printsAttributes_doc _) true (by decide) _,
      List.forall_mem_cons.mpr ⟨printsMember_new,
        List.forall_mem_singleton.mpr (printsMember_schema _)⟩⟩
  exact List.forall_mem_cons.mpr
    ⟨printsMember_textConstant (printsAttributes_doc _) true (by decide) _,
      List.forall_mem_append.mpr ⟨hcolumns, hlast⟩⟩

end TableObject

/-! ### Units -/

namespace GeneratedUnit.From

variable {u : GeneratedUnit} {d : Description} {s : Schema} {plans : Plans} {t : PlannedTable}
  (h : u.From d s plans t)

section
include h

/-- The types that methods take by reference are those of the keys. -/
theorem sharedTypes_eq : t.sharedTypes = (s.primaryKey :: s.lookups).map fun f => f.ty := by
  have hlookups : t.lookups.map (fun c => c.field.ty) = s.lookups.map fun f => f.ty :=
    h.map_filter fun _ _ => rfl
  rw [PlannedTable.sharedTypes, PlannedTable.keyTy, h.fits.schema, hlookups, List.map_cons]

theorem mem_storable_key {f : StoredField} (hf : f ∈ s.primaryKey :: s.lookups) : f ∈ s.storable := by
  rcases List.mem_cons.mp hf with rfl | hf
  · rw [← h.fits.key]
    exact h.mem_storable h.fits.mem_key
  · exact (List.mem_filter.mp hf).1

/-- **A table object has nothing but names where names are written.** -/
theorem isNamed (hwritten : ∀ f ∈ s.primaryKey :: s.lookups, f.ty.IsWritten) : t.IsNamed := by
  have hdescribes := (describes_of_build h.build).2
  have hname {text name : String} (hname : identifier? text = some name) : IsName name := by
    have hname := (isNameText_of_identifier? hname).isName
    rwa [String.ofList_toList] at hname
  have hcolumn {c : PlannedField} (hc : c ∈ t.columns) : IsName c.name := by
    obtain ⟨_, -, -, _, hgiven, hfield⟩ := h.exists_description (h.mem_storable hc)
    rw [PlannedField.name, hfield]
    exact hname hgiven
  refine ⟨?_, hcolumn h.fits.mem_key, fun c => hcolumn, fun name hmem => ?_,
    List.ne_nil_of_mem h.fits.mem_key, ?_⟩
  · rw [PlannedTable.entity, h.fits.schema]
    exact hname hdescribes.origin
  · rw [h.fits.schema] at hmem
    have hsome := List.mem_map_of_mem (f := some) hmem
    rw [← hdescribes.transient] at hsome
    obtain ⟨_, -, hgiven⟩ := List.mem_map.mp hsome
    exact hname hgiven
  · rw [h.sharedTypes_eq]
    exact List.forall_mem_map.mpr hwritten

theorem isMethod (hnamed : t.IsNamed) : ∀ i ∈ u.table.operations.map Operation.method,
    ∃ shared, t.IsMethod shared i ∧ ∀ ty ∈ shared, ty ∈ t.sharedTypes :=
  List.forall_mem_map.mpr fun _ ho => (h.makes ho).isMethod hnamed

/-- **A unit is rendered if no type stands open** behind a mark. -/
theorem exists_rendered_of_closed (hnamed : t.IsNamed) (hprint : t.FillingsPrint)
    (hclosed : ∀ ty ∈ t.sharedTypes, ty.isOpenSum = false) : ∃ text, u.render = .ok text := by
  have hmembers : ∀ i ∈ u.table.declarations ++ u.table.operations.map Operation.method,
      PrintsMember i := by
    refine List.forall_mem_append.mpr ⟨u.table.printsMember_declarations, fun i hi => ?_⟩
    obtain ⟨shared, hmethod, hshared⟩ := h.isMethod hnamed i hi
    exact hmethod.printsMember hprint fun ty hty => hclosed ty (hshared ty hty)
  have himpl : PrintsItem u.table.implItem := printsItem_impl h.isName_name hmembers
  have hfile := File.ofTokens_tokensOf
    (List.forall_mem_append.mpr ⟨h.printsItem_front, List.forall_mem_singleton.mpr himpl⟩)
  refine ⟨_, bind_eq_ok.mpr ⟨⟨u.front ++ [u.table.implItem]⟩, ?_, rfl⟩⟩
  rwa [Item.tokensOf_append, Item.tokensOf, Item.tokensOf, List.append_nil, ← u.tokens_eq] at hfile

/-- **No unit is rendered in which a type stands open** behind a mark. -/
theorem render_ne_ok (hnamed : t.IsNamed) {ty : Ty} (hty : ty ∈ t.sharedTypes)
    (hopen : ty.isOpenSum = true) (text : String) : u.render ≠ .ok text := by
  intro hrender
  obtain ⟨file, hfile, -⟩ := bind_eq_ok.mp hrender
  have hmembers : ∀ i ∈ u.table.declarations ++ u.table.operations.map Operation.method,
      LeavesMember i ∨ FailsMember i := by
    refine List.forall_mem_append.mpr
      ⟨fun i hi => .inl (u.table.printsMember_declarations i hi).leavesMember, fun i hi => ?_⟩
    obtain ⟨shared, hmethod, -⟩ := h.isMethod hnamed i hi
    exact hmethod.leavesMember_or_failsMember
  have hfails : ∃ i ∈ u.table.declarations ++ u.table.operations.map Operation.method,
      FailsMember i := by
    obtain ⟨o, ho, hmethod⟩ := PlannedTable.exists_isMethod hnamed h.operations hty
    exact ⟨o.method, List.mem_append_right _ (List.mem_map_of_mem ho), hmethod.failsMember hopen⟩
  rw [u.tokens_eq] at hfile
  refine File.ofTokens_ne_ok h.printsItem_front ?_ (fun n hn => ?_) file hfile
  · rw [u.table.implItem_eq, tokens_impl]
    exact List.cons_ne_nil _ _
  · rw [← List.append_nil u.table.implItem.tokens]
    exact fails_topItem_impl h.isName_name hmembers hfails ((Nat.le_add_right _ 6).trans hn) []

end

end GeneratedUnit.From

/-- Where all fields are converted directly, what fills their templates is read back. -/
theorem PlannedTable.Fits.fillingsPrint {d : Description} {s : Schema} {plans : Plans}
    {t : PlannedTable} (h : t.Fits s plans) (hs : Schema.build d = .ok s)
    (hplans : Plans.resolve s = .ok plans) (hdirect : ∀ f ∈ s.storable, f.IsDirect) :
    t.FillingsPrint := by
  intro g hg e he
  obtain ⟨c, hc, hcolumn⟩ := exists_column_of_mem_fillings h.mem_key hg
  have hf : c.field ∈ s.storable := h.fields ▸ List.mem_map_of_mem hc
  have hname : c.field.name = g.field := by rcases hcolumn with rfl | rfl | rfl <;> rfl
  obtain ⟨e', he', hprints⟩ := h.exists_reads hs hplans hg hf hname (hdirect _ hf)
  cases he.symm.trans he'
  exact hprints

/-- A unit is rendered if its fields are converted directly and no type of a key stands open. -/
theorem GeneratedUnit.From.exists_rendered_of_isDirect {u : GeneratedUnit} {d : Description}
    {s : Schema} {plans : Plans} {t : PlannedTable} (h : u.From d s plans t)
    (hdirect : ∀ f ∈ s.storable, f.IsDirect)
    (hkeys : ∀ f ∈ s.primaryKey :: s.lookups, f.ty.IsWritten ∧ f.ty.isOpenSum = false) :
    ∃ text, u.render = .ok text := by
  refine h.exists_rendered_of_closed (h.isNamed fun f hf => (hkeys f hf).1)
    (h.fits.fillingsPrint h.build h.resolve hdirect) ?_
  rw [h.sharedTypes_eq]
  exact List.forall_mem_map.mpr fun f hf => (hkeys f hf).2

/-- **When a generated unit is rendered**: exactly if the type of no key is a sum that stands open. -/
theorem render_of_generate {d : Description} {u : GeneratedUnit} {s : Schema} {plans : Plans}
    {t : PlannedTable} (hu : generate d = .ok u) (hs : Schema.build d = .ok s)
    (hplans : Plans.resolve s = .ok plans) (ht : PlannedTable.ofPlans s plans = .ok t)
    (hwritten : ∀ f ∈ s.primaryKey :: s.lookups, f.ty.IsWritten) :
    (t.FillingsPrint → (∀ f ∈ s.primaryKey :: s.lookups, f.ty.isOpenSum = false) →
      ∃ text, u.render = .ok text) ∧
    (∀ f ∈ s.primaryKey :: s.lookups, f.ty.isOpenSum = true → ∀ text, u.render ≠ .ok text) ∧
    ((∀ f ∈ s.storable, f.IsDirect) → t.FillingsPrint) := by
  obtain ⟨s', plans', t', hfrom⟩ := GeneratedUnit.exists_from hu
  cases hs.symm.trans hfrom.build
  cases hplans.symm.trans hfrom.resolve
  cases ht.symm.trans hfrom.planned
  have hnamed := hfrom.isNamed hwritten
  refine ⟨fun hprint hclosed => ?_, fun f hf hopen => ?_, hfrom.fits.fillingsPrint hs hplans⟩
  · refine hfrom.exists_rendered_of_closed hnamed hprint ?_
    rw [hfrom.sharedTypes_eq]
    exact List.forall_mem_map.mpr hclosed
  · refine hfrom.render_ne_ok hnamed ?_ hopen
    rw [hfrom.sharedTypes_eq]
    exact List.mem_map_of_mem hf

/-! ### Fixed types of keys -/

theorem exists_generate_timed : ∃ u, generate timed = .ok u :=
  exists_generate_of_isPlanned (by decide +kernel) fun _ => isDirect_timed

theorem render_of_generate_timed : ∃ u text, generate timed = .ok u ∧ u.render = .ok text := by
  obtain ⟨u, hu⟩ := exists_generate_timed
  obtain ⟨s, plans, t, hfrom⟩ := GeneratedUnit.exists_from hu
  have hkeys : ∀ f ∈ s.primaryKey :: s.lookups, f.ty.IsWritten ∧ f.ty.isOpenSum = false := by
    intro f hf
    obtain ⟨given, hgiven, -, name, -, rfl⟩ := hfrom.exists_description (hfrom.mem_storable_key hf)
    simp only [timed, List.mem_cons, List.not_mem_nil, or_false] at hgiven
    rcases hgiven with rfl | rfl
    · exact ⟨isWritten_word (by decide), rfl⟩
    · exact ⟨isWritten_option (isWritten_word (by decide)), rfl⟩
  obtain ⟨hrendered, -, hprint⟩ := render_of_generate hu hfrom.build hfrom.resolve hfrom.planned
    fun f hf => (hkeys f hf).1
  obtain ⟨text, hrender⟩ := hrendered (hprint (isDirect_timed hfrom.build)) fun f hf => (hkeys f hf).2
  exact ⟨u, text, hu, hrender⟩

/-- The type `dyn Token + Send`. -/
def openToken : Ty :=
  .traitObject true [.trait false false none (.word "Token"), .trait false false none (.word "Send")]
    false

/-- An entity that is looked up by a sum of bounds, which is stored as a text. -/
def openLookup : Description where
  name := "Session"
  home := none
  className := none
  table := none
  hideColumns := false
  fields := [(FieldDescription.plain "uuid" (.word "Uuid")).asPrimaryKey,
    (FieldDescription.plain "token" openToken).asLookupKey.mappedBy
      ⟨.word "String", none, some "\x7b\x7d.to_text()", some "token_of(\x7b\x7d)", []⟩]

theorem isDirect_openLookup {s : Schema} (hs : Schema.build openLookup = .ok s) :
    ∀ f ∈ s.storable, f.IsDirect := by
  have htext : IsNameText "to_text".toList := .of_isPlainName (by decide)
  have htoken : IsNameText "token_of".toList := .of_isPlainName (by decide)
  intro f hf
  obtain ⟨given, hgiven, -, name, -, rfl⟩ := exists_description_of_build hs hf
  simp only [openLookup, List.mem_cons, List.not_mem_nil, or_false] at hgiven
  rcases hgiven with rfl | rfl
  · exact fun _ => isNamed_word (.of_isPlainName (by decide))
  · refine ⟨fun text htext => ?_, fun text htext => ?_, fun _ _ _ _ => ?_⟩
    · cases htext
      refine Template.isDirect_of_ofText ⟨"", ".to_text()"⟩ (by decide +kernel) fun hole => ?_
      exact (Phrase.hole.operand.method htext .noArgs).operand.term.expr
    · cases htext
      refine Template.isDirect_of_ofText ⟨"token_of(", ")"⟩ (by decide +kernel) fun hole => ?_
      have hcall : Phrase hole .expr _ :=
        (Phrase.call htoken.path (.lastArg Phrase.hole.operand.term.expr)).operand.term.expr
      rw [Template.textWith, List.append_assoc]
      exact hcall
    · exact isNamed_word (.of_isPlainName (by decide))

theorem exists_generate_openLookup : ∃ u, generate openLookup = .ok u :=
  exists_generate_of_isPlanned (by decide +kernel) fun _ => isDirect_openLookup

theorem isWritten_openToken : openToken.IsWritten := by
  refine .dynTrait (fun b hb => ?_) rfl
  simp only [List.mem_cons, List.not_mem_nil, or_false] at hb
  have hpath {w : String} (hw : IsName w) : (Path.word w).IsWritten :=
    .mk (List.cons_ne_nil _ _) (List.forall_mem_singleton.mpr (.plain (Or.inl hw)))
  rcases hb with rfl | rfl <;> exact .trait false false nofun (hpath (by decide))

theorem render_openLookup : ∃ u, generate openLookup = .ok u ∧ ∀ text, u.render ≠ .ok text := by
  obtain ⟨u, hu⟩ := exists_generate_openLookup
  obtain ⟨s, plans, t, hfrom⟩ := GeneratedUnit.exists_from hu
  have htypes : ∀ f ∈ s.storable, f.ty.IsWritten := by
    intro f hf
    obtain ⟨given, hgiven, -, name, -, rfl⟩ := hfrom.exists_description hf
    simp only [openLookup, List.mem_cons, List.not_mem_nil, or_false] at hgiven
    rcases hgiven with rfl | rfl
    · exact isWritten_word (by decide)
    · exact isWritten_openToken
  have hopen : openToken ∈ t.sharedTypes := by
    have hlookups : (Schema.build openLookup).toOption.map (fun s => s.lookups.map fun f => f.ty) =
        some [openToken] := rfl
    rw [hfrom.build] at hlookups
    have htypes : s.lookups.map (fun f => f.ty) = [openToken] := Option.some.inj hlookups
    rw [hfrom.sharedTypes_eq, List.map_cons, htypes]
    exact List.mem_cons_of_mem _ List.mem_cons_self
  exact ⟨u, hu, hfrom.render_ne_ok
    (hfrom.isNamed fun f hf => htypes f (hfrom.mem_storable_key hf)) hopen rfl⟩

end EntityTable.Table
