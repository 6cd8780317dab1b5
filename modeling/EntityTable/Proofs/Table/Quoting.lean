import EntityTable.Proofs.Table.Binding
import EntityTable.Proofs.Table.Names

/-! # Names stay inside their quotes

The statements of a unit are read as their shapes with the names in their places, whatever the table
is called: no name ends a quoted identifier early. The shapes themselves do not depend on the name
of the table, so a description with another table gives the same statements about that table
(`withTable`). -/

namespace EntityTable.Table

open Sql
open Column (Plans)
open Entity (Description Schema StoredField article build_withTable describes_of_build
  entityRules_of_build storable_eq_of_build storedOf)

namespace GeneratedUnit

/-- All statements: those that prepare the table and those that operations run. -/
def statements (u : GeneratedUnit) : List Statement :=
  u.table.statements ++ u.table.operations.filterMap fun o => o.query.map Query.statement

/-- The SQL texts of the unit. -/
def sqlTexts (u : GeneratedUnit) : List String :=
  u.table.statements.map Statement.text ++ u.table.operations.filterMap Operation.sql?

/-- The shapes of all statements. -/
def shapes (u : GeneratedUnit) : List (List (Lexeme NamePlace)) :=
  u.statements.map Statement.shape

theorem sqlTexts_eq (u : GeneratedUnit) : u.sqlTexts = u.statements.map Statement.text := by
  have hsql : (fun o : Operation => (o.query.map Query.statement).map Statement.text) =
      Operation.sql? := by
    funext o
    rw [Option.map_map]
    rfl
  rw [sqlTexts, statements, List.map_append, List.map_filterMap, hsql]

end GeneratedUnit

namespace PlannedTable

/-- All statements of the table object. -/
def statements (t : PlannedTable) : List Statement :=
  t.schemaStatements ++ t.kinds.filterMap t.statement?

variable {t : PlannedTable} {s : Schema} {plans : Plans}

theorem filterMap_statement {os : List Operation}
    (h : ∀ o ∈ os, (o.kind = .save ∨ o.kind = .transform) ∧ o.query = none ∨ ∃ q, t.Runs o q) :
    os.filterMap (fun o => o.query.map Query.statement) =
      (os.map Operation.kind).filterMap t.statement? := by
  rw [List.filterMap_map]
  refine List.filterMap_congr fun o ho => ?_
  rcases h o ho with ⟨hkind | hkind, hnone⟩ | ⟨q, hq⟩
  · simp [hkind, hnone, statement?]
  · simp [hkind, hnone, statement?]
  · simp [hq.query, hq.statement]

theorem mem_schemaStatements {st : Statement} (h : st ∈ t.schemaStatements) :
    st = .createTable t.tableName (t.columns.map PlannedField.definition) t.keyColumn ∨
    (∃ c ∈ t.columns, st = .addColumn t.tableName c.definition) ∨
    ∃ c ∈ t.columns,
      st = .createIndex (indexName t.tableName c.plan.column) t.tableName c.plan.column := by
  rcases List.mem_append.mp h with h | h
  · rcases List.mem_cons.mp h with h | h
    · exact Or.inl h
    · obtain ⟨c, hc, rfl⟩ := List.mem_map.mp h
      exact Or.inr (Or.inl ⟨c, hc, rfl⟩)
  · obtain ⟨c, hc, rfl⟩ := List.mem_map.mp h
    exact Or.inr (Or.inr ⟨c, (List.mem_filter.mp hc).1, rfl⟩)

/-- All statements are on the table. -/
theorem isOn_of_mem {st : Statement} (h : st ∈ t.statements) : st.IsOn t.tableName := by
  rcases List.mem_append.mp h with h | h
  · rcases mem_schemaStatements h with rfl | ⟨c, -, rfl⟩ | ⟨c, -, rfl⟩
    · rfl
    · rfl
    · exact ⟨rfl, rfl⟩
  · obtain ⟨kind, -, hkind⟩ := List.mem_filterMap.mp h
    exact (isOn_statement? hkind).1

theorem mem_columnNames {c : PlannedField} (hc : c ∈ t.columns) : c.plan.column ∈ t.columnNames :=
  List.mem_map_of_mem hc

theorem mentions_of_kind (hfits : t.Fits s plans) {kind : OperationKind} (hmem : kind ∈ t.kinds)
    {st : Statement} (h : t.statement? kind = some st) : st.Mentions t.columnNames := by
  have hkey : t.keyColumn ∈ t.columnNames := mem_columnNames hfits.mem_key
  cases kind with
  | save => cases h
  | transform => cases h
  | create =>
    cases h
    refine ⟨fun column hcolumn => ?_, fun _ hc => hc⟩
    obtain ⟨c, hc, rfl⟩ := List.mem_map.mp hcolumn
    exact mem_columnNames (List.mem_filter.mp hc).1
  | update => cases h; exact ⟨fun _ hc => hc, hkey⟩
  | delete => cases h; exact hkey
  | get => cases h; exact ⟨fun _ hc => hc, fun column hcolumn => by cases hcolumn; exact hkey⟩
  | getAll => cases h; exact ⟨fun _ hc => hc, fun column hcolumn => by cases hcolumn⟩
  | getBy field =>
    cases h
    refine ⟨fun _ hc => hc, fun column hcolumn => ?_⟩
    cases hcolumn
    have hlookup : OperationKind.getBy field ∈ t.lookups.map fun c => .getBy c.name := by
      simpa [kinds] using hmem
    obtain ⟨c, hc, hfield⟩ := List.mem_map.mp hlookup
    cases hfield
    have hc : c ∈ t.columns := (List.mem_filter.mp hc).1
    rw [← hfits.column hc]
    exact mem_columnNames hc

/-- All statements are made with the columns of the table. -/
theorem mentions_of_mem (hfits : t.Fits s plans) {st : Statement} (h : st ∈ t.statements) :
    st.Mentions t.columnNames := by
  rcases List.mem_append.mp h with h | h
  · rcases mem_schemaStatements h with rfl | ⟨c, hc, rfl⟩ | ⟨c, hc, rfl⟩
    · refine ⟨fun definition hdefinition => ?_, mem_columnNames hfits.mem_key⟩
      obtain ⟨c, hc, rfl⟩ := List.mem_map.mp hdefinition
      exact mem_columnNames hc
    · exact mem_columnNames hc
    · exact mem_columnNames hc
  · obtain ⟨kind, hmem, hkind⟩ := List.mem_filterMap.mp h
    exact mentions_of_kind hfits hmem hkind

/-- **The statements of a unit** are those of its planned table. -/
theorem statements_of_synthesize {d : Description} {u : GeneratedUnit}
    (hs : Schema.build d = .ok s) (hu : GeneratedUnit.synthesize s plans = .ok u) :
    ∃ t, ofPlans s plans = .ok t ∧ t.Fits s plans ∧ u.table.tableName = s.tableName ∧
      u.statements = t.statements := by
  obtain ⟨t, ht, hfits, hos, htable, hstatements⟩ := planned_of_synthesize hs hu
  obtain ⟨hkinds, hruns⟩ := operations_run hfits hos
  refine ⟨t, ht, hfits, htable, ?_⟩
  rw [GeneratedUnit.statements, filterMap_statement hruns, hkinds, hstatements]
  rfl

/-! ### Another table -/

/-- The table object on another table. -/
def withTable (t : PlannedTable) (table : String) : PlannedTable :=
  { t with schema := { t.schema with tableName := table } }

/-- The shapes of the statements do not depend on the table. -/
theorem shapes_withTable (t : PlannedTable) (table : String) :
    (t.withTable table).statements.map Statement.shape = t.statements.map Statement.shape := by
  have hkind (kind : OperationKind) : ((t.withTable table).statement? kind).map Statement.shape =
      (t.statement? kind).map Statement.shape := by
    cases kind with
    | create =>
      change some (Statement.shape (.insert table (t.inserted.map fun c => c.plan.column) _)) =
        some (Statement.shape (.insert t.tableName (t.inserted.map fun c => c.plan.column) _))
      cases t.inserted.map fun c => c.plan.column <;> rfl
    | _ => rfl
  have hschema : (t.withTable table).schemaStatements.map Statement.shape =
      t.schemaStatements.map Statement.shape := by
    simp only [schemaStatements, List.map_append, List.map_cons, List.map_map]
    rfl
  rw [statements, statements, List.map_append, List.map_append, hschema, List.map_filterMap,
    List.map_filterMap]
  simp only [hkind]
  rfl

theorem ofPlans_withTable (h : ofPlans s plans = .ok t) (table : String) :
    ofPlans { s with tableName := table } plans = .ok (t.withTable table) := by
  obtain ⟨columns, hcolumns, h⟩ := bind_eq_ok.mp h
  refine bind_eq_ok.mpr ⟨columns, hcolumns, ?_⟩
  cases hkey : columns.find? fun c => c.name == s.primaryKey.name with
  | none => rw [hkey] at h; cases h
  | some key =>
    rw [hkey] at h
    cases h
    rfl

theorem byKey_withTable (table : String) (st st' : Statement) {q : Query} (h : t.byKey st = .ok q) :
    ∃ q', (t.withTable table).byKey st' = .ok q' := by
  obtain ⟨key, hkey, -⟩ := bind_eq_ok.mp h
  exact ⟨_, bind_eq_ok.mpr ⟨key, hkey, rfl⟩⟩

theorem mapM_getBy_withTable (table : String) : ∀ {columns : List PlannedField}
    {os : List Operation}, columns.mapM t.getBy = .ok os →
    ∃ os', columns.mapM (t.withTable table).getBy = .ok os'
  | [], _, _ => ⟨[], rfl⟩
  | c :: columns, os, h => by
    rw [List.mapM_cons] at h ⊢
    obtain ⟨o, ho, h⟩ := bind_eq_ok.mp h
    obtain ⟨rest, hrest, -⟩ := bind_eq_ok.mp h
    obtain ⟨key, hkey, -⟩ := bind_eq_ok.mp ho
    obtain ⟨rest', hrest'⟩ := mapM_getBy_withTable table hrest
    exact ⟨_, bind_eq_ok.mpr ⟨_, bind_eq_ok.mpr ⟨key, hkey, rfl⟩,
      bind_eq_ok.mpr ⟨rest', hrest', rfl⟩⟩⟩

/-- **Operations on another table are made as well**: the expressions do not depend on it. -/
theorem operations_withTable (table : String) {os : List Operation} (h : t.operations = .ok os) :
    ∃ os', (t.withTable table).operations = .ok os' := by
  obtain ⟨create, hcreate, h⟩ := bind_eq_ok.mp h
  obtain ⟨update, hupdate, h⟩ := bind_eq_ok.mp h
  obtain ⟨delete, hdelete, h⟩ := bind_eq_ok.mp h
  obtain ⟨get, hget, h⟩ := bind_eq_ok.mp h
  obtain ⟨lookups, hlookups, h⟩ := bind_eq_ok.mp h
  obtain ⟨transform, htransform, -⟩ := bind_eq_ok.mp h
  -- an operation fails only if one of its expressions does, and these are the same on both tables
  have hcreate : ∃ o, (t.withTable table).create = .ok o := by
    obtain ⟨q, hq, -⟩ := bind_eq_ok.mp hcreate
    obtain ⟨binds, hbinds, -⟩ := bind_eq_ok.mp hq
    exact ⟨_, bind_eq_ok.mpr ⟨_, bind_eq_ok.mpr ⟨binds, hbinds, rfl⟩, rfl⟩⟩
  have hupdate : ∃ o, (t.withTable table).update = .ok o := by
    obtain ⟨q, hq, -⟩ := bind_eq_ok.mp hupdate
    obtain ⟨binds, hbinds, hq⟩ := bind_eq_ok.mp hq
    obtain ⟨key, hkey, -⟩ := bind_eq_ok.mp hq
    exact ⟨_, bind_eq_ok.mpr ⟨_, bind_eq_ok.mpr ⟨binds, hbinds,
      bind_eq_ok.mpr ⟨key, hkey, rfl⟩⟩, rfl⟩⟩
  have hdelete : ∃ o, (t.withTable table).delete = .ok o := by
    obtain ⟨q, hq, -⟩ := bind_eq_ok.mp hdelete
    obtain ⟨q', hq'⟩ := byKey_withTable table _ _ hq
    exact ⟨_, bind_eq_ok.mpr ⟨q', hq', rfl⟩⟩
  have hget : ∃ o, (t.withTable table).get = .ok o := by
    obtain ⟨q, hq, -⟩ := bind_eq_ok.mp hget
    obtain ⟨q', hq'⟩ := byKey_withTable table _ _ hq
    exact ⟨_, bind_eq_ok.mpr ⟨q', hq', rfl⟩⟩
  obtain ⟨_, hcreate⟩ := hcreate
  obtain ⟨_, hupdate⟩ := hupdate
  obtain ⟨_, hdelete⟩ := hdelete
  obtain ⟨_, hget⟩ := hget
  obtain ⟨_, hlookups⟩ := mapM_getBy_withTable table hlookups
  exact ⟨_, bind_eq_ok.mpr ⟨_, hcreate, bind_eq_ok.mpr ⟨_, hupdate, bind_eq_ok.mpr ⟨_, hdelete,
    bind_eq_ok.mpr ⟨_, hget, bind_eq_ok.mpr ⟨_, hlookups, bind_eq_ok.mpr ⟨_, htransform, rfl⟩⟩⟩⟩⟩⟩⟩

theorem synthesize_withTable (table : String) {u : GeneratedUnit}
    (h : GeneratedUnit.synthesize s plans = .ok u) :
    ∃ u', GeneratedUnit.synthesize { s with tableName := table } plans = .ok u' := by
  obtain ⟨t, ht, h⟩ := bind_eq_ok.mp h
  obtain ⟨object, hobject, h⟩ := bind_eq_ok.mp h
  obtain ⟨imports, himports, -⟩ := bind_eq_ok.mp h
  obtain ⟨os, hos, -⟩ := bind_eq_ok.mp hobject
  obtain ⟨os', hos'⟩ := operations_withTable table hos
  exact ⟨_, bind_eq_ok.mpr ⟨_, ofPlans_withTable ht table, bind_eq_ok.mpr ⟨_,
    bind_eq_ok.mpr ⟨os', hos', rfl⟩, bind_eq_ok.mpr ⟨imports, himports, rfl⟩⟩⟩⟩

end PlannedTable

/-! ### Units -/

namespace GeneratedUnit

variable {d : Description} {u : GeneratedUnit}

/-- A unit has the statements of a planned table, whose columns are the stored fields. -/
theorem statements_of_generate (h : generate d = .ok u) : ∃ s plans t, Schema.build d = .ok s ∧
    Plans.resolve s = .ok plans ∧ PlannedTable.ofPlans s plans = .ok t ∧ t.Fits s plans ∧
    u.table.tableName = t.tableName ∧ u.statements = t.statements := by
  obtain ⟨s, plans, hs, hplans, hu⟩ := stages_of_generate h
  obtain ⟨t, ht, hfits, htable, hstatements⟩ := PlannedTable.statements_of_synthesize hs hu
  have htable : u.table.tableName = t.tableName := by
    rw [htable, ← hfits.schema]
    rfl
  exact ⟨s, plans, t, hs, hplans, ht, hfits, htable, hstatements⟩

theorem shapes_of_other_table (h : generate d = .ok u) {table : Option String}
    {u' : GeneratedUnit} (h' : generate { d with table } = .ok u') : u'.shapes = u.shapes := by
  obtain ⟨s, plans, t, hs, hplans, ht, -, -, hstatements⟩ := statements_of_generate h
  obtain ⟨s', plans', t', hs', hplans', ht', -, -, hstatements'⟩ := statements_of_generate h'
  have hsame := build_withTable hs (entityRules_of_build hs').table
  cases hs'.symm.trans hsame
  cases hplans.symm.trans hplans'
  cases ht'.symm.trans (PlannedTable.ofPlans_withTable ht _)
  rw [shapes, shapes, hstatements', hstatements, PlannedTable.shapes_withTable]

theorem generate_other_table (h : generate d = .ok u) {table : String}
    (htable : Text.isBlankText table = false) :
    ∃ u', generate { d with table := some table } = .ok u' := by
  obtain ⟨s, plans, hs, hplans, hu⟩ := stages_of_generate h
  have hs' : Schema.build { d with table := some table } = .ok { s with tableName := table } :=
    build_withTable hs fun name hname => by
      cases hname
      exact htable
  obtain ⟨u', hu'⟩ := PlannedTable.synthesize_withTable table hu
  exact ⟨u', bind_eq_ok.mpr ⟨_, mapError_eq_ok.mpr hs',
    bind_eq_ok.mpr ⟨plans, mapError_eq_ok.mpr hplans, mapError_eq_ok.mpr hu'⟩⟩⟩

/-- **No name ends a quoted identifier early.** -/
theorem lexemes_sqlTexts (h : generate d = .ok u) :
    (∀ table, d.table = some table → u.table.tableName = table) ∧
    u.sqlTexts.map lexemes =
      u.shapes.map (fun shape => some (onTable u.table.tableName shape)) ∧
    (∀ shape ∈ u.shapes, NamesIn ((storedOf d.fields).map StoredField.name) shape) ∧
    (∀ table u', generate { d with table } = .ok u' → u'.shapes = u.shapes) ∧
    ∀ table, Text.isBlankText table = false →
      ∃ u', generate { d with table := some table } = .ok u' := by
  obtain ⟨s, plans, t, hs, -, -, hfits, htable, hstatements⟩ := statements_of_generate h
  refine ⟨fun table hd => ?_, ?_, fun shape hshape => ?_, fun _ _ h' => shapes_of_other_table h h',
    fun _ ht => generate_other_table h ht⟩
  · rw [htable, PlannedTable.tableName, hfits.schema, (describes_of_build hs).2.tableName, hd]
    rfl
  · rw [sqlTexts_eq, shapes, hstatements, htable, List.map_map, List.map_map]
    exact List.map_congr_left fun st hst => st.reads_text (PlannedTable.isOn_of_mem hst)
  · obtain ⟨st, hst, rfl⟩ := List.mem_map.mp hshape
    have hnames : t.columnNames = (storedOf d.fields).map StoredField.name := by
      rw [hfits.columnNames, ← (storable_eq_of_build hs).1, ← hfits.fields, List.map_map]
      rfl
    rw [← hnames]
    exact Statement.namesIn_shape (PlannedTable.mentions_of_mem hfits (hstatements ▸ hst))

/-- The article in a table whose name holds quotes, a semicolon and a line break. -/
def quotedArticle : Description := { article with table := some "a\x22; DROP\n\x22\x22 b" }

theorem lexemes_sqlTexts_quotedArticle : ∃ u, generate quotedArticle = .ok u ∧
    u.table.tableName = "a\x22; DROP\n\x22\x22 b" ∧
    u.sqlTexts.map lexemes =
      u.shapes.map fun shape => some (onTable "a\x22; DROP\n\x22\x22 b" shape) := by
  obtain ⟨_, harticle⟩ := exists_generate_article
  obtain ⟨u, hu⟩ : ∃ u, generate quotedArticle = .ok u :=
    generate_other_table harticle (by decide)
  obtain ⟨htable, htexts, -⟩ := lexemes_sqlTexts hu
  rw [htable _ rfl] at htexts
  exact ⟨u, hu, htable _ rfl, htexts⟩

end GeneratedUnit

end EntityTable.Table
