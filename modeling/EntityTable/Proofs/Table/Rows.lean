import EntityTable.Proofs.Table.ColumnLists
import EntityTable.Proofs.Table.Conversions
import EntityTable.Proofs.Table.ItemNames
import Mathlib.Data.List.Forall2

/-! # One table

The statements that prepare the table, the column constants, the operations and the function that
reads rows are made one by one from the planned columns. Here they are compared with each other: the
constants hold the definitions that the table is created with and that are added one by one
(`statements_eq`), an index belongs to each lookup, and the statements whose rows are read return
the columns that are read, in their order (`rows_eq`). Main statement: `rows_of_generate`. -/

namespace EntityTable.Table

open Source Sql
open Column (Plan Plans Storage)
open Entity (Description Schema StoredField storable_eq_of_build)

/-! ### Definitions -/

/-- The definition of a stored field's column: only a key that the database assigns is an identity,
and only a field that is no `Option` must be there. -/
def definitionOf (f : StoredField) (storage : Storage) : String :=
  quoteName f.name ++ " " ++ storage.sql ++
    (if f.isAutoIncrement then " GENERATED BY DEFAULT AS IDENTITY" else "") ++
    (if f.ty.optionItem? = none then " NOT NULL" else "")

/-- The field that an operation looks entities up by. -/
def OperationKind.lookupField? : OperationKind → Option String
  | getBy field => some field
  | _ => none

namespace TableObject

/-- The text that creates the table from the definitions in the column constants. -/
def creation (t : TableObject) : String :=
  "CREATE TABLE IF NOT EXISTS " ++ quoteName t.tableName ++ " (" ++
    commaSeparated (t.columns.map ColumnConstant.definition ++
      ["PRIMARY KEY (" ++ quoteName t.primaryKey.column ++ ")"]) ++ ")"

/-- The text that adds the column of a constant. -/
def addition (t : TableObject) (c : ColumnConstant) : String :=
  "ALTER TABLE " ++ quoteName t.tableName ++ " ADD COLUMN IF NOT EXISTS " ++ c.definition

/-- The text that creates the index on a field's column. -/
def indexing (t : TableObject) (field : String) : String :=
  "CREATE INDEX IF NOT EXISTS " ++ quoteName (indexName t.tableName field) ++ " ON " ++
    quoteName t.tableName ++ " (" ++ quoteName field ++ ")"

/-- The fields that entities are looked up by, in the order of the operations. -/
def lookupFields (t : TableObject) : List String :=
  t.operations.filterMap fun o => o.kind.lookupField?

end TableObject

/-! ### Rows that are read -/

/-- What an expression gives is passed to `Self::transform`. -/
def mapsTransform : Expr → Bool
  | .question base => mapsTransform base
  | .await base => mapsTransform base
  | .methodCall _ (.plain "map")
      [.path (.plain (.mk false [.plain "Self", .plain "transform"]))] _ => true
  | .methodCall receiver _ _ _ => mapsTransform receiver
  | _ => false

/-- A statement of the body passes rows to `Self::transform`. -/
def stmtReadsRows : Stmt → Bool
  | .binding _ _ _ (some value) _ => mapsTransform value
  | .expr value _ => mapsTransform value
  | _ => false

/-- The method passes rows to `Self::transform`. -/
def readsRows : Item → Bool
  | .fn _ _ _ body => body.any stmtReadsRows
  | _ => false

/-- The statement of the operation returns rows. -/
def OperationKind.returnsRows : OperationKind → Bool
  | create | get | getAll | getBy _ => true
  | _ => false

theorem mapsTransform_bound (values : List Expr) : ∀ e : Expr, mapsTransform e = false →
    mapsTransform (values.foldl (fun e value => e.method "bind" [value]) e) = false := by
  induction values with
  | nil => exact fun _ h => h
  | cons value values ih => exact fun e h => ih _ h

/-- A query that is only run passes no rows on. -/
theorem mapsTransform_execute (q : Query) : mapsTransform (q.run "execute") = false :=
  mapsTransform_bound q.binds _ rfl

/-- **A method reads rows exactly if its statement returns rows.** -/
theorem PlannedTable.Makes.readsRows_method {t : PlannedTable} {o : Operation} (h : t.Makes o) :
    readsRows o.method = o.kind.returnsRows := by
  have hreads {body : List Stmt} {stmt : Stmt} (hmem : stmt ∈ body)
      (hstmt : stmtReadsRows stmt = true) : body.any stmtReadsRows = true :=
    List.any_eq_true.mpr ⟨stmt, hmem, hstmt⟩
  have hexecutes {q : Query} {value : Expr} (hvalue : mapsTransform value = false) :
      [beginStmt, .run (q.run "execute"), commitStmt, .yields value].any stmtReadsRows = false := by
    have hrun : stmtReadsRows (.run (q.run "execute")) = false := mapsTransform_execute q
    have hyields : stmtReadsRows (.yields value) = false := hvalue
    have hbegin : stmtReadsRows beginStmt = false := rfl
    have hcommit : stmtReadsRows commitStmt = false := rfl
    simp [hrun, hyields, hbegin, hcommit]
  cases h with
  | save => rfl
  | create h | get h =>
    obtain ⟨q, -, h⟩ := bind_eq_ok.mp h
    cases h
    exact hreads (.tail _ (.tail _ (.tail _ (.head _)))) rfl
  | update h | delete h =>
    obtain ⟨q, -, h⟩ := bind_eq_ok.mp h
    cases h
    exact hexecutes rfl
  | getAll => exact hreads (.tail _ (.tail _ (.tail _ (.head _)))) rfl
  | getBy _ h =>
    obtain ⟨key, -, h⟩ := bind_eq_ok.mp h
    cases h
    exact hreads (List.mem_append_right _ (.tail _ (.tail _ (.tail _ (.head _))))) rfl
  | transform h =>
    obtain ⟨values, -, h⟩ := bind_eq_ok.mp h
    cases h
    rfl

/-- A statement that returns rows returns all columns. -/
theorem PlannedTable.results_statement? (t : PlannedTable) {kind : OperationKind}
    (h : kind.returnsRows = true) :
    ∃ st, t.statement? kind = some st ∧ st.results = t.columnNames := by
  cases kind with
  | create | get | getAll | getBy _ => exact ⟨_, rfl, rfl⟩
  | save | update | delete | transform => cases h

/-- **The method runs its statements**, one after the other and without parameters. -/
theorem itemQueries_schemaMethod (texts : List String) :
    itemQueries (schemaMethod texts) = texts.map fun text => (Literal.quote text, []) := by
  have hrun (text : String) : stmtQuery? (.run (executed (prepared text) "execute")) =
      some (Literal.quote text, []) := query?_executed (prepared text) (by decide)
  have hbody : itemQueries (schemaMethod texts) =
      ([beginStmt] ++ texts.map (fun text => Stmt.run (executed (prepared text) "execute")) ++
        [commitStmt, .yields (.apply (.word "Ok") [.tuple [] false])]).filterMap stmtQuery? := rfl
  have htexts : (texts.map fun text => Stmt.run (executed (prepared text) "execute")).filterMap
      stmtQuery? = texts.map fun text => (Literal.quote text, []) := by
    rw [List.filterMap_map, ← List.filterMap_eq_map]
    exact List.filterMap_congr fun text _ => hrun text
  rw [hbody, List.filterMap_append, List.filterMap_append, htexts]
  exact List.append_nil _

/-- The method that prepares the table runs the statements of the table. -/
theorem TableObject.exists_schemaMethod (t : TableObject) : ∃ method ∈ members t.implItem,
    itemName? method = some "create_schema" ∧
      itemQueries method = t.statements.map fun st => (Literal.quote st.text, []) := by
  refine ⟨schemaMethod (t.statements.map Statement.text), ?_, rfl, ?_⟩
  · exact List.mem_append_left _ (List.mem_append_right _ (.tail _ (.tail _ (.head _))))
  · rw [itemQueries_schemaMethod, List.map_map]
    rfl

/-! ### The table of a unit -/

namespace GeneratedUnit.From

variable {u : GeneratedUnit} {d : Description} {s : Schema} {plans : Plans} {t : PlannedTable}
  (h : u.From d s plans t)
include h

theorem isNullable_eq {f : StoredField} (hf : f ∈ s.storable) :
    f.isNullable = f.ty.optionItem?.isSome := by
  obtain ⟨given, -, -, name, -, rfl⟩ := h.exists_description hf
  rfl

theorem text_definition {c : PlannedField} (hc : c ∈ t.columns) :
    c.definition.text = definitionOf c.field c.plan.storage := by
  have hrequired : (!c.plan.isNullable) = true ↔ c.field.ty.optionItem? = none := by
    rw [(h.planOf hc).isNullable_eq, h.isNullable_eq (h.mem_storable hc), Bool.not_eq_true',
      Option.isSome_eq_false_iff, Option.isNone_iff_eq_none]
  have hidentity : c.plan.has .autoIncrement = c.field.isAutoIncrement :=
    (h.planOf hc).has_eq .autoIncrement
  rw [definitionOf, ← (h.planOf hc).column, ← hidentity, ← if_congr hrequired rfl rfl]
  rfl

theorem forall₂_columns : List.Forall₂
    (fun f c => c.field = f.name ∧ c.definition = definitionOf f c.storage)
    s.storable u.table.columns := by
  rw [← h.fits.fields, h.columns, List.forall₂_map_left_iff, List.forall₂_map_right_iff,
    List.forall₂_same]
  exact fun c hc => ⟨rfl, h.text_definition hc⟩

theorem lookupFields_eq : u.table.lookupFields = s.lookups.map StoredField.name := by
  have hkinds : u.table.lookupFields =
      (u.table.operations.map Operation.kind).filterMap OperationKind.lookupField? := by
    rw [List.filterMap_map]
    rfl
  have hlookups : (s.lookups.map fun f => OperationKind.getBy f.name).filterMap
      OperationKind.lookupField? = s.lookups.map StoredField.name := by
    rw [List.filterMap_map, ← List.filterMap_eq_map]
    rfl
  rw [hkinds, h.kinds, List.filterMap_append, List.filterMap_append, hlookups]
  exact List.append_nil _

theorem primaryKey_column : u.table.primaryKey.column = s.primaryKey.name := by
  rw [h.primaryKey, ← h.fits.key]
  exact h.fits.column h.fits.mem_key

/-- **The statements that prepare the table**: it is created from the definitions in the column
constants, these are added one by one, and there is an index for each lookup. -/
theorem statements_eq : u.table.statements.map Statement.text =
    [u.table.creation] ++ u.table.columns.map u.table.addition ++
      u.table.lookupFields.map u.table.indexing := by
  have hindexed : u.table.lookupFields = t.lookups.map fun c => c.plan.column := by
    rw [h.lookupFields_eq, ← h.fits.lookups, List.map_map]
    exact List.map_congr_left fun c hc => (h.fits.column (List.mem_filter.mp hc).1).symm
  have hcreation : u.table.creation = (Statement.createTable t.tableName
      (t.columns.map PlannedField.definition) t.keyColumn).text := by
    unfold TableObject.creation
    rw [h.tableName, h.columns, h.primaryKey, List.map_map, Statement.text_createTable,
      List.map_map]
    rfl
  have hadditions : u.table.columns.map u.table.addition =
      (t.columns.map fun c => Statement.addColumn t.tableName c.definition).map Statement.text := by
    rw [h.columns, List.map_map, List.map_map]
    refine List.map_congr_left fun c _ => ?_
    change u.table.addition _ = Statement.text (.addColumn t.tableName c.definition)
    rw [TableObject.addition, h.tableName]
    rfl
  have hindexes : u.table.lookupFields.map u.table.indexing =
      (t.lookups.map fun c => Statement.createIndex (indexName t.tableName c.plan.column)
        t.tableName c.plan.column).map Statement.text := by
    rw [hindexed, List.map_map, List.map_map]
    refine List.map_congr_left fun c _ => ?_
    change u.table.indexing c.plan.column =
      Statement.text (.createIndex _ t.tableName c.plan.column)
    unfold TableObject.indexing
    rw [h.tableName]
    rfl
  rw [h.statements, PlannedTable.schemaStatements, h.indexed_eq, List.map_append, List.map_cons,
    ← hcreation, ← hadditions, ← hindexes]
  rfl

/-- **The rows that are read have the columns that are read.** -/
theorem rows_eq {o : Operation} (ho : o ∈ u.table.operations) (hrows : o.kind.returnsRows = true) :
    ∃ sql tokens, o.sql? = some sql ∧ lexemes sql = some tokens ∧
      resultColumns tokens = s.storable.map StoredField.name := by
  obtain ⟨st, hst, hresults⟩ := t.results_statement? hrows
  obtain ⟨hsql, htokens⟩ := h.lexemes_sql ho hst
  refine ⟨_, _, hsql, htokens, ?_⟩
  rw [Statement.resultColumns_onTable _ (PlannedTable.isOn_statement? hst).2, hresults, h.names]

theorem length_statements :
    u.table.statements.length = 1 + s.storable.length + s.lookups.length := by
  have hlength := congrArg List.length h.statements_eq
  rw [h.lookupFields_eq] at hlength
  simp only [List.length_append, List.length_map, List.length_singleton] at hlength
  rw [hlength, h.forall₂_columns.length_eq]

end GeneratedUnit.From

/-- **The statements that prepare the table and the rest of the unit describe one table.** What is
created are the columns of the constants, in their order, with the key of the schema; what has an
index is what has a lookup; and all rows that are read have the columns that are read from them. -/
theorem rows_of_generate {d : Description} {u : GeneratedUnit} (h : generate d = .ok u) :
    ∃ (s : Schema) (plans : Plans) (plan : StoredField → Plan), Schema.build d = .ok s ∧
      Plans.resolve s = .ok plans ∧ (∀ f ∈ s.storable, plans.get? f.name = some (plan f)) ∧
      u.table.statements.length = 1 + s.storable.length + s.lookups.length ∧
      u.table.statements.map Statement.text =
        [u.table.creation] ++ u.table.columns.map u.table.addition ++
          u.table.lookupFields.map u.table.indexing ∧
      u.table.lookupFields = s.lookups.map StoredField.name ∧
      (∃ method ∈ members u.table.implItem, itemName? method = some "create_schema" ∧
        itemQueries method = u.table.statements.map fun st => (Literal.quote st.text, [])) ∧
      List.Forall₂ (fun f c => c.field = f.name ∧ c.definition = definitionOf f c.storage)
        s.storable u.table.columns ∧
      u.table.primaryKey.column = s.primaryKey.name ∧ s.primaryKey ∈ s.storable ∧
      ∀ o ∈ u.table.operations,
        readsRows o.method = o.kind.returnsRows ∧
        (o.kind.returnsRows = true → ∃ sql tokens, o.sql? = some sql ∧
          lexemes sql = some tokens ∧ resultColumns tokens = s.storable.map StoredField.name) ∧
        (o.kind = .transform →
          ∃ values, (s.storable.map (loadedText plan)).mapM Expr.ofText = .ok values ∧
            returnedEntries o.method = (s.storable.map StoredField.name).zip values ++
              s.transient.map fun name => (name, PlannedTable.defaultValue)) := by
  obtain ⟨s, plans, t, hfrom⟩ := GeneratedUnit.exists_from h
  obtain ⟨plan, hplan⟩ := hfrom.exists_plan
  have hkey : s.primaryKey ∈ s.storable := by
    rw [← hfrom.fits.key]
    exact hfrom.mem_storable hfrom.fits.mem_key
  exact ⟨s, plans, plan, hfrom.build, hfrom.resolve, hplan, hfrom.length_statements,
    hfrom.statements_eq, hfrom.lookupFields_eq, u.table.exists_schemaMethod, hfrom.forall₂_columns,
    hfrom.primaryKey_column, hkey, fun o ho => ⟨(hfrom.makes ho).readsRows_method,
      hfrom.rows_eq ho, hfrom.loads_texts hplan ho⟩⟩

/-- A lap has one statement for its table, two for its columns and one for the index on its time. -/
theorem rows_of_generate_lap : ∃ u, generate lap = .ok u ∧ u.table.statements.length = 4 ∧
    u.table.lookupFields = ["time"] := by
  obtain ⟨u, hu⟩ := exists_generate_lap
  obtain ⟨s, -, -, hs, -, -, hlength, -, hlookups, -⟩ := rows_of_generate hu
  have hstored : s.storable.length = 2 := by
    rw [(storable_eq_of_build hs).1]
    decide
  have htimes : s.lookups.map StoredField.name = ["time"] := by
    rw [Schema.lookups, (storable_eq_of_build hs).1]
    decide
  have hcount : s.lookups.length = 1 := by
    rw [← List.length_map (f := StoredField.name), htimes]
    rfl
  exact ⟨u, hu, by rw [hlength, hstored, hcount], hlookups.trans htimes⟩

end EntityTable.Table
