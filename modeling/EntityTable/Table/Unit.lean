import EntityTable.Table.Operation

/-! # Units

A unit is what is generated for one entity: imports and a table object, which is a struct with a
connection pool and an implementation that holds the column constants and the operations. The unit's
tokens are those of the items that it is written as. -/

namespace EntityTable.Table

open Source
open Column (MappingError Modifier Plans Storage)
open Entity (Schema columnConstant)

/-- The constant that holds the definition of a column. -/
structure ColumnConstant where
  field : String
  storage : Storage
  modifiers : List Modifier
  definition : String
  isPublic : Bool

/-- A constant that holds a text. -/
def textConstant (attrs : List Attribute) (isPublic : Bool) (name value : String) : Item :=
  .const attrs (if isPublic then .everywhere else .inherited) name
    (.reference (some "static") false (.word "str")) (.text value)

namespace ColumnConstant

/-- The name of the constant. -/
def name (c : ColumnConstant) : String := columnConstant c.field

/-- What is said about the column. -/
def description (c : ColumnConstant) : String :=
  "Column `" ++ c.field ++ "`: " ++
    ", ".intercalate (c.storage.sql :: c.modifiers.map Modifier.phrase) ++ "."

/-- The item that declares the constant. -/
def item (c : ColumnConstant) : Item :=
  textConstant
    (.docText c.description :: if c.isPublic then [] else [.listing "allow" ["dead_code"]])
    c.isPublic c.name c.definition

/-- The tokens of the declaration. -/
def tokens (c : ColumnConstant) : List Token := c.item.tokens

/-- The constant of a planned column. -/
def ofPlanned (isPublic : Bool) (c : PlannedField) : ColumnConstant :=
  ⟨c.name, c.plan.storage, c.plan.modifiers, c.definition.text, isPublic⟩

end ColumnConstant

/-- The key of a table object. -/
structure KeyDeclaration where
  field : String
  ty : Ty
  column : String

/-- A table object. -/
structure TableObject where
  name : String
  entity : String
  tableName : String
  columns : List ColumnConstant
  primaryKey : KeyDeclaration
  statements : List Statement
  operations : List Operation

namespace TableObject

/-- The operation whose method has this name. -/
def operation? (t : TableObject) (name : String) : Option Operation :=
  t.operations.find? fun o => o.name == name

/-- The column of a field. -/
def column? (t : TableObject) (field : String) : Option ColumnConstant :=
  t.columns.find? fun c => c.field == field

/-- The struct that holds the connections. -/
def structItem (t : TableObject) : Item :=
  .struct
    [.docText ("Table-backed data access object for [`" ++ t.entity ++ "`], stored in `" ++
        t.tableName ++ "`."),
      .listing "derive" ["Debug", "Clone"]]
    .everywhere t.name
    (.named [⟨[], .inherited, some "pool", .word "PgPool"⟩] false)

/-- The function that makes a table object and prepares its table. -/
def newMethod : Item :=
  methodItem [.docLine " Bind to `pool` and make sure the table exists."] true true "new"
    [.typed [] (.var "pool") (.word "PgPool")] (.word "Self")
    [.bind (.var "table") (.record (.plain (.word "Self")) [.short [] "pool"] false false none),
      .run (.awaited ((Expr.word "table").method "create_schema" [])),
      .yields (okOf (.word "table"))]

/-- The constants and methods. -/
def implItem (t : TableObject) : Item :=
  .impl [] .inherited (.word t.name)
    ([textConstant [.docText "Table name."] true "TABLE_NAME" t.tableName] ++
      t.columns.map ColumnConstant.item ++
      [textConstant [.docText "Primary key column."] true "PRIMARY_KEY" t.primaryKey.column,
        newMethod, schemaMethod (t.statements.map Statement.text)] ++
      t.operations.map Operation.method)

/-- The table object of planned columns. -/
def ofPlanned (t : PlannedTable) : Except MappingError TableObject := do
  let operations ← t.operations
  return {
    name := t.schema.generated
    entity := t.entity
    tableName := t.tableName
    columns := t.columns.map (.ofPlanned !t.schema.hideColumns)
    primaryKey := ⟨t.key.name, t.keyTy, t.keyColumn⟩
    statements := t.schemaStatements
    operations }

end TableObject

/-- What is generated for one entity. -/
structure GeneratedUnit where
  imports : List Import
  table : TableObject

/-! ### Imports -/

/-- What every unit imports besides its entity. -/
def baseImports : List String := ["sqlx::Row", "sqlx::postgres::\x7bPgPool, PgRow\x7d"]

/-- The path of everything in the entity's module. -/
def homeGlob (home : Path) : String :=
  (if home.isGlobal then "::" else "") ++
    "::".intercalate (home.segments.map Segment.name) ++ "::*"

/-- An entry with a new key put into its place in a list that is sorted by key. -/
def insertByPath (path field : String) : List (String × String) → List (String × String)
  | [] => [(path, field)]
  | (p, f) :: rest =>
    if path < p then (path, field) :: (p, f) :: rest
    else if path = p then (p, f) :: rest
    else (p, f) :: insertByPath path field rest

namespace PlannedTable

/-- The paths that plans ask for besides the base, sorted, each with the first field that does. -/
def planImports (t : PlannedTable) : List (String × String) :=
  let wanted := t.columns.flatMap fun c => c.plan.conversion.imports.map fun path => (path, c.name)
  wanted.foldl
    (fun sorted (path, field) =>
      if baseImports.contains path then sorted else insertByPath path field sorted)
    []

/-- The import of a path that is asked for by a field. -/
def importOf (path field : String) : Except MappingError Import :=
  match Import.ofText? path with
  | some i => .ok i
  | none => .error (.invalidImport field path)

/-- The imports of the unit: the entity's module, the base, and what the plans ask for. -/
def imports (t : PlannedTable) : Except MappingError (List Import) := do
  let base ← (homeGlob t.schema.home :: baseImports).mapM fun path => importOf path t.entity
  let extra ← t.planImports.mapM fun (path, field) => importOf path field
  return base ++ extra

end PlannedTable

namespace GeneratedUnit

/-- The unit of a schema under plans for its stored fields. -/
def synthesize (schema : Schema) (plans : Plans) : Except MappingError GeneratedUnit := do
  let t ← PlannedTable.ofPlans schema plans
  let table ← TableObject.ofPlanned t
  let imports ← t.imports
  return ⟨imports, table⟩

/-- The name of the file that the unit is written to. -/
def fileName (u : GeneratedUnit) : String := Text.snakeCase u.table.name ++ ".rs"

/-- The items that the unit is written as. -/
def items (u : GeneratedUnit) : List Item :=
  u.imports.map Import.item ++ [u.table.structItem, u.table.implItem]

/-- The tokens of the unit. -/
def tokens (u : GeneratedUnit) : List Token := Item.tokensOf u.items

end GeneratedUnit

end EntityTable.Table
