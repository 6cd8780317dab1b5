import EntityTable.Column.Plans
import EntityTable.Table.Query

/-! # Planned columns

The stored fields of a schema, each with its plan, in the order of the schema. Everything that a
table object consists of is read off them; the order of the plans does not matter. -/

namespace EntityTable.Table

open Source
open Column (Direction MappingError Plan Plans)
open Entity (Schema StoredField)

/-- A stored field with its plan. -/
structure PlannedField where
  field : StoredField
  plan : Plan

namespace PlannedField

/-- The name of the field, and of its column. -/
def name (c : PlannedField) : String := c.field.name

/-- The expression that a filled template forms. -/
def expression (c : PlannedField) (direction : Direction) (text : String) :
    Except MappingError Expr :=
  (Expr.ofText text).mapError fun reason =>
    .invalidTemplate c.name direction text (.filled reason)

/-- The field of the entity, by reference. -/
def entitySource (c : PlannedField) : String := "&entity." ++ c.name

/-- The expression that stores the field of the entity. -/
def encodeEntity (c : PlannedField) : Except MappingError Expr :=
  c.expression .encode (c.plan.encode c.entitySource)

/-- The expression that stores a value that is present. -/
def encodeKey (c : PlannedField) : Except MappingError Expr :=
  c.expression .encode (c.plan.encodeValue "key")

/-- The expression that reads the field from a row. -/
def decodeRow (c : PlannedField) : Except MappingError Expr :=
  c.expression .decode (c.plan.decode (c.plan.read "row"))

/-- The definition of the column. -/
def definition (c : PlannedField) : ColumnDefinition where
  name := c.plan.column
  storage := c.plan.storage
  isIdentity := c.plan.has .autoIncrement
  isRequired := !c.plan.isNullable

end PlannedField

/-- The planned columns of a schema. -/
structure PlannedTable where
  schema : Schema
  columns : List PlannedField
  key : PlannedField

namespace PlannedTable

/-- A stored field with the plan for its column. -/
def planned (plans : Plans) (field : StoredField) : Except MappingError PlannedField :=
  match plans.get? field.name with
  | some plan => .ok ⟨field, plan⟩
  | none => .error (.missingPlan field.name)

/-- The planned columns, given a plan for every stored field. -/
def ofPlans (schema : Schema) (plans : Plans) : Except MappingError PlannedTable := do
  let columns ← schema.storable.mapM (planned plans)
  match columns.find? fun c => c.name == schema.primaryKey.name with
  | some key => return ⟨schema, columns, key⟩
  | none => throw (.missingPlan schema.primaryKey.name)

/-- The type of the entity. -/
def entity (t : PlannedTable) : String := t.schema.origin

/-- The type of the key. -/
def keyTy (t : PlannedTable) : Ty := t.schema.primaryKey.ty

/-- The name of the table. -/
def tableName (t : PlannedTable) : String := t.schema.tableName

/-- The name of the key's column. -/
def keyColumn (t : PlannedTable) : String := t.key.plan.column

/-- The names of all columns. -/
def columnNames (t : PlannedTable) : List String := t.columns.map fun c => c.plan.column

/-- The columns that a new row is given values for: all but a key that the database assigns. -/
def inserted (t : PlannedTable) : List PlannedField :=
  t.columns.filter fun c => !c.plan.has .autoIncrement

/-- The columns by which entities are looked up. -/
def lookups (t : PlannedTable) : List PlannedField := t.columns.filter fun c => c.field.isLookupKey

/-- The statement that reads all columns. -/
def selection (t : PlannedTable) (filter : Option String) : Statement :=
  .select t.tableName t.columnNames filter

/-- The statements that create the table, add columns that are missing, and create indexes. -/
def schemaStatements (t : PlannedTable) : List Statement :=
  .createTable t.tableName (t.columns.map PlannedField.definition) t.keyColumn ::
    t.columns.map (fun c => .addColumn t.tableName c.definition) ++
    (t.columns.filter fun c => c.plan.has .indexed).map fun c =>
      .createIndex (indexName t.tableName c.plan.column) t.tableName c.plan.column

end PlannedTable

end EntityTable.Table
