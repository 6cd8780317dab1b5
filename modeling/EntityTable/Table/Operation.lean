import EntityTable.Table.Planned

/-! # Operations

The methods of a table object. Saving is creating or updating; deleting and getting go by the key,
and each lookup key has a method of its own. All of them turn rows into entities by one function,
which reads the stored fields and gives the others their default values. -/

namespace EntityTable.Table

open Source
open Column (MappingError)

/-- What an operation does. -/
inductive OperationKind where
  | save
  | create
  | update
  | delete
  | get
  | getAll
  | getBy (field : String)
  | transform
  deriving DecidableEq, Repr

namespace OperationKind

/-- The name of the method. -/
def methodName : OperationKind → String
  | save => "save"
  | create => "create"
  | update => "update"
  | delete => "delete"
  | get => "get"
  | getAll => "get_all"
  | getBy field => "get_by_" ++ field
  | transform => "transform"

/-- Others may call the method. -/
def isPublic : OperationKind → Bool
  | create | update | transform => false
  | _ => true

/-- What tells the lookups apart: `ByTitle` for the field `title`. -/
def suffix? : OperationKind → Option String
  | getBy field => some ("By" ++ Text.pascalCase field)
  | _ => none

end OperationKind

/-- An operation of a table object. -/
structure Operation where
  kind : OperationKind
  /-- The fields that are bound or read, in order. -/
  fields : List String
  query : Option Query
  method : Item

namespace Operation

/-- The name of the method. -/
def name (o : Operation) : String := o.kind.methodName

/-- The text of the statement that the operation runs. -/
def sql? (o : Operation) : Option String := o.query.map fun q => q.statement.text

/-- The tokens of the method. -/
def tokens (o : Operation) : List Token := o.method.tokens

/-- An operation whose method has the name and visibility of its kind. -/
def ofKind (kind : OperationKind) (fields : List String) (query : Option Query)
    (docs : List Attribute) (params : List FnParam) (value : Ty) (body : List Stmt) : Operation where
  kind
  fields
  query
  method := methodItem docs kind.isPublic (kind != .transform) kind.methodName params value body

end Operation

/-- The function that turns a row into an entity. -/
def transformPath : Expr := .words ["Self", "transform"]

/-- Turns a row that may be missing into an entity. -/
def transformedRow : Expr :=
  ((Expr.word "row").method "as_ref" []).method "map" [transformPath] |>.method "transpose" []

/-- Turns all rows into entities. -/
def transformedRows : Expr :=
  ((Expr.word "rows").method "iter" []).method "map" [transformPath] |>.method "collect" []

/-- A value without an error. -/
def okOf (value : Expr) : Expr := .apply (.word "Ok") [value]

namespace PlannedTable

/-- The parameter that holds the entity. -/
def entityParam (t : PlannedTable) : FnParam := sharedParam "entity" (.word t.entity)

/-- The parameter that holds the key. -/
def keyParam (t : PlannedTable) : FnParam := sharedParam "key" t.keyTy

/-- The names of fields. -/
def namesOf (columns : List PlannedField) : List String := columns.map PlannedField.name

/-- The field of the entity that is the key. -/
def entityKey (t : PlannedTable) : Expr := .field (.word "entity") t.key.name

/-- The query that filters by the key. -/
def byKey (t : PlannedTable) (statement : Statement) : Except MappingError Query :=
  return ⟨statement, [← t.key.encodeKey]⟩

/-! ### Writing -/

/-- Creates the entity if its key is unknown, and updates it otherwise. -/
def save (t : PlannedTable) : Operation :=
  let self := Expr.word "self"
  .ofKind .save [t.key.name] none
    [.docLine " Insert `entity` if its key is unknown, update it otherwise."]
    [selfParam, t.entityParam] (.applied "Option" [t.keyTy])
    [.yields <| .ifElse
      ((Expr.awaited (self.method "get" [t.entityKey.shared])).method "is_none" [])
      [.yields (.await (self.method "create" [.word "entity"]))]
      (some (.block (.plain none)
        [.yields ((Expr.await (self.method "update" [.word "entity"])).method "map"
          [.word "Some"])]))]

/-- The query that adds the entity as a new row and reads the row back. -/
def createQuery (t : PlannedTable) : Except MappingError Query := do
  let binds ← t.inserted.mapM PlannedField.encodeEntity
  return ⟨.insert t.tableName (t.inserted.map fun c => c.plan.column) t.columnNames, binds⟩

/-- Adds the entity as a new row; the key is taken from the row as it was stored. -/
def create (t : PlannedTable) : Except MappingError Operation := do
  let query ← t.createQuery
  return .ofKind .create (namesOf t.inserted) (some query) []
    [selfParam, t.entityParam] (.applied "Option" [t.keyTy])
    [beginStmt, .bind (.var "row") (query.run "fetch_optional"), commitStmt,
      .bind (.var "created") (.question transformedRow),
      .yields (okOf ((Expr.word "created").method "map"
        [.lambda "created" (.field (.word "created") t.key.name)]))]

/-- The query that writes all columns of the row with the entity's key. -/
def updateQuery (t : PlannedTable) : Except MappingError Query := do
  let binds ← t.columns.mapM PlannedField.encodeEntity
  return ⟨.update t.tableName t.columnNames t.keyColumn, binds ++ [← t.key.encodeEntity]⟩

/-- Writes all stored fields of the entity. -/
def update (t : PlannedTable) : Except MappingError Operation := do
  let query ← t.updateQuery
  return .ofKind .update (namesOf t.columns) (some query) []
    [selfParam, t.entityParam] t.keyTy
    [beginStmt, .run (query.run "execute"), commitStmt,
      .yields (okOf (t.entityKey.method "clone" []))]

/-- Deletes the row of a key. -/
def delete (t : PlannedTable) : Except MappingError Operation := do
  let query ← t.byKey (.delete t.tableName t.keyColumn)
  return .ofKind .delete [t.key.name] (some query)
    [.docLine " Delete the row stored under `key`."]
    [selfParam, t.keyParam] .unit
    [beginStmt, .run (query.run "execute"), commitStmt, .yields (okOf (.tuple [] false))]

/-! ### Reading -/

/-- Gets the entity of a key. -/
def get (t : PlannedTable) : Except MappingError Operation := do
  let query ← t.byKey (t.selection t.keyColumn)
  return .ofKind .get [t.key.name] (some query)
    [.docLine " Fetch the entity stored under `key`."]
    [selfParam, t.keyParam] (.applied "Option" [.word t.entity])
    [beginStmt, .bind (.var "row") (query.run "fetch_optional"), commitStmt,
      .yields transformedRow]

/-- Gets all entities. -/
def getAll (t : PlannedTable) : Operation :=
  let query : Query := ⟨t.selection none, []⟩
  .ofKind .getAll [] (some query)
    [.docLine " Fetch every stored entity, in storage order."]
    [selfParam] (listOf t.entity)
    [beginStmt, .bind (.var "rows") (query.run "fetch_all"), commitStmt, .yields transformedRows]

/-- Takes the key out of its option; there is nothing to be found without one. -/
def presentKey : Stmt :=
  .binding [] (.tupleRecord (.plain (.word "Some")) [.var "key"] false) none (some (.word "key"))
    (some (.block (.plain none)
      [.run (.ret (some (okOf (.apply (.words ["Vec", "new"]) []))))]))

/-- Gets the entities whose field has a value. -/
def getBy (t : PlannedTable) (c : PlannedField) : Except MappingError Operation := do
  let query : Query := ⟨t.selection (some c.plan.column), [← c.encodeKey]⟩
  return .ofKind (.getBy c.name) [c.name] (some query)
    [.docText ("Fetch every entity whose `" ++ c.name ++ "` equals `key`.")]
    [selfParam, sharedParam "key" c.field.ty] (listOf t.entity)
    ((if c.field.isNullable then [presentKey] else []) ++
      [beginStmt, .bind (.var "rows") (query.run "fetch_all"), commitStmt,
        .yields transformedRows])

/-- The value of a field that is not stored. -/
def defaultValue : Expr := .apply (.globalWords ["core", "default", "Default", "default"]) []

/-- Turns a row into an entity. -/
def transform (t : PlannedTable) : Except MappingError Operation := do
  let decoded ← t.columns.mapM PlannedField.decodeRow
  let stored := (namesOf t.columns).zipWith (fun name value => FieldInit.named [] name value) decoded
  let others := t.schema.transient.map fun name => FieldInit.named [] name defaultValue
  return .ofKind .transform (namesOf t.columns) none []
    [sharedParam "row" (.word "PgRow")] (.word t.entity)
    [.yields (okOf (.record (.plain (.word t.entity)) (stored ++ others) true false none))]

/-- All operations, in the order in which they are declared. -/
def operations (t : PlannedTable) : Except MappingError (List Operation) := do
  let create ← t.create
  let update ← t.update
  let delete ← t.delete
  let get ← t.get
  let lookups ← t.lookups.mapM t.getBy
  let transform ← t.transform
  return [t.save, create, update, delete, get, t.getAll] ++ lookups ++ [transform]

end PlannedTable

end EntityTable.Table
