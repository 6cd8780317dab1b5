import EntityTable.Entity.Description
import EntityTable.Entity.SchemaError
import EntityTable.Source.Identifier
import EntityTable.Text.Blank
import EntityTable.Text.Words

/-! # Schemas

A schema is a description that has been checked: all names are identifiers, no two fields share a
name, no two stored fields share a column constant, and exactly one stored field is the key, which
cannot be null. The fields are checked in the order of their declaration, and the keys are counted
at the end. -/

namespace EntityTable.Entity

open Source (Ty Path identifier?)

/-- The field name that generated code uses itself. -/
def reservedFieldName : String := "id"

/-- The module that an entity is imported from if its description names none. -/
def defaultHome : String := "super"

/-- What the name of a generated type ends in if its description gives none. -/
def generatedSuffix : String := "Table"

/-- The constant that holds the definition of a field's column. -/
def columnConstant (field : String) : String := "COLUMN_" ++ Text.upperSnakeCase field

/-- A stored field. If it is declared as an `Option`, the value type is what is inside. -/
structure StoredField where
  /-- The name as the description spells it. -/
  declared : String
  /-- The identifier. -/
  name : String
  ty : Ty
  valueTy : Ty
  meaning : Meaning
  isNullable : Bool
  roles : Roles

namespace StoredField

/-- The stored field that a description says, under its identifier. -/
def ofDescription (name : String) (f : FieldDescription) : StoredField :=
  let valueTy := f.ty.optionItem?.getD f.ty
  { declared := f.name
    name
    ty := f.ty
    valueTy
    meaning := .classify valueTy f.serializable f.mapping
    isNullable := f.ty.optionItem?.isSome
    roles := f.roles }

/-- The field is the key of the table. -/
def isPrimaryKey (f : StoredField) : Bool := f.roles.primaryKey

/-- The field is a key that the database assigns. -/
def isAutoIncrement (f : StoredField) : Bool := f.roles.isAutoIncrement

/-- Entities are looked up by the field. -/
def isLookupKey (f : StoredField) : Bool := f.roles.lookupKey

end StoredField

/-- A checked description. -/
structure Schema where
  /-- The entity's type. -/
  origin : String
  /-- The generated type. -/
  generated : String
  /-- The module that the entity is imported from. -/
  home : Path
  tableName : String
  hideColumns : Bool
  /-- The stored fields in the order of their declaration. -/
  storable : List StoredField
  primaryKey : StoredField
  /-- The names of the other fields. -/
  transient : List String

/-- The stored fields by which entities are looked up. -/
def Schema.lookups (s : Schema) : List StoredField := s.storable.filter StoredField.isLookupKey

/-! ### Fields -/

/-- What has been found in the fields read so far. -/
structure FieldsSoFar where
  /-- The names as they are spelled. -/
  names : List String
  storable : List StoredField
  transient : List String

namespace FieldsSoFar

/-- Nothing has been read. -/
def none : FieldsSoFar := ⟨[], [], []⟩

/-- A stored field read before that has the same column constant. -/
def sharing? (s : FieldsSoFar) (name : String) : Option StoredField :=
  s.storable.find? fun other => columnConstant other.name == columnConstant name

/-- Checks a field and takes it in. -/
def add (entity : String) (s : FieldsSoFar) (f : FieldDescription) :
    Except SchemaError FieldsSoFar := do
  if f.name = reservedFieldName then throw (.reservedFieldName entity)
  let some name := identifier? f.name | throw (.invalidIdentifier entity f.name)
  if s.names.contains f.name then throw (.duplicateField entity f.name)
  if f.roles.isConflicting then throw (.conflictingRoles entity f.name)
  let s := { s with names := s.names ++ [f.name] }
  if f.roles.nonSavable then return { s with transient := s.transient ++ [name] }
  if let some other := s.sharing? name then
    throw (.columnConstantCollision entity f.name other.declared (columnConstant name))
  return { s with storable := s.storable ++ [.ofDescription name f] }

/-- The one key among the stored fields. -/
def key (entity : String) (s : FieldsSoFar) : Except SchemaError StoredField :=
  match s.storable.filter StoredField.isPrimaryKey with
  | [] => .error (.missingPrimaryKey entity)
  | [key] => if key.isNullable then .error (.nullablePrimaryKey entity key.declared) else .ok key
  | keys => .error (.multiplePrimaryKeys entity (keys.map StoredField.declared))

end FieldsSoFar

/-! ### Entities -/

namespace Schema

/-- The name of the table: the given one, which must not be blank, or the entity's in snake case. -/
def tableNameOf (d : Description) : Except SchemaError String :=
  match d.table with
  | some table =>
    if Text.isBlankText table then .error (.malformedEntity d.name .emptyTableName) else .ok table
  | none => .ok (Text.snakeCase d.name)

/-- The schema of a description. -/
def build (d : Description) : Except SchemaError Schema := do
  let some origin := identifier? d.name | throw (.invalidIdentifier d.name d.name)
  if d.fields.isEmpty then throw (.malformedEntity d.name .noFields)
  let className := d.className.getD (d.name ++ generatedSuffix)
  let some generated := identifier? className | throw (.invalidIdentifier d.name className)
  let homeText := d.home.getD defaultHome
  let .ok home := Path.ofText homeText | throw (.invalidNamespace d.name homeText)
  let tableName ← tableNameOf d
  let fields ← d.fields.foldlM (FieldsSoFar.add d.name) .none
  let primaryKey ← fields.key d.name
  return {
    origin, generated, home, tableName, hideColumns := d.hideColumns
    storable := fields.storable, primaryKey, transient := fields.transient }

end Schema

end EntityTable.Entity
