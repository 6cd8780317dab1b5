import EntityTable.Entity.AttributeError

/-! # Schema errors

Why a description is refused. Each error names the entity, and the field or text at fault. -/

namespace EntityTable.Entity

/-- What makes an entity malformed. -/
inductive Malformation where
  | unnamedFields
  | notStruct
  | generic
  | noFields
  | emptyTableName
  deriving DecidableEq, Repr

/-- The text of a malformation. -/
def Malformation.message : Malformation → String
  | unnamedFields => "expected a struct with named fields"
  | notStruct => "expected a struct, found an enum or union"
  | generic => "generic entities are not supported"
  | noFields => "an entity needs at least one field"
  | emptyTableName => "table name is empty"

/-- The reasons for which a description is refused. -/
inductive SchemaError where
  | malformedEntity (entity : String) (reason : Malformation)
  /-- A field has the name that generated code uses itself. -/
  | reservedFieldName (entity : String)
  | missingPrimaryKey (entity : String)
  | multiplePrimaryKeys (entity : String) (fields : List String)
  | duplicateField (entity field : String)
  /-- Two stored fields have the same column constant. -/
  | columnConstantCollision (entity field other constant : String)
  | invalidIdentifier (entity name : String)
  | invalidNamespace (entity path : String)
  /-- A key is not stored. -/
  | conflictingRoles (entity field : String)
  | nullablePrimaryKey (entity field : String)
  | invalidAttribute (entity : String) (error : AttributeError)
  deriving Repr

/-- The text of an error. -/
def SchemaError.message : SchemaError → String
  | malformedEntity entity reason => "entity `" ++ entity ++ "` is malformed: " ++ reason.message
  | reservedFieldName entity =>
    "`id` is a reserved field name in `" ++ entity ++
      "`, please use something more descriptive"
  | missingPrimaryKey entity =>
    "entity `" ++ entity ++
      "` has no primary key, mark exactly one field with #[primary_key]"
  | multiplePrimaryKeys entity fields =>
    "entity `" ++ entity ++ "` has more than one primary key: " ++ ", ".intercalate fields
  | duplicateField entity field =>
    "field `" ++ field ++ "` is declared twice in `" ++ entity ++ "`"
  | columnConstantCollision entity field other constant =>
    "fields `" ++ other ++ "` and `" ++ field ++ "` in `" ++ entity ++ "` both generate `" ++
      constant ++ "`"
  | invalidIdentifier entity name =>
    "`" ++ name ++ "` in `" ++ entity ++ "` is not a valid identifier"
  | invalidNamespace entity path =>
    "namespace `" ++ path ++ "` of `" ++ entity ++ "` is not a valid module path"
  | conflictingRoles entity field =>
    "field `" ++ field ++ "` in `" ++ entity ++
      "` is #[non_savable] and cannot also be a key"
  | nullablePrimaryKey entity field =>
    "primary key `" ++ field ++ "` in `" ++ entity ++ "` cannot be nullable"
  | invalidAttribute entity error =>
    "invalid attribute on `" ++ entity ++ "`: " ++ error.message

end EntityTable.Entity
