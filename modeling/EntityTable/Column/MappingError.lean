import EntityTable.Column.Storage
import EntityTable.Column.Template

/-! # Mapping errors

Why a field cannot be stored, or a table object not be put together. -/

namespace EntityTable.Column

open Source (SyntaxError)

/-- The direction in which a template converts. -/
inductive Direction where
  | encode
  | decode
  deriving DecidableEq, Repr

/-- The name of a direction. -/
def Direction.name : Direction → String
  | encode => "encode"
  | decode => "decode"

/-- What is wrong with a template: the text itself, or the expression it gives when it is filled. -/
inductive TemplateFault where
  | text (error : TemplateError)
  | filled (reason : SyntaxError)
  deriving Repr

/-- The text of a fault. -/
def TemplateFault.message : TemplateFault → String
  | text error => error.message
  | filled reason => reason.message

/-- The reasons for which fields are not mapped to columns. -/
inductive MappingError where
  | unsupportedType (field ty : String)
  | invalidTemplate (field : String) (direction : Direction) (template : String)
      (fault : TemplateFault)
  | unsupportedStoreAs (field storeAs : String)
  | unknownColumnType (field columnType : String)
  | invalidImport (field path : String)
  /-- A key that the database assigns is not stored as an integer. -/
  | autoIncrementStorage (field : String) (storage : Storage)
  /-- A stored field has no plan. -/
  | missingPlan (field : String)
  deriving Repr

/-- The text of an error. -/
def MappingError.message : MappingError → String
  | unsupportedType field ty =>
    "unsupported type `" ++ ty ++ "` for field `" ++ field ++
      "`: add #[serializable] or an explicit #[type_mapping(store_as = \"...\")]"
  | invalidTemplate field direction template fault =>
    "invalid " ++ direction.name ++ " template `" ++ template ++ "` for field `" ++ field ++
      "`: " ++ fault.message
  | unsupportedStoreAs field storeAs =>
    "field `" ++ field ++ "` is stored as `" ++ storeAs ++
      "`, which has no column type; set column_type explicitly"
  | unknownColumnType field columnType =>
    "unknown column type `" ++ columnType ++ "` for field `" ++ field ++ "`"
  | invalidImport field path => "invalid import `" ++ path ++ "` for field `" ++ field ++ "`"
  | autoIncrementStorage field storage =>
    "auto-increment key `" ++ field ++ "` is stored as " ++ storage.sql ++
      ", identity columns must be INTEGER or BIGINT"
  | missingPlan field => "no column plan for field `" ++ field ++ "`"

end EntityTable.Column
