import EntityTable.Column.Storage
import EntityTable.Sql.Clause

/-! # Statements

The SQL statements that a table object runs. A statement is kept in its parts and written out at the
end, so a name reaches the text in quotes only. -/

namespace EntityTable.Table

open Sql
open Column (Storage)

/-- The definition of a column. -/
structure ColumnDefinition where
  name : String
  storage : Storage
  /-- The database assigns the value. -/
  isIdentity : Bool
  /-- The column may not be null. -/
  isRequired : Bool

/-- The text of a definition. -/
def ColumnDefinition.text (c : ColumnDefinition) : String :=
  quoteName c.name ++ " " ++ c.storage.sql ++
    (if c.isIdentity then " GENERATED BY DEFAULT AS IDENTITY" else "") ++
    (if c.isRequired then " NOT NULL" else "")

/-- A statement. -/
inductive Statement where
  | createTable (table : String) (columns : List ColumnDefinition) (key : String)
  | addColumn (table : String) (column : ColumnDefinition)
  | createIndex (index table column : String)
  /-- A row with a parameter for each column, or with default values if there are none. -/
  | insert (table : String) (columns returning : List String)
  /-- Each column is set to the parameter of its number; the next parameter is the key. -/
  | update (table : String) (columns : List String) (key : String)
  | delete (table key : String)
  /-- All rows, or those in which one column equals the first parameter. -/
  | select (table : String) (columns : List String) (filter : Option String)

namespace Statement

/-- The condition that a column equals the parameter of a number. -/
def condition (column : String) (index : Nat) : String := " WHERE " ++ equality column index

/-- The text of a statement. -/
def text : Statement → String
  | createTable table columns key =>
    "CREATE TABLE IF NOT EXISTS " ++ quoteName table ++ " (" ++
      commaSeparated (columns.map ColumnDefinition.text ++
        ["PRIMARY KEY (" ++ quoteName key ++ ")"]) ++ ")"
  | addColumn table column =>
    "ALTER TABLE " ++ quoteName table ++ " ADD COLUMN IF NOT EXISTS " ++ column.text
  | createIndex index table column =>
    "CREATE INDEX IF NOT EXISTS " ++ quoteName index ++ " ON " ++ quoteName table ++ " (" ++
      quoteName column ++ ")"
  | insert table [] returning =>
    "INSERT INTO " ++ quoteName table ++ " DEFAULT VALUES RETURNING " ++ nameList returning
  | insert table columns returning =>
    "INSERT INTO " ++ quoteName table ++ " (" ++ nameList columns ++ ") VALUES (" ++
      placeholders columns.length ++ ") RETURNING " ++ nameList returning
  | update table columns key =>
    "UPDATE " ++ quoteName table ++ " SET " ++ assignments columns ++
      condition key (columns.length + 1)
  | delete table key => "DELETE FROM " ++ quoteName table ++ condition key 1
  | select table columns filter =>
    "SELECT " ++ nameList columns ++ " FROM " ++ quoteName table ++
      (match filter with
        | some column => condition column 1
        | none => "")

end Statement

/-- The name of the index on a column. -/
def indexName (table column : String) : String := "idx_" ++ table ++ "_" ++ column

end EntityTable.Table
