import EntityTable.Source.Tree.TypeView
import EntityTable.Text.Blank

/-! # Storage types and modifiers

The column types that a value can be stored in, with the names by which a mapping may ask for them,
and the modifiers of a column. -/

namespace EntityTable.Column

/-- The type of a stored column. -/
inductive Storage where
  | integer
  | bigInt
  | uuid
  | text
  | boolean
  deriving DecidableEq, Repr

namespace Storage

/-- The name of the column type in SQL. -/
def sql : Storage → String
  | integer => "INTEGER"
  | bigInt => "BIGINT"
  | uuid => "UUID"
  | text => "TEXT"
  | boolean => "BOOLEAN"

/-- The type that a column is read as when a mapping names its storage. -/
def readType : Storage → Source.Ty
  | integer => .word "i32"
  | bigInt => .word "i64"
  | uuid => .words ["sqlx", "types", "Uuid"]
  | text => .word "String"
  | boolean => .word "bool"

/-- The database can number the rows of such a column. -/
def isInteger : Storage → Bool
  | integer | bigInt => true
  | _ => false

/-- The letters `A` to `Z` in lower case, all other characters as they are. -/
def asciiLower (text : List Char) : List Char := text.map Char.toLower

/-- The storage type with this name, in any case and with blanks around it. -/
def ofName? (name : String) : Option Storage :=
  let key := String.ofList (asciiLower (Text.trim name.toList))
  if ["integer", "int", "int4"].contains key then some integer
  else if ["bigint", "long", "int8"].contains key then some bigInt
  else if key = "uuid" then some uuid
  else if ["text", "string"].contains key then some text
  else if ["boolean", "bool"].contains key then some boolean
  else none

end Storage

/-- A property of a column besides its type. -/
inductive Modifier where
  /-- The database assigns the value. -/
  | autoIncrement
  /-- The column has an index. -/
  | indexed
  /-- The column may be null. -/
  | nullable
  deriving DecidableEq, Repr

namespace Modifier

/-- The modifier as a phrase. -/
def phrase : Modifier → String
  | autoIncrement => "auto increment"
  | indexed => "indexed"
  | nullable => "nullable"

/-- The modifier as a label in event records. -/
def label : Modifier → String
  | autoIncrement => "AutoIncrement"
  | indexed => "Indexed"
  | nullable => "Nullable"

/-- The place of a modifier in the order in which a column lists them. -/
def rank : Modifier → Nat
  | autoIncrement => 0
  | indexed => 1
  | nullable => 2

end Modifier

end EntityTable.Column
