/-! # Clauses

The smallest parts of an SQL statement. A name is written between double quotes, with each quote in
it doubled, so whatever the name holds it stays one identifier. Parameters are numbered from one. -/

namespace EntityTable.Sql

/-- The characters of a name with every double quote written twice. -/
def doubleQuotes : List Char → List Char
  | [] => []
  | c :: rest => if c = '\x22' then c :: c :: doubleQuotes rest else c :: doubleQuotes rest

/-- The identifier that denotes a name. -/
def quoteName (name : String) : String :=
  "\x22" ++ String.ofList (doubleQuotes name.toList) ++ "\x22"

/-- Parts of a clause with commas between them. -/
def commaSeparated (parts : List String) : String := ", ".intercalate parts

/-- The identifiers of several names. -/
def nameList (names : List String) : String := commaSeparated (names.map quoteName)

/-- The parameter with this number. -/
def placeholder (index : Nat) : String := "$" ++ toString index

/-- The first parameters, as many as asked for. -/
def placeholders (count : Nat) : String :=
  commaSeparated ((List.range count).map fun i => placeholder (i + 1))

/-- A column compared with, or set to, a parameter. -/
def equality (name : String) (index : Nat) : String :=
  quoteName name ++ " = " ++ placeholder index

/-- Each column set to the parameter with its own number. -/
def assignments (names : List String) : String :=
  commaSeparated (names.mapIdx fun i name => equality name (i + 1))

end EntityTable.Sql
