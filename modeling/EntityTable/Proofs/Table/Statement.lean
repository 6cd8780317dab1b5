import EntityTable.Proofs.Sql.Clause
import EntityTable.Table.Statement

/-! # The shape of statements

A statement has a fixed sequence of keywords, marks and parameters, with places for names: the
table, a column, or the index on a column. The sequence does not depend on the table
(`Statement.shape` never looks at it). The text of a statement on a table is read as its shape with
the names in their places (`Statement.reads_text`), so no name changes what the statement does. -/

namespace EntityTable.Table

open Sql

/-- What a name in a statement stands for. -/
inductive NamePlace where
  | table
  | column (name : String)
  /-- The index on a column. -/
  | index (name : String)
  deriving DecidableEq, Repr

/-- The name at a place, given the name of the table. -/
def NamePlace.nameOn (table : String) : NamePlace → String
  | .table => table
  | .column name => name
  | .index name => indexName table name

/-- The tokens of a shape on a table. -/
def onTable (table : String) (shape : List (Lexeme NamePlace)) : List (Lexeme String) :=
  shape.map (Lexeme.map (NamePlace.nameOn table))

/-- Keywords in a row. -/
def keywords (words : List String) : List (Lexeme NamePlace) := words.map .word

/-- Columns in a row, with commas between them. -/
def columnList (names : List String) : List (Lexeme NamePlace) :=
  separated (names.map fun name => [.name (.column name)])

/-- The parameters from one on, with commas between them. -/
def parameterList (count : Nat) : List (Lexeme NamePlace) :=
  separated ((List.range' 1 count).map fun i => [.parameter i])

/-- A column that equals a parameter. -/
def columnEquals (name : String) (index : Nat) : List (Lexeme NamePlace) :=
  [.name (.column name), .mark '=', .parameter index]

/-- Columns in a row, each of which equals the parameter of its place, with commas between them. -/
def assignmentList (names : List String) : List (Lexeme NamePlace) :=
  separated ((names.zipIdx 1).map fun p => columnEquals p.1 p.2)

/-- The shape of a definition. -/
def ColumnDefinition.shape (c : ColumnDefinition) : List (Lexeme NamePlace) :=
  [.name (.column c.name), .word c.storage.sql] ++
    (if c.isIdentity then keywords ["GENERATED", "BY", "DEFAULT", "AS", "IDENTITY"] else []) ++
    (if c.isRequired then keywords ["NOT", "NULL"] else [])

namespace Statement

/-- The shape of the condition that a column equals a parameter. -/
def conditionShape (column : String) (index : Nat) : List (Lexeme NamePlace) :=
  .word "WHERE" :: columnEquals column index

/-- The shape of a statement. -/
def shape : Statement → List (Lexeme NamePlace)
  | createTable _ columns key =>
    keywords ["CREATE", "TABLE", "IF", "NOT", "EXISTS"] ++ [.name .table, .mark '('] ++
      separated (columns.map ColumnDefinition.shape ++
        [keywords ["PRIMARY", "KEY"] ++ [.mark '(', .name (.column key), .mark ')']]) ++
      [.mark ')']
  | addColumn _ column =>
    keywords ["ALTER", "TABLE"] ++ [.name .table] ++
      keywords ["ADD", "COLUMN", "IF", "NOT", "EXISTS"] ++ column.shape
  | createIndex _ _ column =>
    keywords ["CREATE", "INDEX", "IF", "NOT", "EXISTS"] ++ [.name (.index column), .word "ON",
      .name .table, .mark '(', .name (.column column), .mark ')']
  | insert _ [] returning =>
    keywords ["INSERT", "INTO"] ++ [.name .table] ++ keywords ["DEFAULT", "VALUES", "RETURNING"] ++
      columnList returning
  | insert _ columns returning =>
    keywords ["INSERT", "INTO"] ++ [.name .table, .mark '('] ++ columnList columns ++
      [.mark ')', .word "VALUES", .mark '('] ++ parameterList columns.length ++
      [.mark ')', .word "RETURNING"] ++ columnList returning
  | update _ columns key =>
    [.word "UPDATE", .name .table, .word "SET"] ++ assignmentList columns ++
      conditionShape key (columns.length + 1)
  | delete _ key =>
    keywords ["DELETE", "FROM"] ++ [.name .table] ++ conditionShape key 1
  | select _ columns filter =>
    [.word "SELECT"] ++ columnList columns ++ [.word "FROM", .name .table] ++
      (match filter with
        | some column => conditionShape column 1
        | none => [])

/-! ### Texts and shapes, statement by statement -/

section Parts
variable (table column key : String) (columns returning : List String)

theorem text_createTable (definitions : List ColumnDefinition) :
    (createTable table definitions key).text = "CREATE TABLE IF NOT EXISTS " ++ quoteName table ++
      " (" ++ commaSeparated (definitions.map ColumnDefinition.text ++
        ["PRIMARY KEY (" ++ quoteName key ++ ")"]) ++ ")" := rfl

theorem shape_createTable (definitions : List ColumnDefinition) :
    (createTable table definitions key).shape =
      keywords ["CREATE", "TABLE", "IF", "NOT", "EXISTS"] ++ [Lexeme.name .table, .mark '('] ++
        separated (definitions.map ColumnDefinition.shape ++
          [keywords ["PRIMARY", "KEY"] ++ [Lexeme.mark '(', .name (.column key), .mark ')']]) ++
        [Lexeme.mark ')'] := rfl

theorem text_addColumn (definition : ColumnDefinition) : (addColumn table definition).text =
    "ALTER TABLE " ++ quoteName table ++ " ADD COLUMN IF NOT EXISTS " ++ definition.text := rfl

theorem shape_addColumn (definition : ColumnDefinition) : (addColumn table definition).shape =
    keywords ["ALTER", "TABLE"] ++ [Lexeme.name .table] ++
      keywords ["ADD", "COLUMN", "IF", "NOT", "EXISTS"] ++ definition.shape := rfl

theorem text_createIndex (index : String) : (createIndex index table column).text =
    "CREATE INDEX IF NOT EXISTS " ++ quoteName index ++ " ON " ++ quoteName table ++ " (" ++
      quoteName column ++ ")" := rfl

theorem shape_createIndex (index : String) : (createIndex index table column).shape =
    keywords ["CREATE", "INDEX", "IF", "NOT", "EXISTS"] ++ [Lexeme.name (.index column), .word "ON",
      .name .table, .mark '(', .name (.column column), .mark ')'] := rfl

theorem text_insert_nil : (insert table [] returning).text =
    "INSERT INTO " ++ quoteName table ++ " DEFAULT VALUES RETURNING " ++ nameList returning := rfl

theorem shape_insert_nil : (insert table [] returning).shape =
    keywords ["INSERT", "INTO"] ++ [Lexeme.name .table] ++
      keywords ["DEFAULT", "VALUES", "RETURNING"] ++ columnList returning := rfl

theorem text_insert_cons : (insert table (column :: columns) returning).text =
    "INSERT INTO " ++ quoteName table ++ " (" ++ nameList (column :: columns) ++ ") VALUES (" ++
      placeholders (column :: columns).length ++ ") RETURNING " ++ nameList returning := rfl

theorem shape_insert_cons : (insert table (column :: columns) returning).shape =
    keywords ["INSERT", "INTO"] ++ [Lexeme.name .table, .mark '('] ++
      columnList (column :: columns) ++ [Lexeme.mark ')', .word "VALUES", .mark '('] ++
      parameterList (column :: columns).length ++ [Lexeme.mark ')', .word "RETURNING"] ++
      columnList returning := rfl

theorem text_update : (update table columns key).text =
    "UPDATE " ++ quoteName table ++ " SET " ++ assignments columns ++
      condition key (columns.length + 1) := rfl

theorem shape_update : (update table columns key).shape =
    [Lexeme.word "UPDATE", .name .table, .word "SET"] ++ assignmentList columns ++
      conditionShape key (columns.length + 1) := rfl

theorem text_delete : (delete table key).text =
    "DELETE FROM " ++ quoteName table ++ condition key 1 := rfl

theorem shape_delete : (delete table key).shape =
    keywords ["DELETE", "FROM"] ++ [Lexeme.name .table] ++ conditionShape key 1 := rfl

theorem text_select_none : (select table columns none).text =
    "SELECT " ++ nameList columns ++ " FROM " ++ quoteName table ++ "" := rfl

theorem shape_select_none : (select table columns none).shape =
    [Lexeme.word "SELECT"] ++ columnList columns ++ [Lexeme.word "FROM", .name .table] ++ [] := rfl

theorem text_select_some : (select table columns (some column)).text =
    "SELECT " ++ nameList columns ++ " FROM " ++ quoteName table ++ condition column 1 := rfl

theorem shape_select_some : (select table columns (some column)).shape =
    [Lexeme.word "SELECT"] ++ columnList columns ++ [Lexeme.word "FROM", .name .table] ++
      conditionShape column 1 := rfl

end Parts

/-- The statement is on this table, and an index on a column of it has the name that belongs to the
column. -/
def IsOn (table : String) : Statement → Prop
  | createTable t _ _ | addColumn t _ | insert t _ _ | update t _ _ | delete t _ | select t _ _ =>
    t = table
  | createIndex index t column => index = indexName table column ∧ t = table

end Statement

/-! ### Reading the parts -/

variable {table : String}

@[simp] theorem onTable_append (a b : List (Lexeme NamePlace)) :
    onTable table (a ++ b) = onTable table a ++ onTable table b := by
  simp [onTable]

@[simp] theorem onTable_cons (l : Lexeme NamePlace) (b : List (Lexeme NamePlace)) :
    onTable table (l :: b) = l.map (NamePlace.nameOn table) :: onTable table b := rfl

theorem onTable_separated : ∀ groups : List (List (Lexeme NamePlace)),
    onTable table (separated groups) = separated (groups.map (onTable table))
  | [] => rfl
  | [x] => by simp [separated]
  | x :: y :: groups => by
    have ih := onTable_separated (y :: groups)
    simp only [List.map_cons] at ih ⊢
    simp [separated_cons_cons, ih, Lexeme.map]

theorem reads_columnList (names : List String) :
    Reads (nameList names).toList (onTable table (columnList names)) := by
  rw [columnList, onTable_separated, List.map_map]
  exact reads_nameList names

theorem reads_parameterList (count : Nat) :
    Reads (placeholders count).toList (onTable table (parameterList count)) := by
  rw [parameterList, onTable_separated, List.map_map]
  exact reads_placeholders count

theorem reads_assignmentList (names : List String) :
    Reads (assignments names).toList (onTable table (assignmentList names)) := by
  rw [assignmentList, onTable_separated, List.map_map]
  exact reads_assignments names

theorem onTable_keywords (words : List String) :
    onTable table (keywords words) = words.map .word := by
  simp [onTable, keywords, Lexeme.map]

theorem ColumnDefinition.reads_text (c : ColumnDefinition) :
    Reads c.text.toList (onTable table c.shape) := by
  have hsql : Reads (" ".toList ++ c.storage.sql.toList) [.word c.storage.sql] := by
    cases c.storage <;> decide
  have hidentity : Reads " GENERATED BY DEFAULT AS IDENTITY".toList
      (["GENERATED", "BY", "DEFAULT", "AS", "IDENTITY"].map .word) := by decide
  have hrequired : Reads " NOT NULL".toList (["NOT", "NULL"].map .word) := by decide
  have hshape : onTable table c.shape = [.name c.name] ++ [.word c.storage.sql] ++
      (if c.isIdentity then ["GENERATED", "BY", "DEFAULT", "AS", "IDENTITY"].map .word else []) ++
      (if c.isRequired then ["NOT", "NULL"].map .word else []) := by
    simp only [shape, onTable_append, apply_ite (onTable table), onTable_keywords]
    rfl
  rw [hshape]
  simp only [text, String.toList_append]
  rw [List.append_assoc (quoteName c.name).toList]
  exact (((reads_quoteName c.name).append hsql (startsFree_append (by decide))).append_optional
    hidentity (by decide)).append_optional hrequired (by decide)

namespace Statement

theorem startsFree_condition (column : String) (index : Nat) :
    startsFree (condition column index).toList = true := by
  rw [condition, String.toList_append]
  exact startsFree_append (by decide)

theorem reads_condition (column : String) (index : Nat) :
    Reads (condition column index).toList (onTable table (conditionShape column index)) := by
  have hwhere : Closes " WHERE ".toList [.word "WHERE"] := by decide
  rw [condition, String.toList_append]
  exact hwhere.reads (reads_equality column index)

theorem reads_createTable (columns : List ColumnDefinition) (key : String) :
    Reads (createTable table columns key).text.toList
      (onTable table (createTable table columns key).shape) := by
  have hhead : Closes "CREATE TABLE IF NOT EXISTS ".toList
    (["CREATE", "TABLE", "IF", "NOT", "EXISTS"].map .word) := by decide
  have hopen : Closes " (".toList [.mark '('] := by decide
  have hclose : Reads ")".toList [.mark ')'] := by decide
  have hkey : Reads ("PRIMARY KEY (" ++ quoteName key ++ ")").toList
      [.word "PRIMARY", .word "KEY", .mark '(', .name key, .mark ')'] := by
    have hprimary : Closes "PRIMARY KEY (".toList [.word "PRIMARY", .word "KEY", .mark '('] := by
      decide
    simp only [String.toList_append, List.append_assoc]
    exact hprimary.reads ((reads_quoteName key).append hclose (by decide))
  have hparts := reads_commaSeparated Prod.fst Prod.snd
    (columns.map (fun c => (c.text, onTable table c.shape)) ++ [(_, _)]) fun p hp => by
      rcases List.mem_append.mp hp with hp | hp
      · obtain ⟨c, -, rfl⟩ := List.mem_map.mp hp
        exact c.reads_text
      · rw [List.mem_singleton.mp hp]
        exact hkey
  simp only [List.map_append, List.map_map, Function.comp_def, List.map_cons, List.map_nil]
    at hparts
  rw [text_createTable, shape_createTable]
  simp only [String.toList_append, onTable_append, onTable_separated, List.map_append,
    List.map_map, onTable_keywords, Function.comp_def, List.append_assoc] at hparts ⊢
  exact hhead.reads ((reads_quoteName table).append
    (hopen.reads (hparts.append hclose (by decide))) (startsFree_append (by decide)))

theorem reads_insert (column : String) (columns returning : List String) :
    Reads (insert table (column :: columns) returning).text.toList
      (onTable table (insert table (column :: columns) returning).shape) := by
  have hhead : Closes "INSERT INTO ".toList (["INSERT", "INTO"].map .word) := by decide
  have hopen : Closes " (".toList [.mark '('] := by decide
  have hvalues : Closes ") VALUES (".toList [.mark ')', .word "VALUES", .mark '('] := by decide
  have hreturning : Closes ") RETURNING ".toList [.mark ')', .word "RETURNING"] := by decide
  rw [text_insert_cons, shape_insert_cons]
  simp only [String.toList_append, onTable_append, onTable_keywords, List.append_assoc]
  exact hhead.reads ((reads_quoteName table).append (hopen.reads ((reads_columnList _).append
    (hvalues.reads ((reads_parameterList _).append
      (hreturning.reads (reads_columnList returning)) (startsFree_append (by decide))))
    (startsFree_append (by decide)))) (startsFree_append (by decide)))

/-- **The text of a statement is read as its shape.** -/
theorem reads_text : ∀ s : Statement, s.IsOn table → Reads s.text.toList (onTable table s.shape)
  | createTable _ columns key, rfl => reads_createTable columns key
  | addColumn _ column, rfl => by
    have hhead : Closes "ALTER TABLE ".toList (["ALTER", "TABLE"].map .word) := by decide
    have hadd : Closes " ADD COLUMN IF NOT EXISTS ".toList
      (["ADD", "COLUMN", "IF", "NOT", "EXISTS"].map .word) := by decide
    rw [text_addColumn, shape_addColumn]
    simp only [String.toList_append, onTable_append, onTable_keywords, List.append_assoc]
    exact hhead.reads ((reads_quoteName table).append (hadd.reads column.reads_text)
      (startsFree_append (by decide)))
  | createIndex _ _ column, ⟨rfl, rfl⟩ => by
    have hhead : Closes "CREATE INDEX IF NOT EXISTS ".toList
      (["CREATE", "INDEX", "IF", "NOT", "EXISTS"].map .word) := by decide
    have hon : Closes " ON ".toList [.word "ON"] := by decide
    have hopen : Closes " (".toList [.mark '('] := by decide
    have hclose : Reads ")".toList [.mark ')'] := by decide
    rw [text_createIndex, shape_createIndex]
    simp only [String.toList_append, onTable_append, onTable_keywords, List.append_assoc]
    exact hhead.reads ((reads_quoteName _).append (hon.reads ((reads_quoteName table).append
      (hopen.reads ((reads_quoteName column).append hclose (by decide)))
      (startsFree_append (by decide)))) (startsFree_append (by decide)))
  | insert _ [] returning, rfl => by
    have hhead : Closes "INSERT INTO ".toList (["INSERT", "INTO"].map .word) := by decide
    have hdefault : Closes " DEFAULT VALUES RETURNING ".toList
      (["DEFAULT", "VALUES", "RETURNING"].map .word) := by decide
    rw [text_insert_nil, shape_insert_nil]
    simp only [String.toList_append, onTable_append, onTable_keywords, List.append_assoc]
    exact hhead.reads ((reads_quoteName table).append (hdefault.reads (reads_columnList returning))
      (startsFree_append (by decide)))
  | insert _ (column :: columns) returning, rfl => reads_insert column columns returning
  | update _ columns key, rfl => by
    have hhead : Closes "UPDATE ".toList [.word "UPDATE"] := by decide
    have hset : Closes " SET ".toList [.word "SET"] := by decide
    rw [text_update, shape_update]
    simp only [String.toList_append, onTable_append, List.append_assoc]
    exact hhead.reads ((reads_quoteName table).append (hset.reads
      ((reads_assignmentList columns).append (reads_condition key _) (startsFree_condition key _)))
      (startsFree_append (by decide)))
  | delete _ key, rfl => by
    have hhead : Closes "DELETE FROM ".toList (["DELETE", "FROM"].map .word) := by decide
    rw [text_delete, shape_delete]
    simp only [String.toList_append, onTable_append, onTable_keywords, List.append_assoc]
    exact hhead.reads ((reads_quoteName table).append (reads_condition key 1)
      (startsFree_condition key 1))
  | select _ columns filter, rfl => by
    have hhead : Closes "SELECT ".toList [.word "SELECT"] := by decide
    have hfrom : Closes " FROM ".toList [.word "FROM"] := by decide
    have hrows : Reads ("SELECT " ++ nameList columns ++ " FROM " ++ quoteName table).toList
        (onTable table
          ([.word "SELECT"] ++ columnList columns ++ [.word "FROM", .name .table])) := by
      simp only [String.toList_append, onTable_append, List.append_assoc]
      exact hhead.reads ((reads_columnList columns).append (hfrom.reads (reads_quoteName table))
        (startsFree_append (by decide)))
    cases filter with
    | none =>
      rw [text_select_none, shape_select_none]
      simpa using hrows
    | some column =>
      rw [text_select_some, shape_select_some, String.toList_append, onTable_append]
      exact hrows.append (reads_condition column 1) (startsFree_condition column 1)

end Statement

end EntityTable.Table
