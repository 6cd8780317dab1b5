import EntityTable.Proofs.Table.Parameters

/-! # The column lists of a statement

Which columns a statement writes and which it returns is read off its tokens, by the keywords around
the lists. A statement returns the columns between `SELECT` and `FROM` or those after `RETURNING`
(`resultColumns_shape`), an insertion has the columns in its parentheses or default values only
(`insertedColumns_shape`, `insertsDefaults_shape`), and an update has the columns between `SET` and
`WHERE` (`assignedColumns_update`). -/

namespace EntityTable.Table

open Sql

variable {ν : Type}

/-! ### Reading tokens -/

/-- The token is this keyword. -/
def isWord (word : String) : Lexeme ν → Bool
  | .word w => w == word
  | _ => false

/-- The tokens before the first keyword of this spelling. -/
def beforeWord (word : String) (tokens : List (Lexeme ν)) : List (Lexeme ν) :=
  tokens.takeWhile fun token => !isWord word token

/-- The tokens after the first keyword of this spelling. -/
def afterWord (word : String) (tokens : List (Lexeme ν)) : List (Lexeme ν) :=
  (tokens.dropWhile fun token => !isWord word token).tail

/-- The columns of the rows that a statement returns. -/
def resultColumns (tokens : List (Lexeme ν)) : List ν :=
  match after? [.word "SELECT"] tokens with
  | some rest => (beforeWord "FROM" rest).filterMap name?
  | none => (afterWord "RETURNING" tokens).filterMap name?

/-- The columns that an insertion gives values for. -/
def insertedColumns (tokens : List (Lexeme ν)) : List ν :=
  match after? [.word "INSERT", .word "INTO", .name (), .mark '('] tokens with
  | some rest => (insideParens rest).filterMap name?
  | none => []

/-- The statement inserts a row of default values. -/
def insertsDefaults (tokens : List (Lexeme ν)) : Bool :=
  (after? [.word "INSERT", .word "INTO", .name (), .word "DEFAULT", .word "VALUES"] tokens).isSome

/-- The columns that an update writes. -/
def assignedColumns (tokens : List (Lexeme ν)) : List ν :=
  (beforeWord "WHERE" (afterWord "SET" tokens)).filterMap name?

/-! ### Lists without a keyword -/

/-- None of the tokens is this keyword. -/
def LacksWord (word : String) (tokens : List (Lexeme ν)) : Prop :=
  ∀ token ∈ tokens, isWord word token = false

section Words
variable {word : String} {a b : List (Lexeme ν)}

theorem beforeWord_append (ha : LacksWord word a) : beforeWord word (a ++ .word word :: b) = a := by
  rw [beforeWord, List.takeWhile_append_of_pos fun token ht => by simp [ha token ht]]
  simp [isWord]

theorem afterWord_append (ha : LacksWord word a) : afterWord word (a ++ .word word :: b) = b := by
  rw [afterWord, List.dropWhile_append_of_pos fun token ht => by simp [ha token ht]]
  simp [isWord]

theorem afterWord_of_lacks (ha : LacksWord word a) : afterWord word a = [] := by
  have hall : (a ++ []).dropWhile (fun token => !isWord word token) = [] :=
    List.dropWhile_append_of_pos fun token ht => by simp [ha token ht]
  rw [List.append_nil] at hall
  rw [afterWord, hall]
  rfl

end Words

theorem lacksWord_columnList (word : String) (names : List String) :
    LacksWord word (columnList names) := by
  intro token ht
  rcases mem_columnList ht with rfl | ⟨name, rfl⟩ <;> rfl

theorem lacksWord_parameterList (word : String) (count : Nat) :
    LacksWord word (parameterList count) := by
  intro token ht
  rcases mem_parameterList ht with rfl | ⟨index, rfl⟩ <;> rfl

theorem lacksWord_assignmentList (word : String) (names : List String) :
    LacksWord word (assignmentList names) := by
  intro token ht
  rcases mem_separated ht with rfl | ⟨g, hg, ht⟩
  · rfl
  · obtain ⟨p, -, rfl⟩ := List.mem_map.mp hg
    simp only [columnEquals, List.mem_cons, List.not_mem_nil, or_false] at ht
    rcases ht with rfl | rfl | rfl <;> rfl

theorem lacksWord_conditionShape {word : String} (hword : word ≠ "WHERE") (column : String)
    (index : Nat) : LacksWord word (Statement.conditionShape column index) := by
  intro token ht
  simp only [Statement.conditionShape, columnEquals, List.mem_cons, List.not_mem_nil, or_false]
    at ht
  rcases ht with rfl | rfl | rfl | rfl
  · exact beq_false_of_ne hword.symm
  · rfl
  · rfl
  · rfl

theorem names_assignmentList (names : List String) :
    (assignmentList names).filterMap name? = names.map .column := by
  have hnames : names.map NamePlace.column =
      (names.zipIdx 1).flatMap fun p => [NamePlace.column p.1] :=
    calc names.map NamePlace.column = ((names.zipIdx 1).map Prod.fst).map .column := by
          rw [List.zipIdx_map_fst]
      _ = _ := by
          rw [List.map_map, List.map_eq_flatMap]
          rfl
  rw [assignmentList, filterMap_separated _ rfl, List.flatMap_map, hnames]
  rfl

/-! ### Names in their places -/

section Map
variable {μ : Type} (f : ν → μ)

theorem isWord_map (word : String) (token : Lexeme ν) :
    isWord word (token.map f) = isWord word token := by
  cases token <;> rfl

theorem beforeWord_map (word : String) (tokens : List (Lexeme ν)) :
    beforeWord word (tokens.map (Lexeme.map f)) = (beforeWord word tokens).map (Lexeme.map f) := by
  simp [beforeWord, List.takeWhile_map, Function.comp_def, isWord_map]

theorem afterWord_map (word : String) (tokens : List (Lexeme ν)) :
    afterWord word (tokens.map (Lexeme.map f)) = (afterWord word tokens).map (Lexeme.map f) := by
  simp [afterWord, List.dropWhile_map, Function.comp_def, isWord_map]

theorem resultColumns_map (tokens : List (Lexeme ν)) :
    resultColumns (tokens.map (Lexeme.map f)) = (resultColumns tokens).map f := by
  rw [resultColumns, resultColumns, after?_map, afterWord_map]
  cases after? [.word "SELECT"] tokens with
  | none => exact names_map f _
  | some rest => exact (congrArg _ (beforeWord_map f _ rest)).trans (names_map f _)

theorem insertedColumns_map (tokens : List (Lexeme ν)) :
    insertedColumns (tokens.map (Lexeme.map f)) = (insertedColumns tokens).map f := by
  rw [insertedColumns, insertedColumns, after?_map]
  cases after? [.word "INSERT", .word "INTO", .name (), .mark '('] tokens with
  | none => rfl
  | some rest => exact (congrArg _ (insideParens_map f rest)).trans (names_map f _)

theorem insertsDefaults_map (tokens : List (Lexeme ν)) :
    insertsDefaults (tokens.map (Lexeme.map f)) = insertsDefaults tokens := by
  rw [insertsDefaults, insertsDefaults, after?_map, Option.isSome_map]

theorem assignedColumns_map (tokens : List (Lexeme ν)) :
    assignedColumns (tokens.map (Lexeme.map f)) = (assignedColumns tokens).map f := by
  rw [assignedColumns, assignedColumns, afterWord_map, beforeWord_map, names_map]

end Map

/-! ### Statements -/

namespace Statement

/-- The columns of the rows that a statement returns. -/
def results : Statement → List String
  | insert _ _ returning => returning
  | select _ columns _ => columns
  | _ => []

theorem afterWord_returning (table : String) : ∀ columns returning : List String,
    afterWord "RETURNING" (insert table columns returning).shape = columnList returning
  | [], _ => rfl
  | column :: columns, returning => by
    -- All that comes before the keyword is listed, since only the first one of it is looked for.
    have hhead : LacksWord "RETURNING" (keywords ["INSERT", "INTO"] ++ [.name .table, .mark '('] ++
        columnList (column :: columns) ++ [.mark ')', .word "VALUES", .mark '('] ++
        parameterList (column :: columns).length ++ [.mark ')']) := by
      simp only [LacksWord, List.forall_mem_append]
      exact ⟨⟨⟨⟨⟨by decide, by decide⟩, lacksWord_columnList _ _⟩, by decide⟩,
        lacksWord_parameterList _ _⟩, by decide⟩
    rw [← afterWord_append (b := columnList returning) hhead, shape_insert_cons]
    simp only [List.append_assoc, List.cons_append, List.nil_append]

/-- **The rows that a statement returns have the columns that it lists.** -/
theorem resultColumns_shape : ∀ st : Statement, st.isDefinition = false →
    resultColumns st.shape = st.results.map .column
  | insert table columns returning, _ => by
    have hselect : after? [.word "SELECT"] (insert table columns returning).shape = none := by
      cases columns <;> rfl
    rw [resultColumns, hselect]
    exact (congrArg _ (afterWord_returning table columns returning)).trans
      (names_columnList returning)
  | select table columns filter, _ => by
    have hselect (condition : List (Lexeme NamePlace)) : after? [.word "SELECT"]
        ([.word "SELECT"] ++ columnList columns ++ [.word "FROM", .name .table] ++ condition) =
        some (columnList columns ++ .word "FROM" :: (.name .table :: condition)) := by
      simp only [List.append_assoc, List.cons_append, List.nil_append]
      rfl
    have hcolumns (condition : List (Lexeme NamePlace)) : resultColumns
        ([.word "SELECT"] ++ columnList columns ++ [.word "FROM", .name .table] ++ condition) =
        columns.map .column := by
      rw [resultColumns, hselect]
      exact (congrArg _ (beforeWord_append (lacksWord_columnList "FROM" columns))).trans
        (names_columnList columns)
    cases filter with
    | none => exact hcolumns []
    | some column => exact hcolumns (conditionShape column 1)
  | update table columns key, _ => by
    have hnone : LacksWord "RETURNING" (update table columns key).shape := by
      simp only [shape_update, LacksWord, List.forall_mem_append]
      exact ⟨⟨by decide, lacksWord_assignmentList _ _⟩, lacksWord_conditionShape (by decide) _ _⟩
    have hselect : after? [.word "SELECT"] (update table columns key).shape = none := rfl
    rw [resultColumns, hselect]
    exact congrArg (List.filterMap name?) (afterWord_of_lacks hnone)
  | delete table key, _ => rfl

theorem after?_insert {columns : List String} (h : columns ≠ []) (table : String)
    (returning : List String) :
    ∃ rest, after? [.word "INSERT", .word "INTO", .name (), .mark '(']
      (insert table columns returning).shape = some (columnList columns ++ .mark ')' :: rest) := by
  rw [shape_insert h]
  exact ⟨_, rfl⟩

/-- **An insertion gives values for the columns that it lists.** -/
theorem insertedColumns_shape (table : String) (columns returning : List String) :
    insertedColumns (insert table columns returning).shape = columns.map .column := by
  cases columns with
  | nil => rfl
  | cons column columns =>
    obtain ⟨rest, hrest⟩ := after?_insert (List.cons_ne_nil column columns) table returning
    rw [insertedColumns, hrest]
    exact (congrArg _ (insideParens_append (lacks_columnList (by decide) _))).trans
      (names_columnList _)

/-- **Default values stand alone exactly if there are no columns to give values for.** -/
theorem insertsDefaults_shape (table : String) (columns returning : List String) :
    insertsDefaults (insert table columns returning).shape = true ↔ columns = [] := by
  cases columns with
  | nil => exact ⟨fun _ => rfl, fun _ => rfl⟩
  | cons column columns => exact ⟨nofun, nofun⟩

/-- **An update writes the columns that it lists.** -/
theorem assignedColumns_update (table : String) (columns : List String) (key : String) :
    assignedColumns (update table columns key).shape = columns.map .column := by
  have hset : afterWord "SET" (update table columns key).shape =
      assignmentList columns ++ .word "WHERE" :: columnEquals key (columns.length + 1) := rfl
  rw [assignedColumns, hset, beforeWord_append (lacksWord_assignmentList "WHERE" columns),
    names_assignmentList]

/-! ### Statements on a table -/

section Table
variable (table : String)

theorem map_nameOn (columns : List String) :
    (columns.map NamePlace.column).map (NamePlace.nameOn table) = columns := by
  rw [List.map_map]
  exact List.map_id columns

theorem resultColumns_onTable {st : Statement} (h : st.isDefinition = false) :
    resultColumns (onTable table st.shape) = st.results := by
  rw [onTable, resultColumns_map, resultColumns_shape st h, map_nameOn]

theorem insertedColumns_onTable (name : String) (columns returning : List String) :
    insertedColumns (onTable table (insert name columns returning).shape) = columns := by
  rw [onTable, insertedColumns_map, insertedColumns_shape, map_nameOn]

theorem insertsDefaults_onTable (name : String) (columns returning : List String) :
    insertsDefaults (onTable table (insert name columns returning).shape) = true ↔
      columns = [] := by
  rw [onTable, insertsDefaults_map, insertsDefaults_shape]

theorem assignedColumns_onTable (name : String) (columns : List String) (key : String) :
    assignedColumns (onTable table (update name columns key).shape) = columns := by
  rw [onTable, assignedColumns_map, assignedColumns_update, map_nameOn]

end Table

end Statement

end EntityTable.Table
