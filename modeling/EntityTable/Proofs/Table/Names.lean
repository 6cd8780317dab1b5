import EntityTable.Proofs.Table.Parameters

/-! # The names in a statement

The names in the shape of a statement are the table, columns and indexes on columns, and the columns
are those that the statement is made with (`Statement.namesIn_shape`). -/

namespace EntityTable.Table

open Sql

/-- The place is the table, a column with one of the names, or the index on one. -/
def NamePlace.IsOf (names : List String) : NamePlace → Prop
  | .table => True
  | .column name | .index name => name ∈ names

/-- All names among the tokens are the table, these columns or indexes on them. -/
def NamesIn (names : List String) (tokens : List (Lexeme NamePlace)) : Prop :=
  ∀ place, .name place ∈ tokens → place.IsOf names

/-- The statement is made with these columns only. -/
def Statement.Mentions (names : List String) : Statement → Prop
  | createTable _ columns key => (∀ c ∈ columns, c.name ∈ names) ∧ key ∈ names
  | addColumn _ column => column.name ∈ names
  | createIndex _ _ column => column ∈ names
  | insert _ columns returning => (∀ c ∈ columns, c ∈ names) ∧ ∀ c ∈ returning, c ∈ names
  | update _ columns key => (∀ c ∈ columns, c ∈ names) ∧ key ∈ names
  | delete _ key => key ∈ names
  | select _ columns filter => (∀ c ∈ columns, c ∈ names) ∧ ∀ c ∈ filter, c ∈ names

/-! ### Pieces of a shape -/

variable {names : List String}

theorem namesIn_nil : NamesIn names [] := fun _ h => nomatch h

theorem namesIn_append {a b : List (Lexeme NamePlace)} (ha : NamesIn names a)
    (hb : NamesIn names b) : NamesIn names (a ++ b) := fun place h =>
  (List.mem_append.mp h).elim (ha place) (hb place)

theorem namesIn_name {place : NamePlace} {rest : List (Lexeme NamePlace)} (h : place.IsOf names)
    (hrest : NamesIn names rest) : NamesIn names (.name place :: rest) := fun other hother => by
  rcases List.mem_cons.mp hother with heq | hother
  · cases heq
    exact h
  · exact hrest other hother

theorem namesIn_cons {token : Lexeme NamePlace} {rest : List (Lexeme NamePlace)}
    (h : name? token = none) (hrest : NamesIn names rest) : NamesIn names (token :: rest) :=
  fun place hplace => by
    rcases List.mem_cons.mp hplace with rfl | hplace
    · cases h
    · exact hrest place hplace

theorem namesIn_keywords (words : List String) : NamesIn names (keywords words) := fun place h => by
  obtain ⟨word, -, hword⟩ := List.mem_map.mp h
  cases hword

theorem namesIn_separated {groups : List (List (Lexeme NamePlace))}
    (h : ∀ g ∈ groups, NamesIn names g) : NamesIn names (separated groups) := fun place hplace => by
  rcases mem_separated hplace with heq | ⟨g, hg, hplace⟩
  · cases heq
  · exact h g hg place hplace

theorem namesIn_columnList {columns : List String} (h : ∀ c ∈ columns, c ∈ names) :
    NamesIn names (columnList columns) := by
  refine namesIn_separated fun g hg => ?_
  obtain ⟨column, hcolumn, rfl⟩ := List.mem_map.mp hg
  exact namesIn_name (h column hcolumn) namesIn_nil

theorem namesIn_parameterList (count : Nat) : NamesIn names (parameterList count) := by
  refine namesIn_separated fun g hg => ?_
  obtain ⟨index, -, rfl⟩ := List.mem_map.mp hg
  exact namesIn_cons rfl namesIn_nil

theorem namesIn_columnEquals {column : String} (h : column ∈ names) (index : Nat) :
    NamesIn names (columnEquals column index) :=
  namesIn_name h (namesIn_cons rfl (namesIn_cons rfl namesIn_nil))

theorem namesIn_assignmentList {columns : List String} (h : ∀ c ∈ columns, c ∈ names) :
    NamesIn names (assignmentList columns) := by
  refine namesIn_separated fun g hg => ?_
  obtain ⟨p, hp, rfl⟩ := List.mem_map.mp hg
  exact namesIn_columnEquals (h p.1 (List.fst_mem_of_mem_zipIdx hp)) p.2

theorem ColumnDefinition.namesIn_shape {c : ColumnDefinition} (h : c.name ∈ names) :
    NamesIn names c.shape := by
  refine namesIn_append (namesIn_append (namesIn_name h (namesIn_cons rfl namesIn_nil)) ?_) ?_ <;>
    split
  · exact namesIn_keywords _
  · exact namesIn_nil
  · exact namesIn_keywords _
  · exact namesIn_nil

/-! ### Statements -/

namespace Statement

theorem namesIn_conditionShape {column : String} (h : column ∈ names) (index : Nat) :
    NamesIn names (conditionShape column index) :=
  namesIn_cons rfl (namesIn_columnEquals h index)

/-- **The names in a statement are its table, its columns and indexes on them.** -/
theorem namesIn_shape : ∀ {s : Statement}, s.Mentions names → NamesIn names s.shape
  | createTable table columns key, h => by
    have htable : NamesIn names [.name .table, .mark '('] :=
      namesIn_name trivial (namesIn_cons rfl namesIn_nil)
    rw [shape_createTable]
    refine namesIn_append (namesIn_append (namesIn_append (namesIn_keywords _) htable)
      (namesIn_separated fun g hg => ?_)) (namesIn_cons rfl namesIn_nil)
    rcases List.mem_append.mp hg with hg | hg
    · obtain ⟨c, hc, rfl⟩ := List.mem_map.mp hg
      exact c.namesIn_shape (h.1 c hc)
    · rw [List.mem_singleton.mp hg]
      exact namesIn_append (namesIn_keywords _)
        (namesIn_cons rfl (namesIn_name h.2 (namesIn_cons rfl namesIn_nil)))
  | addColumn table column, h => by
    rw [shape_addColumn]
    exact namesIn_append (namesIn_append (namesIn_append (namesIn_keywords _)
      (namesIn_name trivial namesIn_nil)) (namesIn_keywords _)) (column.namesIn_shape h)
  | createIndex index table column, h => by
    rw [shape_createIndex]
    refine namesIn_append (namesIn_keywords _) (namesIn_name h (namesIn_cons rfl ?_))
    exact namesIn_name trivial (namesIn_cons rfl (namesIn_name h (namesIn_cons rfl namesIn_nil)))
  | insert table [] returning, h => by
    rw [shape_insert_nil]
    exact namesIn_append (namesIn_append (namesIn_append (namesIn_keywords _)
      (namesIn_name trivial namesIn_nil)) (namesIn_keywords _)) (namesIn_columnList h.2)
  | insert table (column :: columns) returning, h => by
    rw [shape_insert (List.cons_ne_nil column columns)]
    have htable : NamesIn names [.name .table, .mark '('] :=
      namesIn_name trivial (namesIn_cons rfl namesIn_nil)
    have hreturning : NamesIn names (.mark ')' :: .word "RETURNING" :: columnList returning) :=
      namesIn_cons rfl (namesIn_cons rfl (namesIn_columnList h.2))
    refine namesIn_append (namesIn_append (namesIn_keywords _) htable)
      (namesIn_append (namesIn_columnList h.1) ?_)
    refine namesIn_cons rfl (namesIn_cons rfl (namesIn_cons rfl ?_))
    exact namesIn_append (namesIn_parameterList _) hreturning
  | update table columns key, h => by
    rw [shape_update]
    have htable : NamesIn names [.word "UPDATE", .name .table, .word "SET"] :=
      namesIn_cons rfl (namesIn_name trivial (namesIn_cons rfl namesIn_nil))
    exact namesIn_append (namesIn_append htable (namesIn_assignmentList h.1))
      (namesIn_conditionShape h.2 _)
  | delete table key, h => by
    rw [shape_delete]
    exact namesIn_append (namesIn_append (namesIn_keywords _) (namesIn_name trivial namesIn_nil))
      (namesIn_conditionShape h 1)
  | select table columns filter, h => by
    have hrows : NamesIn names ([.word "SELECT"] ++ columnList columns ++
        [.word "FROM", .name .table]) :=
      namesIn_append (namesIn_append (namesIn_cons rfl namesIn_nil) (namesIn_columnList h.1))
        (namesIn_cons rfl (namesIn_name trivial namesIn_nil))
    cases filter with
    | none =>
      rw [shape_select_none]
      exact namesIn_append hrows namesIn_nil
    | some column =>
      rw [shape_select_some]
      exact namesIn_append hrows (namesIn_conditionShape (h.2 column rfl) 1)

end Statement

end EntityTable.Table
