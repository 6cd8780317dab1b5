import EntityTable.Proofs.Table.Statement

/-! # Parameters and their columns

What a statement does with its parameters is read off its tokens. A parameter belongs to a column if
it is compared with it or assigned to it, `"column" = $n`, or if the two stand at the same place of
the lists of an insertion, `("column", …) VALUES ($n, …)`. Main statement: the parameters of a
statement are numbered from one without gaps, and the column of each is the one that the statement
binds at this place (`parameters_shape`, `attachments_shape`). -/

namespace EntityTable.Table

open Sql

variable {ν : Type}

/-! ### Reading tokens -/

/-- The number of a parameter. -/
def parameter? : Lexeme ν → Option Nat
  | .parameter index => some index
  | _ => none

/-- The name in a token. -/
def name? : Lexeme ν → Option ν
  | .name value => some value
  | _ => none

/-- The token is this mark. -/
def isMark (char : Char) : Lexeme ν → Bool
  | .mark c => c == char
  | _ => false

/-- The numbers of all parameters, in order. -/
def parameters (tokens : List (Lexeme ν)) : List Nat := tokens.filterMap parameter?

/-- What comes after tokens of this form, in which any name stands for any other. -/
def after? : List (Lexeme Unit) → List (Lexeme ν) → Option (List (Lexeme ν))
  | [], tokens => some tokens
  | _ :: _, [] => none
  | form :: forms, token :: tokens =>
    if token.map (fun _ => ()) = form then after? forms tokens else none

/-- The parameter that the column in a token is compared with or assigned to, given the tokens after
it. -/
def equality? (token : Lexeme ν) (rest : List (Lexeme ν)) : Option (Nat × ν) := do
  let column ← name? token
  let value ← (← after? [.mark '='] rest).head?
  return (← parameter? value, column)

/-- The parameters that columns are compared with or assigned to. -/
def equalities : List (Lexeme ν) → List (Nat × ν)
  | [] => []
  | token :: rest => (equality? token rest).toList ++ equalities rest

/-- The tokens before the first closing parenthesis. -/
def insideParens (tokens : List (Lexeme ν)) : List (Lexeme ν) :=
  tokens.takeWhile fun token => !isMark ')' token

/-- The tokens after the first closing parenthesis. -/
def afterParens (tokens : List (Lexeme ν)) : List (Lexeme ν) :=
  (tokens.dropWhile fun token => !isMark ')' token).tail

/-- The parameters of an insertion with the columns that stand at their places. -/
def insertions? (tokens : List (Lexeme ν)) : Option (List (Nat × ν)) := do
  let rest ← after? [.word "INSERT", .word "INTO", .name (), .mark '('] tokens
  let values ← after? [.word "VALUES", .mark '('] (afterParens rest)
  return (parameters (insideParens values)).zip ((insideParens rest).filterMap name?)

/-- The parameters of a statement with their columns. -/
def attachments (tokens : List (Lexeme ν)) : List (Nat × ν) :=
  (insertions? tokens).getD [] ++ equalities tokens

/-! ### Lists of groups -/

@[simp] theorem parameters_append (a b : List (Lexeme ν)) :
    parameters (a ++ b) = parameters a ++ parameters b := by
  simp [parameters]

theorem filterMap_separated {α : Type} (f : Lexeme ν → Option α) (hf : f (.mark ',') = none) :
    ∀ groups : List (List (Lexeme ν)),
      (separated groups).filterMap f = groups.flatMap fun g => g.filterMap f
  | [] => rfl
  | [x] => by simp [separated]
  | x :: y :: groups => by
    have ih := filterMap_separated f hf (y :: groups)
    simp [separated_cons_cons, ih, hf]

theorem mem_separated {token : Lexeme ν} : ∀ {groups : List (List (Lexeme ν))},
    token ∈ separated groups → token = .mark ',' ∨ ∃ g ∈ groups, token ∈ g
  | [], h => by simp [separated] at h
  | [x], h => Or.inr ⟨x, by simp, by simpa [separated] using h⟩
  | x :: y :: groups, h => by
    rw [separated_cons_cons, List.mem_append, List.mem_append, List.mem_singleton] at h
    rcases h with (h | h) | h
    · exact Or.inr ⟨x, by simp, h⟩
    · exact Or.inl h
    · rcases mem_separated h with h | ⟨g, hg, h⟩
      · exact Or.inl h
      · exact Or.inr ⟨g, by simp [hg], h⟩

/-- None of the tokens is this mark. -/
def Lacks (char : Char) (tokens : List (Lexeme ν)) : Prop :=
  ∀ token ∈ tokens, isMark char token = false

theorem lacks_append {char : Char} {a b : List (Lexeme ν)} (ha : Lacks char a) (hb : Lacks char b) :
    Lacks char (a ++ b) := fun token ht =>
  (List.mem_append.mp ht).elim (ha token) (hb token)

theorem lacks_cons {char : Char} {token : Lexeme ν} {rest : List (Lexeme ν)}
    (ht : isMark char token = false) (h : Lacks char rest) : Lacks char (token :: rest) := by
  simpa [Lacks] using ⟨ht, h⟩

section Parens
variable {a b : List (Lexeme ν)} (ha : Lacks ')' a)
include ha

theorem insideParens_append : insideParens (a ++ .mark ')' :: b) = a := by
  rw [insideParens, List.takeWhile_append_of_pos fun token ht => by simp [ha token ht]]
  simp [isMark]

theorem afterParens_append : afterParens (a ++ .mark ')' :: b) = b := by
  rw [afterParens, List.dropWhile_append_of_pos fun token ht => by simp [ha token ht]]
  simp [isMark]

end Parens

/-- The parameters of an insertion stand at the places of its columns. -/
theorem insertions?_lists {columns values : List (Lexeme ν)} (hcolumns : Lacks ')' columns)
    (hvalues : Lacks ')' values) (table : ν) (rest : List (Lexeme ν)) :
    insertions? (.word "INSERT" :: .word "INTO" :: .name table :: .mark '(' ::
      (columns ++ .mark ')' :: (.word "VALUES" :: .mark '(' :: (values ++ .mark ')' :: rest)))) =
    some ((parameters values).zip (columns.filterMap name?)) := by
  have hinto (tokens : List (Lexeme ν)) :
      after? [.word "INSERT", .word "INTO", .name (), .mark '(']
        (.word "INSERT" :: .word "INTO" :: .name table :: .mark '(' :: tokens) = some tokens := rfl
  have hgiven (tokens : List (Lexeme ν)) : after? [.word "VALUES", .mark '(']
      (.word "VALUES" :: .mark '(' :: tokens) = some tokens := rfl
  simp only [insertions?, hinto, Option.bind_eq_bind, Option.bind_some, afterParens_append hcolumns,
    insideParens_append hcolumns, hgiven, insideParens_append hvalues, pure]

/-! ### Equalities -/

/-- An equality sign does not come first. -/
def NoSign (tokens : List (Lexeme ν)) : Prop := tokens.head?.any (isMark '=') = false

theorem noSign_cons {token : Lexeme ν} {rest : List (Lexeme ν)} (h : isMark '=' token = false) :
    NoSign (token :: rest) := by
  simpa [NoSign] using h

theorem equality?_of_noSign (token : Lexeme ν) {rest : List (Lexeme ν)} (h : NoSign rest) :
    equality? token rest = none := by
  have hafter : after? [.mark '='] rest = none := by
    cases rest with
    | nil => rfl
    | cons sign rest => cases sign <;> simp_all [after?, NoSign, isMark, Lexeme.map]
  simp [equality?, hafter]

theorem equalities_cons_of_noSign (token : Lexeme ν) {rest : List (Lexeme ν)} (h : NoSign rest) :
    equalities (token :: rest) = equalities rest := by
  rw [equalities, equality?_of_noSign token h]
  rfl

/-- Tokens without an equality sign are passed over. -/
theorem equalities_append_of_lacks : ∀ {a b : List (Lexeme ν)},
    Lacks '=' a → NoSign b → equalities (a ++ b) = equalities b
  | [], _, _, _ => rfl
  | token :: a, b, ha, hb => by
    have hrest : NoSign (a ++ b) := by
      cases a with
      | nil => exact hb
      | cons u a => simpa [NoSign] using ha u (by simp)
    rw [List.cons_append, equalities_cons_of_noSign token hrest]
    exact equalities_append_of_lacks (fun t ht => ha t (List.mem_cons_of_mem _ ht)) hb

theorem equalities_of_lacks {tokens : List (Lexeme ν)} (h : Lacks '=' tokens) :
    equalities tokens = [] := by
  rw [← List.append_nil tokens]
  exact equalities_append_of_lacks h rfl

theorem equalities_columnEquals (name : String) (index : Nat) {rest : List (Lexeme NamePlace)}
    (h : NoSign rest) :
    equalities (columnEquals name index ++ rest) = (index, .column name) :: equalities rest := by
  have hname : equalities (columnEquals name index ++ rest) =
    (index, .column name) :: equalities (.mark '=' :: .parameter index :: rest) := rfl
  rw [hname, equalities_cons_of_noSign _ (noSign_cons rfl), equalities_cons_of_noSign _ h]

theorem noSign_separated (name : String) (index : Nat) (groups : List (List (Lexeme NamePlace)))
    (rest : List (Lexeme NamePlace)) :
    NoSign (separated (columnEquals name index :: groups) ++ rest) := by
  cases groups with
  | nil => rfl
  | cons g groups => rw [separated_cons_cons]; rfl

/-- Assignments numbered from `start` on. -/
theorem equalities_assignments : ∀ (names : List String) (start : Nat)
    {rest : List (Lexeme NamePlace)}, NoSign rest →
    equalities (separated ((names.zipIdx start).map fun p => columnEquals p.1 p.2) ++ rest) =
      ((names.zipIdx start).map fun p => (p.2, NamePlace.column p.1)) ++ equalities rest
  | [], _, _, _ => rfl
  | [name], start, rest, h => by
    simpa [separated] using equalities_columnEquals name start h
  | a :: b :: names, start, rest, h => by
    have ih := equalities_assignments (b :: names) (start + 1) h
    simp only [List.zipIdx_cons, List.map_cons] at ih ⊢
    -- the first assignment gives its equality, and the comma after it none
    rw [separated_cons_cons, List.append_assoc, List.append_assoc, List.singleton_append,
      equalities_columnEquals a start (noSign_cons rfl),
      equalities_cons_of_noSign _ (noSign_separated ..), ih]
    rfl

theorem noSign_assignmentList (names : List String) {rest : List (Lexeme NamePlace)}
    (h : NoSign rest) : NoSign (assignmentList names ++ rest) := by
  cases names with
  | nil => exact h
  | cons name names => exact noSign_separated ..

/-! ### Names in their places -/

section Map
variable {μ : Type} (f : ν → μ)

theorem parameter?_map (token : Lexeme ν) : parameter? (token.map f) = parameter? token := by
  cases token <;> rfl

theorem name?_map (token : Lexeme ν) : name? (token.map f) = (name? token).map f := by
  cases token <;> rfl

theorem isMark_map (char : Char) (token : Lexeme ν) :
    isMark char (token.map f) = isMark char token := by
  cases token <;> rfl

theorem parameters_map (tokens : List (Lexeme ν)) :
    parameters (tokens.map (Lexeme.map f)) = parameters tokens := by
  rw [parameters, parameters, List.filterMap_map]
  exact congrArg (List.filterMap · tokens) (funext (parameter?_map f))

theorem names_map (tokens : List (Lexeme ν)) :
    (tokens.map (Lexeme.map f)).filterMap name? = (tokens.filterMap name?).map f := by
  rw [List.filterMap_map, List.map_filterMap]
  exact congrArg (List.filterMap · tokens) (funext (name?_map f))

theorem insideParens_map (tokens : List (Lexeme ν)) :
    insideParens (tokens.map (Lexeme.map f)) = (insideParens tokens).map (Lexeme.map f) := by
  simp [insideParens, List.takeWhile_map, Function.comp_def, isMark_map]

theorem afterParens_map (tokens : List (Lexeme ν)) :
    afterParens (tokens.map (Lexeme.map f)) = (afterParens tokens).map (Lexeme.map f) := by
  simp [afterParens, List.dropWhile_map, Function.comp_def, isMark_map]

theorem after?_map : ∀ (forms : List (Lexeme Unit)) (tokens : List (Lexeme ν)),
    after? forms (tokens.map (Lexeme.map f)) =
      (after? forms tokens).map (List.map (Lexeme.map f))
  | [], _ => rfl
  | _ :: _, [] => rfl
  | form :: forms, token :: tokens => by
    have hform : (token.map f).map (fun _ => ()) = token.map fun _ => () := by cases token <;> rfl
    rw [List.map_cons, after?, after?, hform, after?_map forms tokens]
    split <;> rfl

theorem equality?_map (token : Lexeme ν) (rest : List (Lexeme ν)) :
    equality? (token.map f) (rest.map (Lexeme.map f)) =
      (equality? token rest).map fun p => (p.1, f p.2) := by
  rw [equality?, equality?, name?_map, after?_map]
  cases name? token with
  | none => rfl
  | some column =>
  cases after? [.mark '='] rest with
  | none => rfl
  | some values =>
  cases values with
  | nil => rfl
  | cons value values => cases value <;> rfl

theorem equalities_map : ∀ tokens : List (Lexeme ν),
    equalities (tokens.map (Lexeme.map f)) = (equalities tokens).map fun p => (p.1, f p.2)
  | [] => rfl
  | token :: rest => by
    rw [List.map_cons, equalities, equalities, equality?_map, equalities_map rest, List.map_append]
    cases equality? token rest <;> rfl

theorem insertions?_map (tokens : List (Lexeme ν)) :
    insertions? (tokens.map (Lexeme.map f)) =
      (insertions? tokens).map (List.map fun p => (p.1, f p.2)) := by
  rw [insertions?, insertions?, after?_map]
  cases after? [.word "INSERT", .word "INTO", .name (), .mark '('] tokens with
  | none => rfl
  | some rest =>
    have hvalues := after?_map f [.word "VALUES", .mark '('] (afterParens rest)
    rw [← afterParens_map] at hvalues
    simp only [Option.map_some, Option.bind_eq_bind, Option.bind_some, hvalues]
    cases after? [.word "VALUES", .mark '('] (afterParens rest) with
    | none => rfl
    | some values =>
      simp only [Option.map_some, Option.bind_some, insideParens_map, parameters_map, names_map,
        List.zip_map_right]
      rfl

theorem attachments_map (tokens : List (Lexeme ν)) :
    attachments (tokens.map (Lexeme.map f)) = (attachments tokens).map fun p => (p.1, f p.2) := by
  rw [attachments, attachments, insertions?_map, equalities_map, List.map_append]
  cases insertions? tokens <;> rfl

end Map

/-! ### Statements -/

/-- A list of columns has commas and columns only. -/
theorem mem_columnList {names : List String} {token : Lexeme NamePlace}
    (h : token ∈ columnList names) : token = .mark ',' ∨ ∃ name, token = .name (.column name) := by
  refine (mem_separated h).imp_right ?_
  rintro ⟨g, hg, ht⟩
  obtain ⟨name, -, rfl⟩ := List.mem_map.mp hg
  exact ⟨name, List.mem_singleton.mp ht⟩

/-- A list of parameters has commas and parameters only. -/
theorem mem_parameterList {count : Nat} {token : Lexeme NamePlace}
    (h : token ∈ parameterList count) : token = .mark ',' ∨ ∃ index, token = .parameter index := by
  refine (mem_separated h).imp_right ?_
  rintro ⟨g, hg, ht⟩
  obtain ⟨index, -, rfl⟩ := List.mem_map.mp hg
  exact ⟨index, List.mem_singleton.mp ht⟩

theorem lacks_columnList {char : Char} (hc : char ≠ ',') (names : List String) :
    Lacks char (columnList names) := by
  intro token ht
  rcases mem_columnList ht with rfl | ⟨name, rfl⟩
  · exact beq_false_of_ne hc.symm
  · rfl

theorem parameters_columnList (names : List String) : parameters (columnList names) = [] := by
  rw [parameters, columnList, filterMap_separated _ rfl]
  simp [List.flatMap_map, parameter?]

theorem names_columnList (names : List String) :
    (columnList names).filterMap name? = names.map .column := by
  rw [columnList, filterMap_separated _ rfl, List.flatMap_map, List.map_eq_flatMap]
  rfl

theorem parameters_assignmentList (names : List String) :
    parameters (assignmentList names) = List.range' 1 names.length := by
  rw [parameters, assignmentList, filterMap_separated _ rfl, List.flatMap_map,
    ← List.zipIdx_map_snd 1 names, List.map_eq_flatMap]
  rfl

theorem parameters_keywords (words : List String) : parameters (keywords words) = [] := by
  simp [parameters, keywords, parameter?]

theorem lacks_keywords (char : Char) (words : List String) : Lacks char (keywords words) := by
  intro token ht
  obtain ⟨word, -, rfl⟩ := List.mem_map.mp ht
  rfl

theorem parameters_parameterList (count : Nat) :
    parameters (parameterList count) = List.range' 1 count := by
  rw [parameters, parameterList, filterMap_separated _ rfl, List.flatMap_map]
  exact List.flatMap_singleton' _

theorem lacks_parameterList {char : Char} (hc : char ≠ ',') (count : Nat) :
    Lacks char (parameterList count) := by
  intro token ht
  rcases mem_parameterList ht with rfl | ⟨index, rfl⟩
  · exact beq_false_of_ne hc.symm
  · rfl

theorem zip_range'_columns : ∀ (names : List String) (start : Nat),
    (List.range' start names.length).zip (names.map NamePlace.column) =
      (names.zipIdx start).map fun p => (p.2, NamePlace.column p.1)
  | [], _ => rfl
  | name :: names, start => by
    simp [List.range'_succ, zip_range'_columns names (start + 1)]

namespace Statement

/-- The columns of the values that a statement is given, in order. -/
def bound : Statement → List String
  | createTable .. | addColumn .. | createIndex .. => []
  | insert _ columns _ => columns
  | update _ columns key => columns ++ [key]
  | delete _ key => [key]
  | select _ _ filter => filter.toList

/-- The statement makes or changes a table. -/
def isDefinition : Statement → Bool
  | createTable .. | addColumn .. | createIndex .. => true
  | _ => false

/-- The shape of an insertion that is given values. -/
theorem shape_insert {columns : List String} (h : columns ≠ []) (table : String)
    (returning : List String) :
    (insert table columns returning).shape = keywords ["INSERT", "INTO"] ++ [.name .table,
      .mark '('] ++ (columnList columns ++ .mark ')' :: (.word "VALUES" :: .mark '(' ::
        (parameterList columns.length ++ .mark ')' :: (.word "RETURNING" ::
          columnList returning)))) := by
  obtain ⟨column, columns, rfl⟩ := List.exists_cons_of_ne_nil h
  rw [shape_insert_cons]
  simp

/-- **The parameters of a statement are numbered from one on.** -/
theorem parameters_shape : ∀ s : Statement, s.isDefinition = false →
    parameters s.shape = List.range' 1 s.bound.length
  | insert table [] returning, _ => by
    rw [shape_insert_nil]
    simp only [parameters_append, parameters_keywords, parameters_columnList]
    rfl
  | insert table (column :: columns) returning, _ => by
    rw [shape_insert_cons]
    simp only [parameters_append, parameters_keywords, parameters_columnList,
      parameters_parameterList]
    exact (List.append_nil _).trans (List.append_nil _)
  | update table columns key, _ => by
    have hcondition : parameters (conditionShape key (columns.length + 1)) =
      [columns.length + 1] := rfl
    rw [shape_update, parameters_append, parameters_append, parameters_assignmentList, hcondition,
      bound, List.length_append, List.length_singleton, List.range'_1_concat, Nat.add_comm 1]
    rfl
  | delete table key, _ => rfl
  | select table columns none, _ => by
    rw [shape_select_none]
    simp only [parameters_append, parameters_columnList]
    rfl
  | select table columns (some column), _ => by
    rw [shape_select_some]
    simp only [parameters_append, parameters_columnList]
    rfl

theorem insertions?_insert {columns : List String} (h : columns ≠ []) (table : String)
    (returning : List String) :
    insertions? (insert table columns returning).shape =
      some ((columns.zipIdx 1).map fun p => (p.2, NamePlace.column p.1)) := by
  rw [shape_insert h, ← zip_range'_columns, ← parameters_parameterList, ← names_columnList]
  exact insertions?_lists (lacks_columnList (by decide) columns)
    (lacks_parameterList (by decide) columns.length) _ _

theorem lacks_insert (table : String) (columns returning : List String) :
    Lacks '=' (insert table columns returning).shape := by
  have hreturning : Lacks '=' (columnList returning) := lacks_columnList (by decide) returning
  cases columns with
  | nil =>
    have htable : Lacks '=' ([.name .table] : List (Lexeme NamePlace)) := by unfold Lacks; decide
    exact lacks_append (lacks_append (lacks_append (lacks_keywords _ _) htable)
      (lacks_keywords _ _)) hreturning
  | cons column columns =>
    have hcolumns : Lacks '=' (columnList (column :: columns)) := lacks_columnList (by decide) _
    have hparameters : Lacks '=' (parameterList (column :: columns).length) :=
      lacks_parameterList (by decide) _
    rw [shape_insert (by simp)]
    have hinto : Lacks '=' ([.name .table, .mark '('] : List (Lexeme NamePlace)) := by
      unfold Lacks; decide
    refine lacks_append (lacks_append (lacks_keywords _ _) hinto) (lacks_append hcolumns ?_)
    refine lacks_cons rfl (lacks_cons rfl (lacks_cons rfl (lacks_append hparameters ?_)))
    exact lacks_cons rfl (lacks_cons rfl hreturning)

/-- **Each parameter belongs to the column that is bound at its place.** -/
theorem attachments_shape : ∀ s : Statement, s.isDefinition = false →
    attachments s.shape = (s.bound.zipIdx 1).map fun p => (p.2, NamePlace.column p.1)
  | insert table [] returning, _ => by
    rw [attachments, equalities_of_lacks (lacks_insert table [] returning)]
    rfl
  | insert table (column :: columns) returning, _ => by
    rw [attachments, equalities_of_lacks (lacks_insert table _ returning), List.append_nil]
    rw [insertions?_insert (by simp)]
    rfl
  | update table columns key, _ => by
    have hhead : Lacks '=' ([.word "UPDATE", .name .table, .word "SET"] :
        List (Lexeme NamePlace)) := by
      unfold Lacks; decide
    have hwhere : NoSign (conditionShape key (columns.length + 1)) := noSign_cons rfl
    rw [attachments, shape_update, List.append_assoc,
      equalities_append_of_lacks hhead (noSign_assignmentList columns hwhere), assignmentList,
      equalities_assignments columns 1 hwhere, bound, List.zipIdx_append, List.map_append,
      Nat.add_comm 1]
    rfl
  | delete table key, _ => rfl
  | select table columns filter, _ => by
    have hrows : Lacks '=' ([.word "SELECT"] ++ columnList columns ++
        [.word "FROM", .name .table]) := by
      have hselect : Lacks '=' ([.word "SELECT"] : List (Lexeme NamePlace)) := by
        unfold Lacks; decide
      have hfrom : Lacks '=' ([.word "FROM", .name .table] : List (Lexeme NamePlace)) := by
        unfold Lacks; decide
      exact lacks_append (lacks_append hselect (lacks_columnList (by decide) columns)) hfrom
    cases filter with
    | none =>
      rw [attachments, shape_select_none, List.append_nil, equalities_of_lacks hrows]
      rfl
    | some column =>
      have hwhere : NoSign (conditionShape column 1) := noSign_cons rfl
      rw [attachments, shape_select_some, equalities_append_of_lacks hrows hwhere]
      rfl

end Statement

end EntityTable.Table
