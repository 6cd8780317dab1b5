import EntityTable.Proofs.Table.Parameters
import EntityTable.Proofs.Table.Planned
import EntityTable.Proofs.Table.Query

/-! # What is bound to the parameters

An operation that runs a statement binds one value to each of its parameters. `PlannedTable.bound`
lists the columns of these values and `OperationKind.encode` the expression for a value of a column;
`PlannedTable.Runs` says that the statement, the bound values and the listed fields of an operation
all follow this list. Each operation is shown to do so, and then the text of its statement and the
tree of its method, which are made independently, agree on every parameter (`Operation.Binds`). -/

namespace EntityTable.Table

open Source Sql
open Column (MappingError Plans)
open Entity (Description Schema StoredField article)

/-- The expression that an operation stores a value of a column by: the field of the entity that it
is given, or the key. -/
def OperationKind.encode : OperationKind → PlannedField → Except MappingError Expr
  | create | update => PlannedField.encodeEntity
  | _ => PlannedField.encodeKey

namespace PlannedTable

/-- The columns of the fields that an operation is given values of. -/
def operands (t : PlannedTable) : OperationKind → List PlannedField
  | .create => t.inserted
  | .update => t.columns
  | .delete | .get => [t.key]
  | .getBy field => t.columns.filter fun c => c.name == field
  | _ => []

/-- The columns of the values that an operation binds, in order. An update ends with the key. -/
def bound (t : PlannedTable) : OperationKind → List PlannedField
  | .update => t.columns ++ [t.key]
  | kind => t.operands kind

/-- The operations that there are, in order. -/
def kinds (t : PlannedTable) : List OperationKind :=
  [OperationKind.save, .create, .update, .delete, .get, .getAll] ++
    t.lookups.map (fun c => OperationKind.getBy c.name) ++ [OperationKind.transform]

/-- The statement that an operation runs. -/
def statement? (t : PlannedTable) : OperationKind → Option Statement
  | .create => some (.insert t.tableName (t.inserted.map fun c => c.plan.column) t.columnNames)
  | .update => some (.update t.tableName t.columnNames t.keyColumn)
  | .delete => some (.delete t.tableName t.keyColumn)
  | .get => some (t.selection (some t.keyColumn))
  | .getAll => some (t.selection none)
  | .getBy field => some (t.selection (some field))
  | _ => none

/-- The operation runs one query, whose statement and columns belong to its kind. -/
structure Runs (t : PlannedTable) (o : Operation) (q : Query) : Prop where
  query : o.query = some q
  method : itemQueries o.method = [(Literal.quote q.statement.text, q.binds)]
  statement : t.statement? o.kind = some q.statement
  bound : q.statement.bound = (t.bound o.kind).map fun c => c.plan.column
  binds : (t.bound o.kind).mapM o.kind.encode = .ok q.binds
  fields : o.fields = namesOf (t.operands o.kind)

end PlannedTable

/-- The parameters of the statement are those of the values that the method binds, and each belongs
to the column of the value. -/
def Operation.Binds (o : Operation) (columns : List PlannedField) (sql : String) : Prop :=
  ∃ tokens binds, lexemes sql = some tokens ∧
    itemQueries o.method = [(Literal.quote sql, binds)] ∧
    columns.mapM o.kind.encode = .ok binds ∧
    parameters tokens = List.range' 1 binds.length ∧
    attachments tokens = (columns.zipIdx 1).map fun p => (p.2, p.1.name)

/-! ### The operations -/

namespace PlannedTable

variable {t : PlannedTable} {s : Schema} {plans : Plans} {o : Operation}

theorem isOn_statement? {kind : OperationKind} {st : Statement}
    (h : t.statement? kind = some st) : st.IsOn t.tableName ∧ st.isDefinition = false := by
  cases kind <;> cases h <;> exact ⟨rfl, rfl⟩

/-- The query of a body that opens the transaction, runs it and goes on without another. -/
theorem filterMap_body {after : List Stmt} {stmt : Stmt} {read : String × List Expr}
    (hstmt : stmtQuery? stmt = some read) (hafter : after.filterMap stmtQuery? = []) :
    (beginStmt :: stmt :: after).filterMap stmtQuery? = [read] := by
  have hbegin : stmtQuery? beginStmt = none := rfl
  rw [List.filterMap_cons_none hbegin, List.filterMap_cons_some hstmt, hafter]

theorem queries_ofKind {kind : OperationKind} {fields : List String} {query : Option Query}
    {docs : List Attribute} {params : List FnParam} {value : Ty} {after : List Stmt} {stmt : Stmt}
    {read : String × List Expr} (hstmt : stmtQuery? stmt = some read)
    (hafter : after.filterMap stmtQuery? = []) :
    itemQueries (Operation.ofKind kind fields query docs params value
      (beginStmt :: stmt :: after)).method = [read] := by
  change (beginStmt :: stmt :: after).filterMap stmtQuery? = [read]
  exact filterMap_body hstmt hafter

theorem stmtQuery?_bind (pat : Pat) (q : Query) (executor : String) (h : executor ≠ "bind") :
    stmtQuery? (.bind pat (q.run executor)) = some (Literal.quote q.statement.text, q.binds) :=
  query?_run q h

theorem stmtQuery?_run (q : Query) (executor : String) (h : executor ≠ "bind") :
    stmtQuery? (.run (q.run executor)) = some (Literal.quote q.statement.text, q.binds) :=
  query?_run q h

theorem runs_create (h : t.create = .ok o) : o.kind = .create ∧ ∃ q, t.Runs o q := by
  obtain ⟨q, hq, h⟩ := bind_eq_ok.mp h
  obtain ⟨binds, hbinds, hq⟩ := bind_eq_ok.mp hq
  cases h
  cases hq
  refine ⟨rfl, _, rfl, ?_, rfl, rfl, hbinds, rfl⟩
  exact queries_ofKind (stmtQuery?_bind _ _ "fetch_optional" (by decide)) rfl

theorem runs_update (h : t.update = .ok o) : o.kind = .update ∧ ∃ q, t.Runs o q := by
  obtain ⟨q, hq, h⟩ := bind_eq_ok.mp h
  obtain ⟨binds, hbinds, hq⟩ := bind_eq_ok.mp hq
  obtain ⟨key, hkey, hq⟩ := bind_eq_ok.mp hq
  cases h
  cases hq
  refine ⟨rfl, _, rfl, ?_, rfl, ?_, mapM_append_singleton hbinds hkey, rfl⟩
  · exact queries_ofKind (stmtQuery?_run _ "execute" (by decide)) rfl
  · change t.columnNames ++ [t.keyColumn] = (t.columns ++ [t.key]).map fun c => c.plan.column
    rw [List.map_append]
    rfl

theorem runs_delete (h : t.delete = .ok o) : o.kind = .delete ∧ ∃ q, t.Runs o q := by
  obtain ⟨q, hq, h⟩ := bind_eq_ok.mp h
  obtain ⟨key, hkey, hq⟩ := bind_eq_ok.mp hq
  cases h
  cases hq
  refine ⟨rfl, _, rfl, ?_, rfl, rfl, mapM_singleton hkey, rfl⟩
  exact queries_ofKind (stmtQuery?_run _ "execute" (by decide)) rfl

theorem runs_get (h : t.get = .ok o) : o.kind = .get ∧ ∃ q, t.Runs o q := by
  obtain ⟨q, hq, h⟩ := bind_eq_ok.mp h
  obtain ⟨key, hkey, hq⟩ := bind_eq_ok.mp hq
  cases h
  cases hq
  refine ⟨rfl, _, rfl, ?_, rfl, rfl, mapM_singleton hkey, rfl⟩
  exact queries_ofKind (stmtQuery?_bind _ _ "fetch_optional" (by decide)) rfl

theorem runs_getAll : ∃ q, t.Runs t.getAll q := by
  refine ⟨_, rfl, ?_, rfl, rfl, rfl, rfl⟩
  exact queries_ofKind (stmtQuery?_bind _ _ "fetch_all" (by decide)) rfl

theorem runs_getBy {c : PlannedField} (hcolumn : c.plan.column = c.name)
    (hc : t.bound (.getBy c.name) = [c]) (h : t.getBy c = .ok o) :
    o.kind = .getBy c.name ∧ ∃ q, t.Runs o q := by
  obtain ⟨key, hkey, h⟩ := bind_eq_ok.mp h
  cases h
  refine ⟨rfl, _, rfl, ?_, ?_, ?_, ?_, ?_⟩
  · have hpresent :
        (if c.field.isNullable then [presentKey] else []).filterMap stmtQuery? = [] := by
      split <;> rfl
    change List.filterMap stmtQuery? ((if c.field.isNullable then [presentKey] else []) ++ _) = _
    rw [List.filterMap_append, hpresent, List.nil_append]
    exact filterMap_body (stmtQuery?_bind _ _ "fetch_all" (by decide)) rfl
  · exact congrArg (fun column => some (t.selection (some column))) hcolumn.symm
  · exact congrArg (List.map fun c => c.plan.column) hc.symm
  · change (t.bound (.getBy c.name)).mapM _ = _
    rw [hc]
    exact mapM_singleton hkey
  · exact congrArg namesOf hc.symm

/-- A name denotes one column. -/
theorem Fits.bound_getBy (h : t.Fits s plans) {c : PlannedField} (hc : c ∈ t.columns) :
    t.bound (.getBy c.name) = [c] := by
  have hdistinct := h.distinct
  obtain ⟨before, after, hsplit⟩ := List.append_of_mem hc
  rw [hsplit, List.map_append, List.map_cons, List.nodup_append, List.nodup_cons] at hdistinct
  obtain ⟨-, ⟨hafter, -⟩, hbefore⟩ := hdistinct
  have hnone : before.filter (fun d => d.name == c.name) = [] := by
    simp only [List.filter_eq_nil_iff, beq_iff_eq]
    exact fun d hd hname => hbefore _ (List.mem_map_of_mem hd) _ (by simp) hname
  have hrest : after.filter (fun d => d.name == c.name) = [] := by
    simp only [List.filter_eq_nil_iff, beq_iff_eq]
    exact fun d hd hname => hafter (hname ▸ List.mem_map_of_mem hd)
  change t.columns.filter (fun d => d.name == c.name) = [c]
  rw [hsplit, List.filter_append, hnone, List.nil_append, List.filter_cons_of_pos (by simp), hrest]

theorem runs_lookups (hfits : t.Fits s plans) :
    ∀ {columns : List PlannedField} {os : List Operation}, (∀ c ∈ columns, c ∈ t.columns) →
      columns.mapM t.getBy = .ok os →
      os.map Operation.kind = columns.map (fun c => .getBy c.name) ∧ ∀ o ∈ os, ∃ q, t.Runs o q
  | [], os, _, h => by
    cases h
    simp
  | c :: columns, os, hcolumns, h => by
    rw [List.mapM_cons] at h
    obtain ⟨o, ho, h⟩ := bind_eq_ok.mp h
    obtain ⟨rest, hrest, h⟩ := bind_eq_ok.mp h
    cases h
    have hc : c ∈ t.columns := hcolumns c (by simp)
    obtain ⟨hkind, hruns⟩ := runs_getBy (hfits.column hc) (hfits.bound_getBy hc) ho
    obtain ⟨hkinds, hall⟩ :=
      runs_lookups hfits (fun d hd => hcolumns d (List.mem_cons_of_mem _ hd)) hrest
    exact ⟨by rw [List.map_cons, List.map_cons, hkind, hkinds], by simpa using ⟨hruns, hall⟩⟩

theorem transform_eq (h : t.transform = .ok o) :
    o.kind = .transform ∧ o.query = none ∧ o.fields = namesOf t.columns := by
  obtain ⟨decoded, -, h⟩ := bind_eq_ok.mp h
  cases h
  exact ⟨rfl, rfl, rfl⟩

/-- All operations but the function that turns rows into entities. -/
def calls (t : PlannedTable) : Except MappingError (List Operation) := do
  let create ← t.create
  let update ← t.update
  let delete ← t.delete
  let get ← t.get
  let lookups ← t.lookups.mapM t.getBy
  return [t.save, create, update, delete, get, t.getAll] ++ lookups

theorem operations_eq (t : PlannedTable) : t.operations =
    t.calls >>= fun os => t.transform >>= fun transform => pure (os ++ [transform]) := by
  simp only [operations, calls, bind_assoc, pure_bind]

/-- Saving calls the operations that run queries. -/
theorem calls_run (hfits : t.Fits s plans) {os : List Operation} (h : t.calls = .ok os) :
    os.map Operation.kind = [OperationKind.save, .create, .update, .delete, .get, .getAll] ++
      t.lookups.map (fun c => OperationKind.getBy c.name) ∧
    ∃ rest, os = t.save :: rest ∧ ∀ o ∈ rest, ∃ q, t.Runs o q := by
  obtain ⟨create, hcreate, h⟩ := bind_eq_ok.mp h
  obtain ⟨update, hupdate, h⟩ := bind_eq_ok.mp h
  obtain ⟨delete, hdelete, h⟩ := bind_eq_ok.mp h
  obtain ⟨get, hget, h⟩ := bind_eq_ok.mp h
  obtain ⟨lookups, hlookups, h⟩ := bind_eq_ok.mp h
  cases h
  have hmem (c : PlannedField) (hc : c ∈ t.lookups) : c ∈ t.columns := (List.mem_filter.mp hc).1
  obtain ⟨hkinds, hall⟩ := runs_lookups hfits hmem hlookups
  refine ⟨?_, [create, update, delete, get, t.getAll] ++ lookups, rfl, fun o ho => ?_⟩
  · rw [List.map_append, hkinds]
    simp only [List.map_cons, List.map_nil, (runs_create hcreate).1, (runs_update hupdate).1,
      (runs_delete hdelete).1, (runs_get hget).1]
    rfl
  · simp only [List.mem_append, List.mem_cons, List.not_mem_nil, or_false] at ho
    rcases ho with (rfl | rfl | rfl | rfl | rfl) | ho
    · exact (runs_create hcreate).2
    · exact (runs_update hupdate).2
    · exact (runs_delete hdelete).2
    · exact (runs_get hget).2
    · exact runs_getAll
    · exact hall o ho

/-- **All operations**, in order, and what those run that have a query. -/
theorem operations_run (hfits : t.Fits s plans) {os : List Operation}
    (h : t.operations = .ok os) :
    os.map Operation.kind = t.kinds ∧
    ∀ o ∈ os, (o.kind = .save ∨ o.kind = .transform) ∧ o.query = none ∨ ∃ q, t.Runs o q := by
  rw [operations_eq] at h
  obtain ⟨calls, hcalls, h⟩ := bind_eq_ok.mp h
  obtain ⟨transform, htransform, h⟩ := bind_eq_ok.mp h
  cases h
  obtain ⟨hkind, hnone, -⟩ := transform_eq htransform
  obtain ⟨hkinds, rest, rfl, hruns⟩ := calls_run hfits hcalls
  refine ⟨by rw [List.map_append, hkinds, List.map_singleton, hkind, kinds], fun o ho => ?_⟩
  rcases List.mem_append.mp ho with ho | ho
  · rcases List.mem_cons.mp ho with rfl | ho
    · exact Or.inl ⟨Or.inl rfl, rfl⟩
    · exact Or.inr (hruns o ho)
  · obtain rfl := List.mem_singleton.mp ho
    exact Or.inl ⟨Or.inr hkind, hnone⟩

end PlannedTable

/-! ### Parameters and values -/

section Fits
variable {t : PlannedTable} {s : Schema} {plans : Plans} (h : t.Fits s plans)
include h

theorem PlannedTable.Fits.mem_columns {kind : OperationKind} {c : PlannedField}
    (hc : c ∈ t.bound kind) : c ∈ t.columns := by
  have hkey (hc : c ∈ [t.key]) : c ∈ t.columns := List.mem_singleton.mp hc ▸ h.mem_key
  cases kind with
  | create => exact (List.mem_filter.mp hc).1
  | update => exact (List.mem_append.mp hc).elim id hkey
  | delete => exact hkey hc
  | get => exact hkey hc
  | getBy field => exact (List.mem_filter.mp hc).1
  | save => cases hc
  | getAll => cases hc
  | transform => cases hc

theorem PlannedTable.Fits.columns_bound (kind : OperationKind) :
    (t.bound kind).map (fun c => c.plan.column) = (t.bound kind).map PlannedField.name :=
  List.map_congr_left fun _ hc => h.column (h.mem_columns hc)

/-- **The statement and the method of an operation agree on its parameters.** -/
theorem PlannedTable.Runs.binds_text {o : Operation} {q : Query} (hruns : t.Runs o q) :
    o.Binds (t.bound o.kind) q.statement.text := by
  have hcolumns : q.statement.bound = (t.bound o.kind).map PlannedField.name := by
    rw [hruns.bound, h.columns_bound]
  have hlength : q.statement.bound.length = q.binds.length := by
    rw [hcolumns, List.length_map, length_of_mapM hruns.binds]
  obtain ⟨hon, hquery⟩ := PlannedTable.isOn_statement? hruns.statement
  refine ⟨onTable t.tableName q.statement.shape, q.binds, q.statement.reads_text hon,
    hruns.method, hruns.binds, ?_, ?_⟩
  · rw [onTable, parameters_map, Statement.parameters_shape _ hquery, hlength]
  · rw [onTable, attachments_map, Statement.attachments_shape _ hquery, hcolumns,
      List.zipIdx_map, List.map_map, List.map_map]
    rfl

end Fits

/-- **The parameters of every operation are those of the values that it binds, in order.** -/
theorem operations_bind {d : Description} {s : Schema} {plans : Plans} {u : GeneratedUnit}
    (hs : Schema.build d = .ok s) (hu : GeneratedUnit.synthesize s plans = .ok u) :
    ∃ t, PlannedTable.ofPlans s plans = .ok t ∧ t.Fits s plans ∧
      u.table.operations.map Operation.kind =
        [OperationKind.save, .create, .update, .delete, .get, .getAll] ++
          s.lookups.map (fun f => OperationKind.getBy f.name) ++ [OperationKind.transform] ∧
      (∀ f ∈ s.lookups, ∃ c ∈ t.columns, c.field = f ∧ t.bound (.getBy f.name) = [c]) ∧
      ∀ o ∈ u.table.operations,
        (o.sql? = none → o.kind = .save ∨ o.kind = .transform) ∧
        ∀ sql, o.sql? = some sql →
          o.Binds (t.bound o.kind) sql ∧ o.fields = PlannedTable.namesOf (t.operands o.kind) ∧
          (o.kind = .create → t.inserted = [] →
            sql = "INSERT INTO " ++ quoteName s.tableName ++ " DEFAULT VALUES RETURNING " ++
              nameList (t.columns.map PlannedField.name)) := by
  obtain ⟨t, ht, hfits, hos, -, -⟩ := PlannedTable.planned_of_synthesize hs hu
  obtain ⟨hkinds, hruns⟩ := PlannedTable.operations_run hfits hos
  rw [PlannedTable.kinds] at hkinds
  have hlookups : t.lookups.map (fun c => OperationKind.getBy c.name) =
      s.lookups.map fun f => .getBy f.name := by
    rw [PlannedTable.lookups, Schema.lookups, ← hfits.fields, List.filter_map, List.map_map]
    rfl
  refine ⟨t, ht, hfits, hlookups ▸ hkinds, fun f hf => ?_, fun o ho => ?_⟩
  · have hf : f ∈ s.storable := (List.mem_filter.mp hf).1
    obtain ⟨c, hc, rfl⟩ := List.mem_map.mp (hfits.fields ▸ hf)
    exact ⟨c, hc, rfl, hfits.bound_getBy hc⟩
  · rcases hruns o ho with ⟨hkind, hnone⟩ | ⟨q, hq⟩
    · refine ⟨fun _ => hkind, fun sql hsql => ?_⟩
      rw [Operation.sql?, hnone] at hsql
      cases hsql
    · have hsql : o.sql? = some q.statement.text := by rw [Operation.sql?, hq.query]; rfl
      refine ⟨fun h => (nomatch hsql.symm.trans h), fun sql h => ?_⟩
      obtain rfl := Option.some.inj (hsql.symm.trans h)
      refine ⟨hq.binds_text hfits, hq.fields, fun hkind hinserted => ?_⟩
      have hstatement := hq.statement
      rw [hkind, PlannedTable.statement?, hinserted, hfits.columnNames, Option.some.injEq]
        at hstatement
      rw [← hstatement, ← hfits.schema]
      rfl

theorem operations_bind_article : ∃ s plans u, Schema.build article = .ok s ∧
    GeneratedUnit.synthesize s plans = .ok u ∧
    ∀ o ∈ u.table.operations, ∀ sql, o.sql? = some sql → ∃ columns, o.Binds columns sql := by
  obtain ⟨u, hu⟩ := exists_generate_article
  obtain ⟨s, plans, hs, -, hsynthesize⟩ := stages_of_generate hu
  obtain ⟨t, -, -, -, -, hbinds⟩ := operations_bind hs hsynthesize
  exact ⟨s, plans, u, hs, hsynthesize, fun o ho sql hsql => ⟨_, ((hbinds o ho).2 sql hsql).1⟩⟩

end EntityTable.Table
