import EntityTable.Table.Operation

/-! # Queries of a method

The queries of a method are read off its tree: a call of `sqlx::query` with a literal, and the
values that are bound to it by the calls of `bind` that follow, in order. Whatever else is called on
the result, awaited or passed on, stays out. A query that is run in a method is read as its
statement and its bound values (`query?_run`). -/

namespace EntityTable.Table

open Source

/-- The literal of the query that an expression runs, and the values that are bound to it. -/
def query? : Expr → Option (String × List Expr)
  | .question base => query? base
  | .await base => query? base
  | .methodCall receiver (.plain "bind") [value] _ =>
    (query? receiver).map fun q => (q.1, q.2 ++ [value])
  | .methodCall receiver _ _ _ => query? receiver
  | .call (.path (.plain (.mk false [.plain "sqlx", .plain "query"]))) [.lit literal] _ =>
    some (literal, [])
  | _ => none

/-- The query that a statement of a block runs. -/
def stmtQuery? : Stmt → Option (String × List Expr)
  | .binding _ _ _ (some value) _ => query? value
  | .expr value _ => query? value
  | _ => none

/-- The queries that a function runs. -/
def itemQueries : Item → List (String × List Expr)
  | .fn _ _ _ body => body.filterMap stmtQuery?
  | _ => []

theorem query?_bind (receiver value : Expr) :
    query? (receiver.method "bind" [value]) =
      (query? receiver).map fun q => (q.1, q.2 ++ [value]) := by
  rw [Expr.method, query?]

/-- **The calls of `bind` are read in their order.** -/
theorem query?_bound (literal : String) : ∀ (values bound : List Expr) (e : Expr),
    query? e = some (literal, bound) →
    query? (values.foldl (fun e value => e.method "bind" [value]) e) =
      some (literal, bound ++ values)
  | [], bound, e, h => by simpa using h
  | value :: values, bound, e, h => by
    have hvalue : query? (e.method "bind" [value]) = some (literal, bound ++ [value]) := by
      rw [query?_bind, h]
      rfl
    rw [List.foldl_cons, query?_bound literal values _ _ hvalue, List.append_assoc]
    rfl

theorem query?_executed (e : Expr) {executor : String} (h : executor ≠ "bind") :
    query? (executed e executor) = query? e := by
  rw [executed, Expr.awaited, query?, query?, Expr.method, query?]
  simp [h]

/-- **A query that is run is read as its statement and its bound values.** -/
theorem query?_run (q : Query) {executor : String} (h : executor ≠ "bind") :
    query? (q.run executor) = some (Literal.quote q.statement.text, q.binds) := by
  rw [Query.run, query?_executed _ h, Query.bound]
  exact query?_bound _ q.binds [] _ rfl

end EntityTable.Table
