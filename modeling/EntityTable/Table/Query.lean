import EntityTable.Source.Tree.Build
import EntityTable.Table.Statement

/-! # Queries

A query is a statement with the expressions that are bound to its parameters, in order. It runs in a
transaction that is committed afterwards; a failure on the way drops the transaction, which undoes
it. -/

namespace EntityTable.Table

open Source

/-- A statement with its parameters. -/
structure Query where
  statement : Statement
  binds : List Expr

/-- The variable that holds the transaction. -/
def transaction : String := "tx"

/-- Opens the transaction. -/
def beginStmt : Stmt :=
  .bind (.mutVar transaction) (.awaited (.method (.field (.word "self") "pool") "begin" []))

/-- Commits the transaction. -/
def commitStmt : Stmt := .run (.awaited (.method (.word transaction) "commit" []))

/-- Runs what has been prepared with one of the executor's methods. -/
def executed (prepared : Expr) (executor : String) : Expr :=
  .awaited (.method prepared executor [.reference true (.unary .deref (.word transaction))])

/-- The call that prepares a statement. -/
def prepared (statementText : String) : Expr :=
  .apply (.words ["sqlx", "query"]) [.text statementText]

namespace Query

/-- The prepared statement with its parameters bound. -/
def bound (q : Query) : Expr :=
  q.binds.foldl (fun e value => e.method "bind" [value]) (prepared q.statement.text)

/-- The result of running the query. -/
def run (q : Query) (executor : String) : Expr := executed q.bound executor

end Query

/-! ### Types of methods -/

/-- The result type of a method: a value or a database error. -/
def resultOf (value : Ty) : Ty := .applied "Result" [value, .words ["sqlx", "Error"]]

/-- A list of entities. -/
def listOf (entity : String) : Ty := .applied "Vec" [.word entity]

/-- A method or function of the table object. -/
def methodItem (docs : List Attribute) (isPublic isAsync : Bool) (name : String)
    (params : List FnParam) (value : Ty) (body : List Stmt) : Item :=
  .fn docs (if isPublic then .everywhere else .inherited)
    ⟨false, isAsync, false, name, params, false, some (resultOf value)⟩ body

/-- The receiver of a method. -/
def selfParam : FnParam := .receiver [] (some none) false

/-- A parameter that is taken by reference. -/
def sharedParam (name : String) (ty : Ty) : FnParam := .typed [] (.var name) ty.shared

/-! ### The schema method -/

/-- The method that runs statements without parameters, in order. -/
def schemaMethod (statements : List String) : Item :=
  methodItem
    [.docLine " Create the table, then add missing columns and indexes.", .docLine "",
      .docLine " Every statement is idempotent, so this runs on each start."]
    true true "create_schema" [selfParam] .unit
    (beginStmt :: statements.map (fun text => .run (executed (prepared text) "execute")) ++
      [commitStmt, .yields (.apply (.word "Ok") [.tuple [] false])])

end EntityTable.Table
