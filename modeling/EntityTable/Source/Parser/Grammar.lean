import EntityTable.Source.Parser.Basic
import EntityTable.Source.Tree.ExprTokens

/-! # The recursive parts of the grammar

Types, patterns, expressions, blocks and `use` trees contain each other. The rules for each are
written against a record of parsers for the parts, and the record for some depth of nesting is built
from the one for the depth below. -/

namespace EntityTable.Source

/-- Parsers for the parts that may be nested. -/
structure Grammar where
  /-- A type, with a sum of bounds if it is allowed here. -/
  ty : (allowPlus : Bool) → Parser Ty
  /-- A path as it stands in a type. -/
  path : Parser Path
  /-- An expression; a record needs parentheses where a brace starts a block. -/
  expr : (allowRecord : Bool) → Parser Expr
  /-- An operand with its prefix operators and its postfix forms. -/
  operand : (allowRecord : Bool) → Parser Expr
  /-- The operators after an operand that bind at least as strongly as given. -/
  operators : (allowRecord : Bool) → Precedence → Expr → Parser Expr
  /-- An expression that ends early if it is like a block: in an arm or a statement. -/
  early : Parser Expr
  /-- A pattern without alternatives. -/
  pat : Parser Pat
  /-- Statements in braces. -/
  block : Parser (List Stmt)
  /-- A tree of names. -/
  useTree : Parser UseTree

/-- The grammar that accepts nothing. -/
def Grammar.exhausted : Grammar :=
  let tooDeep {α : Type} : Parser α := throw (.rule "nesting is too deep")
  { ty := fun _ => tooDeep
    path := tooDeep
    expr := fun _ => tooDeep
    operand := fun _ => tooDeep
    operators := fun _ _ _ => tooDeep
    early := tooDeep
    pat := tooDeep
    block := tooDeep
    useTree := tooDeep }

end EntityTable.Source
