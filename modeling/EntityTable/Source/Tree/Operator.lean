/-! # Operators

The operators of expressions with their spellings, and the strength with which each binds. -/

namespace EntityTable.Source

/-- Binary operators, compound assignments included. -/
inductive BinaryOp where
  | add | sub | mul | div | rem
  | and | or
  | bitXor | bitAnd | bitOr | shl | shr
  | eq | lt | le | ne | ge | gt
  | addAssign | subAssign | mulAssign | divAssign | remAssign
  | bitXorAssign | bitAndAssign | bitOrAssign | shlAssign | shrAssign
  deriving DecidableEq, Repr

namespace BinaryOp

/-- The spelling of an operator. -/
def text : BinaryOp → String
  | add => "+" | sub => "-" | mul => "*" | div => "/" | rem => "%"
  | and => "&&" | or => "||"
  | bitXor => "^" | bitAnd => "&" | bitOr => "|" | shl => "<<" | shr => ">>"
  | eq => "==" | lt => "<" | le => "<=" | ne => "!=" | ge => ">=" | gt => ">"
  | addAssign => "+=" | subAssign => "-=" | mulAssign => "*=" | divAssign => "/="
  | remAssign => "%=" | bitXorAssign => "^=" | bitAndAssign => "&=" | bitOrAssign => "|="
  | shlAssign => "<<=" | shrAssign => ">>="

/-- All operators, an operator before those that its spelling starts with. -/
def longestFirst : List BinaryOp :=
  [addAssign, subAssign, mulAssign, divAssign, remAssign, bitXorAssign, bitAndAssign, bitOrAssign,
    shlAssign, shrAssign, and, or, shl, shr, eq, le, ne, ge, add, sub, mul, div, rem, bitXor,
    bitAnd, bitOr, lt, gt]

end BinaryOp

/-- How strongly a construct holds its operands, from the weakest on. -/
inductive Precedence where
  | jump
  | assign
  | range
  | or
  | and
  | binding
  | compare
  | bitOr
  | bitXor
  | bitAnd
  | shift
  | sum
  | product
  | cast
  deriving DecidableEq, Repr

namespace Precedence

/-- The rank of a precedence. -/
def rank : Precedence → Nat
  | jump => 0
  | assign => 1
  | range => 2
  | or => 3
  | and => 4
  | binding => 5
  | compare => 6
  | bitOr => 7
  | bitXor => 8
  | bitAnd => 9
  | shift => 10
  | sum => 11
  | product => 12
  | cast => 13

/-- The precedence of a binary operator. -/
def ofBinary : BinaryOp → Precedence
  | .add | .sub => sum
  | .mul | .div | .rem => product
  | .and => and
  | .or => or
  | .bitXor => bitXor
  | .bitAnd => bitAnd
  | .bitOr => bitOr
  | .shl | .shr => shift
  | .eq | .lt | .le | .ne | .ge | .gt => compare
  | _ => assign

end Precedence

/-- The three operators that stand before one operand. -/
inductive UnaryOp where
  | deref
  | not
  | neg
  deriving DecidableEq, Repr

/-- The spelling of an operator. -/
def UnaryOp.text : UnaryOp → String
  | deref => "*"
  | not => "!"
  | neg => "-"

end EntityTable.Source
