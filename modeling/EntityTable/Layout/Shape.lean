import EntityTable.Source.Tree.Expr

/-! # Shapes of expressions

What the layout asks of an expression: whether it comes with its own delimiters, whether a line may
end after it in a condition, and whether it can stand where a statement starts. -/

namespace EntityTable.Layout

open Source

/-- A word so short that nothing is gained by ending the line after it. -/
def isShortWord : Expr → Bool
  | .path (.plain path) =>
    match path.word? with
    | some name => decide (name.utf8ByteSize ≤ 4)
    | none => false
  | _ => false

/-- An expression with its own delimiters, which needs no others around it as the one argument. -/
def isDelimited : Expr → Bool
  | .array .. | .closure .. | .record .. | .tuple .. => true
  | .block (.loop _) _ => false
  | .block .. => true
  | _ => false

/-- A block without label or marks. -/
def isPlainBlock : Expr → Bool
  | .block (.plain none) _ => true
  | _ => false

/-- In a condition the line may end after the expression. -/
def mayEndCondition : Expr → Bool
  | .assign .. | .await _ | .binary .. | .cast .. | .field .. | .index .. | .methodCall .. => true
  | .attributed _ inner => mayEndCondition inner
  | .brk _ (some e) => mayEndCondition e
  | .call callee _ _ => mayEndCondition callee
  | .letCond _ value => mayEndCondition value
  | .paren inner => mayEndCondition inner
  | .question base => mayEndCondition base
  | .range _ _ (some stop) => mayEndCondition stop
  | .rawAddress _ target => mayEndCondition target
  | .reference _ target => mayEndCondition target
  | .ret (some e) => mayEndCondition e
  | .unary _ operand => mayEndCondition operand
  | .yield (some e) => mayEndCondition e
  | _ => false

/-- The expression ends a match arm without a comma. -/
def endsArm : Expr → Bool
  | .attributed _ inner => endsArm inner
  | .ifElse .. | .matchOn .. | .whileLoop .. | .forLoop .. => true
  | .block (.async _) _ => false
  | .block .. => true
  | _ => false

/-- The expression ends a statement without a semicolon. -/
def endsStatement : Expr → Bool
  | .attributed _ inner => endsStatement inner
  | .macroCall _ delimiter _ => delimiter == .brace
  | e => endsArm e

/-- At the start of a statement the whole expression is read as one. -/
def canStartStatement : Expr → Bool
  | .assign left _ => !endsStatement left && canStartStatement left
  | .attributed _ inner => canStartStatement inner
  | .await base => canStartStatement base
  | .binary left _ _ => !endsStatement left && canStartStatement left
  | .call callee _ _ => !endsStatement callee && canStartStatement callee
  | .cast value _ => !endsStatement value && canStartStatement value
  | .field base _ => canStartStatement base
  | .index base _ => !endsStatement base && canStartStatement base
  | .methodCall receiver _ _ _ => canStartStatement receiver
  | .question base => canStartStatement base
  | .range (some start) _ _ => !endsStatement start && canStartStatement start
  | _ => true

/-- As the last statement of a block the expression gets a semicolon. -/
def gainsSemicolon : Expr → Bool
  | .assign .. | .brk .. | .cont _ | .ret _ | .yield _ => true
  | .attributed _ inner => gainsSemicolon inner
  | .binary _ op _ => Precedence.ofBinary op == .assign
  | _ => false

/-- The expression loses the semicolon after it. -/
def losesSemicolon : Expr → Bool
  | .attributed _ inner => losesSemicolon inner
  | .forLoop .. | .whileLoop .. => true
  | .ifElse _ _ (some branch) => losesSemicolon branch
  | .ifElse _ _ none => true
  | _ => false

end EntityTable.Layout
