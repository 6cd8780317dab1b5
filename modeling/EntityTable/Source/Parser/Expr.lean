import EntityTable.Source.Parser.Pattern

/-! # Parsing expressions

An expression is an operand followed by operators. An operand is an atom with its postfix forms,
behind prefix operators. The operators after an operand are taken in one after the other; the right
side of each reaches as far as stronger operators lead. Where a brace starts a block, as after `if`,
a path does not start a record. -/

namespace EntityTable.Source

open EntityTable.Source.Parser

/-! ### Looking at expressions -/

/-- A block-like expression ends a statement without a semicolon. -/
def Expr.isBlockLike : Expr → Bool
  | .attributed _ inner => inner.isBlockLike
  | .ifElse .. | .whileLoop .. | .forLoop .. | .matchOn .. => true
  | .block kind _ =>
    match kind with
    | .async _ => false
    | _ => true
  | _ => false

/-- A range. -/
def Expr.isRange : Expr → Bool
  | .range .. => true
  | _ => false

/-- A comparison. -/
def Expr.isComparison : Expr → Bool
  | .binary _ op _ => Precedence.ofBinary op == .compare
  | _ => false

/-- The expression ends in a brace, so `else` may not follow it. -/
def Expr.endsInBrace : Expr → Bool
  | .attributed _ e | .unary _ e | .reference _ e | .rawAddress _ e | .letCond _ e => e.endsInBrace
  | .assign _ e | .binary _ _ e | .closure _ _ _ _ _ e => e.endsInBrace
  | .ifElse .. | .whileLoop .. | .forLoop .. | .matchOn .. | .block .. | .record .. => true
  | .brk _ (some e) | .ret (some e) | .yield (some e) | .range _ _ (some e) => e.endsInBrace
  | .macroCall _ d _ => d == .brace
  | _ => false

/-- The binary operator at the front, if there is one. -/
def binaryOperator? (tokens : List Token) : Option BinaryOp :=
  BinaryOp.longestFirst.find? fun op => startsOperator op.text tokens

/-- `=` that is no part of `=>`. -/
def startsAssign (tokens : List Token) : Bool :=
  startsOperator "=" tokens && !startsOperator "=>" tokens

/-- The precedence of the operator at the front; anything else binds least. -/
def nextPrecedence (tokens : List Token) : Precedence :=
  match binaryOperator? tokens with
  | some op => .ofBinary op
  | none =>
    if startsAssign tokens then .assign
    else if startsOperator ".." tokens then .range
    else if startsWord "as" tokens then .cast
    else .jump

/-- An expression may start here. -/
def startsExpr (tokens : List Token) : Bool :=
  (startsAnyWord tokens && !startsWord "as" tokens) || startsAnyGroup tokens ||
    startsLiteral tokens || startsLifetime tokens ||
    (startsOperator "!" tokens && !startsOperator "!=" tokens) ||
    (startsOperator "-" tokens && !startsOperator "-=" tokens && !startsOperator "->" tokens) ||
    (startsOperator "*" tokens && !startsOperator "*=" tokens) ||
    (startsOperator "|" tokens && !startsOperator "|=" tokens) ||
    (startsOperator "&" tokens && !startsOperator "&=" tokens) ||
    startsOperator ".." tokens || startsArgs tokens || startsOperator "::" tokens ||
    startsOperator "#" tokens

/-- A dot that is no part of a range. -/
def startsDot (tokens : List Token) : Bool :=
  startsOperator "." tokens && !startsOperator ".." tokens

/-- A range has no end here. -/
def endsOpenRange (allowRecord : Bool) (tokens : List Token) : Bool :=
  tokens.isEmpty || startsOperator "," tokens || startsOperator ";" tokens || startsDot tokens ||
    startsOperator "?" tokens || startsOperator "=>" tokens ||
    (!allowRecord && startsGroup .brace tokens) ||
    ["=", "+", "/", "%", "^", ">", "<=", "!=", "-=", "*=", "&=", "|=", "<<="].any
      (fun op => startsOperator op tokens) || startsWord "as" tokens

/-- The words that make a closure, an `async` block or a plain word of `async`, `for` and others. -/
def startsClosure (tokens : List Token) : Bool :=
  let second := tokens.drop 1
  let third := tokens.drop 2
  startsOperator "|" tokens || startsWord "move" tokens ||
    (startsWord "for" tokens && startsOperator "<" second &&
      (startsLifetime third || startsOperator ">" third)) ||
    (startsWord "const" tokens && !startsGroup .brace second) || startsWord "static" tokens ||
    (startsWord "async" tokens && (startsOperator "|" second || startsWord "move" second))

/-- An `async` block. -/
def startsAsyncBlock (tokens : List Token) : Bool :=
  startsWord "async" tokens && (startsGroup .brace (tokens.drop 1) ||
    (startsWord "move" (tokens.drop 1) && startsGroup .brace (tokens.drop 2)))

/-- A `try` block. -/
def startsTryBlock (tokens : List Token) : Bool :=
  startsWord "try" tokens && startsGroup .brace (tokens.drop 1)

/-- A path in an expression. -/
def startsPath (tokens : List Token) : Bool :=
  startsIdent tokens || startsOperator "::" tokens || startsOperator "<" tokens ||
    startsWordOf ["self", "Self", "super", "crate"] tokens ||
    (startsWord "try" tokens && (startsOperator "!" (tokens.drop 1) ||
      startsOperator "::" (tokens.drop 1)))

/-- The construct that may not follow a cast. -/
def castSuffix? (tokens : List Token) : Option String :=
  if startsDot tokens then
    let second := tokens.drop 1
    let third := tokens.drop 2
    if startsWord "await" second then some "`.await`"
    else if startsIdent second && (startsGroup .paren third || startsOperator "::" third) then
      some "a method call"
    else some "a field access"
  else if startsOperator "?" tokens then some "`?`"
  else if startsGroup .bracket tokens then some "indexing"
  else if startsGroup .paren tokens then some "a function call"
  else none

namespace Grammar

variable (g : Grammar)

/-! ### Atoms -/

/-- Statements in braces as an expression of some kind. -/
def blockExpr (kind : BlockKind) : Parser Expr := do return .block kind (← g.block)

/-- A result type or none. -/
def output? : Parser (Option Ty) := do
  if ← operator? "->" then return some (← g.ty true) else return none

/-- A closure parameter. -/
def closureParam : Parser ClosureParam := do
  let attrs ← g.attributes
  let pat ← g.pat
  if ← operator? ":" then return ⟨attrs, pat, some (← g.ty true)⟩ else return ⟨attrs, pat, none⟩

/-- A closure; with a result type its body is a block. -/
def closure (allowRecord : Bool) : Parser Expr := do
  let binder ← binder?
  let isConst ← word? "const"
  let isStatic ← word? "static"
  let isAsync ← word? "async"
  let isMove ← word? "move"
  operator "|"
  let (params, trailing) ← listUntil (startsOperator "|") "," g.closureParam
  operator "|"
  let output ← g.output?
  let body ← if output.isSome then g.blockExpr (.plain none) else g.expr allowRecord
  return .closure binder ⟨isConst, isStatic, isAsync, isMove⟩ params trailing output body

/-- A field of a record; a number needs a value. -/
def fieldInit : Parser FieldInit := do
  let attrs ← g.attributes
  let name ← member
  let isNumber := name.toList.head?.any Char.isDigit
  if isNumber || (← peek (startsOperator ":")) then
    operator ":"
    return .named attrs name (← g.expr true)
  else return .short attrs name

/-- The fields of a record up to its end, or up to `..` and the record it takes the rest from. -/
def fieldInits (path : QualifiedPath) : Parser Expr := do
  let (fields, trailing) ← iterate
    (fun (fields, afterComma) => do
      if !afterComma || (← atEnd) || (← peek (startsOperator "..")) then return none
      else
        let field ← g.fieldInit
        if ← atEnd then return some (fields ++ [field], false)
        else
          operator ","
          return some (fields ++ [field], true))
    ([], true)
  if ← operator? ".." then
    let base ← if ← atEnd then pure none else some <$> g.expr true
    return .record path fields trailing true base
  else return .record path fields trailing false none

/-- A path, and what it is the start of: a macro call, a record or nothing more. -/
def pathExpr (allowRecord : Bool) : Parser Expr := do
  let path ← g.qualifiedPath true
  let macroPath? := match path with
    | .plain path => if path.isModulePath then some path else none
    | _ => none
  match macroPath?, ← peek startsMacroBody with
  | some path, true =>
    operator "!"
    let (d, body) ← macroBody
    return .macroCall path d body
  | _, _ =>
    if allowRecord && (← peek (startsGroup .brace)) then inGroup .brace (g.fieldInits path)
    else return .path path

/-- Expressions in parentheses: one alone, or a tuple. -/
def parenExpr : Parser Expr :=
  inGroup .paren do
    if ← atEnd then return .tuple [] false
    let first ← g.expr true
    if ← atEnd then return .paren first
    operator ","
    let (more, trailing) ← commaList (g.expr true)
    return .tuple (first :: more) (trailing || more.isEmpty)

/-- Expressions in square brackets: a list, or one repeated. -/
def bracketExpr : Parser Expr :=
  inGroup .bracket do
    if ← atEnd then return .array [] false
    let first ← g.expr true
    if ← atEnd then return .array [first] false
    else if ← operator? "," then
      let (more, trailing) ← commaList (g.expr true)
      return .array (first :: more) (trailing || more.isEmpty)
    else if ← operator? ";" then return .repetition first (← g.expr true)
    else expected ["`,` or `;`"]

/-- The value after a word that leaves a body, if one stands here. -/
def value? (allowRecord : Bool) : Parser (Option Expr) := do
  let tokens ← rest
  if startsExpr tokens && (allowRecord || !startsGroup .brace tokens) then
    return some (← g.expr allowRecord)
  else return none

/-- `break` with its label and value. -/
def breakExpr (allowRecord : Bool) : Parser Expr := do
  word "break"
  let tokens ← rest
  if startsLifetime tokens && startsOperator ":" (tokens.drop 1) then
    let _ ← g.expr true
    throw (.rule "parentheses required")
  let label ← lifetime?
  return .brk label (← g.value? allowRecord)

/-- A chain of conditions with their blocks, and the last block if there is one. -/
def ifExpr : Parser Expr := do
  let clause : Parser (Expr × List Stmt) := do
    word "if"
    let cond ← g.expr false
    return (cond, ← g.block)
  let first ← clause
  let (clauses, last) ← iterate
    (fun (clauses, last) => do
      if last.isSome then return none
      else if ← word? "else" then
        let tokens ← rest
        if startsWord "if" tokens then return some (clauses ++ [← clause], none)
        else if startsGroup .brace tokens then
          return some (clauses, some (← g.blockExpr (.plain none)))
        else expected ["`if`", "curly braces"]
      else return none)
    ([first], none)
  match clauses.foldr (fun (cond, body) tail => some (.ifElse cond body tail)) last with
  | some chain => return chain
  | none => expected ["`if`"]

/-- A loop or a block, with its label. -/
def loopExpr (label : Option String) : Parser Expr := do
  if ← word? "while" then
    let cond ← g.expr false
    return .whileLoop label cond (← g.block)
  else if ← word? "for" then
    let pat ← g.alternatives
    word "in"
    let source ← g.expr false
    return .forLoop label pat source (← g.block)
  else if ← word? "loop" then g.blockExpr (.loop label)
  else if ← peek (startsGroup .brace) then g.blockExpr (.plain label)
  else expected ["loop or block expression"]

/-- A label and the loop or block that it names. -/
def labelledExpr : Parser Expr := do
  let label ← lifetime
  operator ":"
  g.loopExpr (some label)

/-- An arm of a match; its comma may be missing after a block or at the end. -/
def arm : Parser Arm := do
  let attrs ← g.attributes
  let pat ← g.alternatives
  let guard ← if ← word? "if" then some <$> g.expr true else pure none
  operator "=>"
  let body ← g.early
  if !body.isBlockLike && !(← atEnd) then
    operator ","
    return .mk attrs pat guard body true
  else return .mk attrs pat guard body (← operator? ",")

/-- A match and its arms. -/
def matchExpr : Parser Expr := do
  word "match"
  let scrutinee ← g.expr false
  let arms ← inGroup .brace <| iterate
    (fun arms => do
      if ← atEnd then return none else return some (arms ++ [← g.arm]))
    []
  return .matchOn scrutinee arms

/-! ### Operators -/

/-- Takes in the operators that bind more strongly than the one before an operand. -/
def rightSide (allowRecord : Bool) (precedence : Precedence) : Parser Expr := do
  let first ← g.operand allowRecord
  iterate
    (fun right => do
      let before ← rest
      let next := nextPrecedence before
      if precedence.rank < next.rank || (next == precedence && precedence == .assign) then
        let more ← g.operators allowRecord next right
        if (← rest).length = before.length then return none else return some more
      else return none)
    first

/-- A range from the given start. -/
def rangeExpr (allowRecord : Bool) (start : Option Expr) : Parser Expr := do
  if ← peek (startsOperator "...") then expected ["`..=`"]
  let limits ← if ← operator? "..=" then pure "..=" else do operator ".."; pure ".."
  if limits = ".." && endsOpenRange allowRecord (← rest) then return .range start limits none
  else return .range start limits (some (← g.rightSide allowRecord .range))

/-- `let` as a condition; its value stops before `&&`, `||` and weaker operators. -/
def letExpr (allowRecord : Bool) : Parser Expr := do
  word "let"
  let pat ← g.alternatives
  operator "="
  let first ← g.operand allowRecord
  return .letCond pat (← g.operators allowRecord .compare first)

/-- The next operator after an operand, with its right side. -/
def operatorStep (allowRecord : Bool) (base : Precedence) (left : Expr) :
    Parser (Option Expr) := do
  let tokens ← rest
  if left.isRange then return none
  else
    match binaryOperator? tokens with
    | some op =>
      let precedence := Precedence.ofBinary op
      if precedence.rank < base.rank then return none
      else if precedence == .compare && left.isComparison then throw .chainedComparison
      else
        operator op.text
        return some (.binary left op (← g.rightSide allowRecord precedence))
    | none =>
      if base.rank ≤ Precedence.assign.rank && startsAssign tokens then
        operator "="
        return some (.assign left (← g.rightSide allowRecord .assign))
      else if base.rank ≤ Precedence.range.rank && startsOperator ".." tokens then
        return some (← g.rangeExpr allowRecord (some left))
      else if startsWord "as" tokens then
        word "as"
        let ty ← g.ty false
        match castSuffix? (← rest) with
        | some construct => throw (.castFollowed construct)
        | none => return some (.cast left ty)
      else return none

/-- The operators after an operand that bind at least as strongly as given. -/
def parseOperators (allowRecord : Bool) (base : Precedence) (left : Expr) : Parser Expr :=
  iterate (g.operatorStep allowRecord base) left

/-! ### Operands -/

/-- An atom, chosen by its first tokens. -/
def atom (allowRecord : Bool) : Parser Expr := do
  let tokens ← rest
  match tokens with
  | .literal text :: more => advance more; return .lit text
  | _ =>
    if startsWordOf ["true", "false"] tokens then return .lit (← anyWord)
    else if startsAsyncBlock tokens then
      word "async"
      let isMove ← word? "move"
      g.blockExpr (.async isMove)
    else if startsTryBlock tokens then
      word "try"
      g.blockExpr .tryOut
    else if startsClosure tokens then g.closure allowRecord
    else if startsPath tokens then g.pathExpr allowRecord
    else if startsGroup .paren tokens then g.parenExpr
    else if startsWord "break" tokens then g.breakExpr allowRecord
    else if ← word? "continue" then return .cont (← lifetime?)
    else if ← word? "return" then return .ret (← g.value? true)
    else if startsGroup .bracket tokens then g.bracketExpr
    else if startsWord "let" tokens then g.letExpr allowRecord
    else if startsWord "if" tokens then g.ifExpr
    else if startsWordOf ["while", "for", "loop"] tokens then g.loopExpr none
    else if startsWord "match" tokens then g.matchExpr
    else if ← word? "yield" then return .yield (← g.value? true)
    else if ← word? "unsafe" then g.blockExpr .unchecked
    else if ← word? "const" then g.blockExpr .const
    else if startsGroup .brace tokens then g.blockExpr (.plain none)
    else if startsOperator ".." tokens then g.rangeExpr allowRecord none
    else if ← word? "_" then return .infer
    else if startsLifetime tokens then g.labelledExpr
    else expected ["an expression"]

/-- The fields that a number with points names one after the other. -/
def fieldsOfFloat (base : Expr) (text : String) : Parser (Expr × Bool) := do
  let parts := text.splitOn "."
  let openEnd := parts.getLast? == some ""
  let numbers := if openEnd then parts.dropLast else parts
  if numbers.all fun part => part.toList.all fun c => c.isDigit || c == '_' then
    let members ← numbers.mapM fun part => memberNumber part.toList
    return (members.foldl Expr.field base, openEnd)
  else throw (.rule "expected integer literal")

/-- A field, a method call or `await`, after the dot. -/
def afterDot (base : Expr) : Parser Expr := do
  if ← word? "await" then return .await base
  else
    let name ← member
    let isNumber := name.toList.head?.any Char.isDigit
    let method ←
      if !isNumber && (← peek (startsOperator "::")) then do
        operator "::"
        g.angleArgs name true
      else pure (.plain name)
    if !method.isPlain || (!isNumber && (← peek (startsGroup .paren))) then
      let (args, trailing) ← inGroup .paren (commaList (g.expr true))
      return .methodCall base method args trailing
    else return .field base name

/-- The next postfix form of an operand. -/
def postfixStep (base : Expr) : Parser (Option Expr) := do
  let tokens ← rest
  if startsGroup .paren tokens then
    let (args, trailing) ← inGroup .paren (commaList (g.expr true))
    return some (.call base args trailing)
  else if startsDot tokens && !base.isRange then
    operator "."
    match ← rest with
    | .literal text :: more =>
      if Literal.kind text == .float then
        advance more
        let (fields, openEnd) ← fieldsOfFloat base text
        if openEnd then return some (← g.afterDot fields) else return some fields
      else return some (← g.afterDot base)
    | _ => return some (← g.afterDot base)
  else if startsGroup .bracket tokens then
    return some (.index base (← inGroup .bracket (g.expr true)))
  else if startsOperator "?" tokens && !base.isRange then
    operator "?"
    return some (.question base)
  else return none

/-- All postfix forms of an operand. -/
def postfixes (base : Expr) : Parser Expr := iterate g.postfixStep base

/-- Attributes around an expression, if there are any. -/
def attributed (attrs : List Attribute) (e : Expr) : Expr :=
  if attrs.isEmpty then e else .attributed attrs e

/-- An operand with its prefix operators and its postfix forms. -/
def parseOperand (allowRecord : Bool) : Parser Expr := do
  let attrs ← g.attributes
  if ← operator? "&" then
    let tokens ← rest
    if startsWord "raw" tokens && startsWordOf ["mut", "const"] (tokens.drop 1) then
      word "raw"
      let isMut ← word? "mut"
      if !isMut then word "const"
      return attributed attrs (.rawAddress isMut (← g.operand allowRecord))
    else
      let isMut ← word? "mut"
      return attributed attrs (.reference isMut (← g.operand allowRecord))
  else if ← operator? "*" then return attributed attrs (.unary .deref (← g.operand allowRecord))
  else if ← operator? "!" then return attributed attrs (.unary .not (← g.operand allowRecord))
  else if ← operator? "-" then return attributed attrs (.unary .neg (← g.operand allowRecord))
  else
    let e ← g.postfixes (← g.atom allowRecord)
    if !attrs.isEmpty && e.isRange then throw (.leftOver none)
    else return attributed attrs e

/-- An expression. -/
def parseExpr (allowRecord : Bool) : Parser Expr := do
  let first ← g.operand allowRecord
  g.operators allowRecord .jump first

/-- The block-like expression at the front, or an operand. -/
def earlyOperand : Parser Expr := do
  let tokens ← rest
  let second := tokens.drop 1
  let isClosure := startsWord "for" tokens && startsOperator "<" second &&
    (startsLifetime (tokens.drop 2) || startsOperator ">" (tokens.drop 2))
  if startsWord "if" tokens then g.ifExpr
  else if startsWordOf ["while", "for", "loop"] tokens && !isClosure then g.loopExpr none
  else if startsWord "match" tokens then g.matchExpr
  else if startsTryBlock tokens then do
    word "try"
    g.blockExpr .tryOut
  else if startsWord "unsafe" tokens then do
    word "unsafe"
    g.blockExpr .unchecked
  else if startsWord "const" tokens && startsGroup .brace second then do
    word "const"
    g.blockExpr .const
  else if startsGroup .brace tokens then g.blockExpr (.plain none)
  else if startsLifetime tokens then g.labelledExpr
  else g.operand true

/-- An expression in an arm or a statement: a block-like one goes on only after a dot or `?`. -/
def parseEarly : Parser Expr := do
  let attrs ← g.attributes
  let first ← g.earlyOperand
  if !first.isBlockLike then g.operators true .jump (attributed attrs first)
  else
    let tokens ← rest
    if startsDot tokens || startsOperator "?" tokens then
      g.operators true .jump (attributed attrs (← g.postfixes first))
    else return attributed attrs first

end Grammar

end EntityTable.Source
