import EntityTable.Source.Parser.Expr

/-! # Parsing statements and items

A block holds statements; one without a semicolon must be like a block or the last. A file and an
implementation hold items. A declaration is the item from which an entity is described: a struct,
or an enumeration or union of which only the form is checked. -/

namespace EntityTable.Source

open EntityTable.Source.Parser

/-! ### Looking at statements -/

/-- An item starts here, and no expression. -/
def startsItem (tokens : List Token) : Bool :=
  let second := tokens.drop 1
  let third := tokens.drop 2
  startsWord "pub" tokens || (startsWord "crate" tokens && !startsOperator "::" second) ||
    startsWordOf ["extern", "use", "fn", "mod", "type", "struct", "enum", "trait", "impl", "macro"]
      tokens ||
    (startsWord "static" tokens && (startsWord "mut" second || startsIdent second)) ||
    (startsWord "const" tokens && !(startsGroup .brace second || startsWordOf ["static", "move"]
      second || startsOperator "|" second ||
      (startsWord "async" second && !startsWordOf ["unsafe", "extern", "fn"] third))) ||
    (startsWord "unsafe" tokens && !startsGroup .brace second) ||
    (startsWord "async" tokens && startsWordOf ["unsafe", "extern", "fn"] second) ||
    (startsWord "union" tokens && startsIdent second)

/-- A macro call in braces is a statement of its own unless a postfix form follows. -/
def startsMacroStatement (tokens : List Token) : Bool :=
  startsOperator "!" tokens && startsGroup .brace (tokens.drop 1) &&
    !(startsDot (tokens.drop 2) || startsOperator "?" (tokens.drop 2))

/-- The statement must be followed by a semicolon or the end of the block. -/
def Stmt.needsEnd : Stmt → Bool
  | .expr value false =>
    match value with
    | .macroCall _ d _ => d != .brace
    | value => !value.isBlockLike
  | .macroCall _ _ d _ semicolon => !semicolon && d != .brace
  | _ => false

/-- Attributes before an expression belong to its leftmost operand. -/
def Expr.attribute (attrs : List Attribute) : Expr → Expr
  | .assign left right => .assign (left.attribute attrs) right
  | .binary left op right => .binary (left.attribute attrs) op right
  | .cast value ty => .cast (value.attribute attrs) ty
  | e => if attrs.isEmpty then e else .attributed attrs e

/-! ### Visibility, fields and signatures -/

/-- A visibility; parentheses after `pub` that hold anything else belong to the field's type. -/
def visibility : Parser Visibility := do
  if ← word? "pub" then
    match ← rest with
    | .group .paren [.word w] :: tokens =>
      if ["crate", "self", "super"].contains w then do
        advance tokens
        return .restricted false (.word w)
      else return .everywhere
    | .group .paren (.word "in" :: _) :: _ =>
      let path ← inGroup .paren do
        word "in"
        modulePath
      return .restricted true path
    | _ => return .everywhere
  else return .inherited

namespace Grammar

variable (g : Grammar)

/-- A field with a name. -/
def namedField : Parser FieldDef := do
  let attrs ← g.attributes
  let visibility ← visibility
  let name ← if ← peek (startsWord "_") then anyWord else ident
  operator ":"
  return ⟨attrs, visibility, some name, ← g.ty true⟩

/-- A field of a tuple struct. -/
def positionalField : Parser FieldDef := do
  let attrs ← g.attributes
  let visibility ← visibility
  return ⟨attrs, visibility, none, ← g.ty true⟩

/-- Fields in braces. -/
def namedFields : Parser StructBody := do
  let (fields, trailing) ← inGroup .brace (commaList g.namedField)
  return .named fields trailing

/-- Fields in parentheses. -/
def positionalFields : Parser StructBody := do
  let (fields, trailing) ← inGroup .paren (commaList g.positionalField)
  return .positional fields trailing

/-- The receiver of a method or another parameter. -/
def fnParam : Parser FnParam := do
  let attrs ← g.attributes
  let tokens ← rest
  let afterReference := match tokens with
    | .punct '&' _ :: .lifetime _ :: more => more
    | .punct '&' _ :: more => more
    | more => more
  let afterMut := if startsWord "mut" afterReference then afterReference.drop 1 else afterReference
  if startsWord "self" afterMut && !startsOperator ":" (afterMut.drop 1) then
    let reference ← if ← operator? "&" then some <$> lifetime? else pure none
    let isMut ← word? "mut"
    word "self"
    return .receiver attrs reference isMut
  else
    let pat ← g.pat
    operator ":"
    return .typed attrs pat (← g.ty true)

/-- A signature without generic parameters. -/
def signature : Parser Signature := do
  let isConst ← word? "const"
  let isAsync ← word? "async"
  let isUnchecked ← word? "unsafe"
  word "fn"
  let name ← ident
  let (params, trailing) ← inGroup .paren (commaList g.fnParam)
  return ⟨isConst, isAsync, isUnchecked, name, params, trailing, ← g.output?⟩

/-! ### Items -/

/-- A constant or static value after its keyword. -/
def typedValue : Parser (String × Ty × Expr) := do
  let name ← if ← peek (startsWord "_") then anyWord else ident
  operator ":"
  let ty ← g.ty true
  operator "="
  let value ← g.expr true
  operator ";"
  return (name, ty, value)

/-- A struct after its keyword. -/
def structItem (attrs : List Attribute) (visibility : Visibility) : Parser Item := do
  let name ← ident
  let tokens ← rest
  if startsGroup .brace tokens then return .struct attrs visibility name (← g.namedFields)
  else if startsGroup .paren tokens then
    let body ← g.positionalFields
    operator ";"
    return .struct attrs visibility name body
  else
    operator ";"
    return .struct attrs visibility name .unit

/-- A function after its attributes and visibility. -/
def fnItem (attrs : List Attribute) (visibility : Visibility) : Parser Item := do
  let signature ← g.signature
  return .fn attrs visibility signature (← g.block)

/-- An item inside an implementation. -/
def implItem : Parser Item := do
  let attrs ← g.attributes
  let visibility ← visibility
  if (← peek (startsWord "const")) && !(← peekAfter 1 (startsWordOf ["async", "unsafe", "fn"])) then
    word "const"
    let (name, ty, value) ← g.typedValue
    return .const attrs visibility name ty value
  else g.fnItem attrs visibility

/-- An item after its attributes. -/
def itemAfter (attrs : List Attribute) : Parser Item := do
  let visibility ← visibility
  let tokens ← rest
  let second := tokens.drop 1
  if ← word? "use" then
    let isGlobal ← operator? "::"
    let tree ← g.useTree
    operator ";"
    return .use attrs visibility isGlobal tree
  else if ← word? "static" then
    let isMut ← word? "mut"
    let (name, ty, value) ← g.typedValue
    return .static attrs visibility isMut name ty value
  else if startsWord "const" tokens && !startsWordOf ["async", "unsafe", "fn"] second then
    word "const"
    let (name, ty, value) ← g.typedValue
    return .const attrs visibility name ty value
  else if ← word? "struct" then g.structItem attrs visibility
  else if ← word? "type" then
    let name ← ident
    operator "="
    let ty ← g.ty true
    operator ";"
    return .typeAlias attrs visibility name ty
  else if ← word? "impl" then
    let target ← g.ty true
    let items ← inGroup .brace <| iterate
      (fun items => do
        if ← atEnd then return none else return some (items ++ [← g.implItem]))
      []
    return .impl attrs visibility target items
  else g.fnItem attrs visibility

/-- Items up to the end. -/
def items : Parser (List Item) :=
  iterate
    (fun items => do
      if ← atEnd then return none
      else return some (items ++ [← g.itemAfter (← g.attributes)]))
    []

/-! ### Statements -/

/-- `let` with its pattern, type, value and the block for a mismatch. -/
def bindingStmt (attrs : List Attribute) : Parser Stmt := do
  word "let"
  let pat ← g.pat
  let ty ← if ← operator? ":" then some <$> g.ty true else pure none
  if ← operator? "=" then
    let value ← g.expr true
    let otherwise ←
      if !value.endsInBrace && (← peek (startsWord "else")) then do
        word "else"
        pure (some (← g.blockExpr (.plain none)))
      else pure none
    operator ";"
    return .binding attrs pat ty (some value) otherwise
  else
    operator ";"
    return .binding attrs pat ty none none

/-- A statement that is an expression. -/
def exprStmt (attrs : List Attribute) : Parser Stmt := do
  let value := (← g.early).attribute attrs
  let semicolon ← operator? ";"
  match value with
  | .macroCall path d body =>
    if semicolon || d == .brace then return .macroCall [] path d body semicolon
    else return .expr value semicolon
  | _ => return .expr value semicolon

/-- A statement. -/
def stmt : Parser Stmt := do
  let attrs ← g.attributes
  let start ← rest
  match ← attempt modulePath with
  | some (path, after) =>
    if startsMacroStatement after then
      advance after
      operator "!"
      let (d, body) ← macroBody
      return .macroCall attrs path d body (← operator? ";")
    else if startsItem start then return .item (← g.itemAfter attrs)
    else g.exprStmt attrs
  | none =>
    if startsWord "let" start then g.bindingStmt attrs
    else if startsItem start then return .item (← g.itemAfter attrs)
    else g.exprStmt attrs

/-- Statements up to the end of a block. -/
def stmts : Parser (List Stmt) :=
  iterate
    (fun stmts => do
      if ← operator? ";" then return some (stmts ++ [.empty])
      else if ← atEnd then return none
      else
        let stmt ← g.stmt
        if stmt.needsEnd && !(← atEnd) then throw (.rule "unexpected token, expected `;`")
        else return some (stmts ++ [stmt]))
    []

/-- Statements in braces. -/
def parseBlock : Parser (List Stmt) := inGroup .brace g.stmts

/-! ### The grammar of some depth -/

/-- The grammar whose parts are parsed by another one. -/
def deeper : Grammar where
  ty := g.parseTy
  path := g.plainPath false
  expr := g.parseExpr
  operand := g.parseOperand
  operators := g.parseOperators
  early := g.parseEarly
  pat := g.parsePat
  block := g.parseBlock
  useTree := g.parseUseTree

/-- The grammar that follows its parts so many levels down. -/
def ofDepth : Nat → Grammar
  | 0 => exhausted
  | depth + 1 => (ofDepth depth).deeper

/-- A grammar deep enough for the tokens: between two tokens there are fewer than eight levels. -/
def forTokens (tokens : List Token) : Grammar := ofDepth (8 * Token.sizeList tokens + 16)

end Grammar

/-! ### Whole texts -/

/-- The type that a text denotes. -/
def Ty.ofText (text : String) : Except SyntaxError Ty :=
  runText (fun tokens => (Grammar.forTokens tokens).parseTy true) text

/-- The expression that a text denotes. -/
def Expr.ofText (text : String) : Except SyntaxError Expr :=
  runText (fun tokens => (Grammar.forTokens tokens).parseExpr true) text

/-- The path that a text denotes, as it stands in a type. -/
def Path.ofText (text : String) : Except SyntaxError Path :=
  runText (fun tokens => (Grammar.forTokens tokens).plainPath false) text

/-- The tree of names that a text denotes. -/
def UseTree.ofText (text : String) : Except SyntaxError UseTree :=
  runText (fun tokens => (Grammar.forTokens tokens).parseUseTree) text

/-- The identifier that a text denotes. -/
def identOfText (text : String) : Except SyntaxError String := runText (fun _ => ident) text

/-- The file that tokens form. -/
def File.ofTokens (tokens : List Token) : Except SyntaxError File :=
  runAll (File.mk <$> (Grammar.forTokens tokens).items) tokens

end EntityTable.Source
