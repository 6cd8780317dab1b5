import EntityTable.Source.Tree.Expr
import EntityTable.Source.Tree.TypeTokens

/-! # Tokens of expressions, statements and items

A tree is written as the tokens it was read from, with each operator glued in the usual way. -/

namespace EntityTable.Source

/-- The tokens of a label and its colon, if there is one. -/
def labelTokens (label : Option String) : List Token :=
  match label with
  | some name => [.lifetime name] ++ Token.operator ":"
  | none => []

/-- The words before the braces of a block. -/
def BlockKind.tokens : BlockKind → List Token
  | .plain label => labelTokens label
  | .async isMove => wordToken "async" ++ wordIf isMove "move"
  | .const => wordToken "const"
  | .loop label => labelTokens label ++ wordToken "loop"
  | .tryOut => wordToken "try"
  | .unchecked => wordToken "unsafe"

/-- The words before the bars of a closure. -/
def ClosureMarks.tokens (m : ClosureMarks) : List Token :=
  wordIf m.isConst "const" ++ wordIf m.isStatic "static" ++ wordIf m.isAsync "async" ++
    wordIf m.isMove "move"

/-- The tokens of a closure parameter. -/
def ClosureParam.tokens (p : ClosureParam) : List Token :=
  attributeTokens p.attrs ++ p.pat.tokens ++
    (match p.ty with
      | some ty => Token.operator ":" ++ ty.tokens
      | none => [])

/-! ### Parts of items -/

/-- The tokens of a visibility. -/
def Visibility.tokens : Visibility → List Token
  | .inherited => []
  | .everywhere => wordToken "pub"
  | .restricted isIn path => wordToken "pub" ++ [.group .paren (wordIf isIn "in" ++ path.tokens)]

/-- The tokens of a struct field. -/
def FieldDef.tokens (f : FieldDef) : List Token :=
  attributeTokens f.attrs ++ f.visibility.tokens ++
    (match f.name with
      | some name => wordToken name ++ Token.operator ":"
      | none => []) ++ f.ty.tokens

/-- The tokens of what a struct consists of. -/
def StructBody.tokens : StructBody → List Token
  | .named fields trailing =>
    [.group .brace (separated "," trailing (fields.map FieldDef.tokens))]
  | .positional fields trailing =>
    [.group .paren (separated "," trailing (fields.map FieldDef.tokens))] ++ Token.operator ";"
  | .unit => Token.operator ";"

/-- The tokens of a function parameter. -/
def FnParam.tokens : FnParam → List Token
  | .receiver attrs reference isMut =>
    attributeTokens attrs ++
      (match reference with
        | some lifetime => Token.operator "&" ++ lifetimeTokens lifetime
        | none => []) ++ wordIf isMut "mut" ++ wordToken "self"
  | .typed attrs pat ty => attributeTokens attrs ++ pat.tokens ++ Token.operator ":" ++ ty.tokens

/-- The tokens of a signature. -/
def Signature.tokens (s : Signature) : List Token :=
  wordIf s.isConst "const" ++ wordIf s.isAsync "async" ++ wordIf s.isUnchecked "unsafe" ++
    wordToken "fn" ++ wordToken s.name ++
    [.group .paren (separated "," s.trailing (s.params.map FnParam.tokens))] ++
    outputTokens s.output

mutual

/-- The tokens of a tree of names. -/
def UseTree.tokens : UseTree → List Token
  | .path name rest => wordToken name ++ Token.operator "::" ++ rest.tokens
  | .leaf name => wordToken name
  | .rename name newName => wordToken name ++ wordToken "as" ++ wordToken newName
  | .glob => Token.operator "*"
  | .group trees trailing => [.group .brace (separated "," trailing (UseTree.tokensOf trees))]

/-- The tokens of each tree of names. -/
def UseTree.tokensOf : List UseTree → List (List Token)
  | [] => []
  | tree :: rest => tree.tokens :: UseTree.tokensOf rest

end

/-! ### Expressions -/

mutual

/-- The tokens of an expression. -/
def Expr.tokens : Expr → List Token
  | .array elems trailing => [.group .bracket (separated "," trailing (Expr.tokensOf elems))]
  | .assign left right => left.tokens ++ Token.operator "=" ++ right.tokens
  | .attributed attrs inner => attributeTokens attrs ++ inner.tokens
  | .await base => base.tokens ++ Token.operator "." ++ wordToken "await"
  | .binary left op right => left.tokens ++ Token.operator op.text ++ right.tokens
  | .block kind body => kind.tokens ++ [.group .brace (Stmt.tokensOf body)]
  | .brk label value => wordToken "break" ++ lifetimeTokens label ++ Expr.optionTokens value
  | .call callee args trailing =>
    callee.tokens ++ [.group .paren (separated "," trailing (Expr.tokensOf args))]
  | .cast value ty => value.tokens ++ wordToken "as" ++ ty.tokens
  | .closure binder marks params trailing output body =>
    binderTokens binder ++ marks.tokens ++ Token.operator "|" ++
      separated "," trailing (params.map ClosureParam.tokens) ++ Token.operator "|" ++
      outputTokens output ++ body.tokens
  | .cont label => wordToken "continue" ++ lifetimeTokens label
  | .field base member => base.tokens ++ Token.operator "." ++ memberTokens member
  | .forLoop label pat source body =>
    labelTokens label ++ wordToken "for" ++ pat.tokens ++ wordToken "in" ++ source.tokens ++
      [.group .brace (Stmt.tokensOf body)]
  | .ifElse cond thenBody otherwise =>
    wordToken "if" ++ cond.tokens ++ [.group .brace (Stmt.tokensOf thenBody)] ++
      (match otherwise with
        | some branch => wordToken "else" ++ branch.tokens
        | none => [])
  | .index base index => base.tokens ++ [.group .bracket index.tokens]
  | .infer => wordToken "_"
  | .letCond pat value => wordToken "let" ++ pat.tokens ++ Token.operator "=" ++ value.tokens
  | .lit text => [if text = "true" ∨ text = "false" then .word text else .literal text]
  | .macroCall path delimiter body => path.tokens ++ Token.operator "!" ++ [.group delimiter body]
  | .matchOn scrutinee arms =>
    wordToken "match" ++ scrutinee.tokens ++ [.group .brace (Arm.tokensOf arms)]
  | .methodCall receiver method args trailing =>
    receiver.tokens ++ Token.operator "." ++ method.tokens ++
      [.group .paren (separated "," trailing (Expr.tokensOf args))]
  | .paren inner => [.group .paren inner.tokens]
  | .path path => path.tokens
  | .question base => base.tokens ++ Token.operator "?"
  | .range start limits stop =>
    Expr.optionTokens start ++ Token.operator limits ++ Expr.optionTokens stop
  | .rawAddress isMut target =>
    Token.operator "&" ++ wordToken "raw" ++ wordToken (if isMut then "mut" else "const") ++
      target.tokens
  | .record path fields trailing hasRest rest =>
    path.tokens ++ [.group .brace (separated "," trailing (FieldInit.tokensOf fields) ++
      operatorIf hasRest ".." ++ Expr.optionTokens rest)]
  | .reference isMut target => Token.operator "&" ++ wordIf isMut "mut" ++ target.tokens
  | .repetition elem length => [.group .bracket (elem.tokens ++ Token.operator ";" ++ length.tokens)]
  | .ret value => wordToken "return" ++ Expr.optionTokens value
  | .tuple elems trailing => [.group .paren (separated "," trailing (Expr.tokensOf elems))]
  | .unary op operand => Token.operator op.text ++ operand.tokens
  | .whileLoop label cond body =>
    labelTokens label ++ wordToken "while" ++ cond.tokens ++ [.group .brace (Stmt.tokensOf body)]
  | .yield value => wordToken "yield" ++ Expr.optionTokens value

/-- The tokens of an expression that may be missing. -/
def Expr.optionTokens : Option Expr → List Token
  | none => []
  | some e => e.tokens

/-- The tokens of each expression. -/
def Expr.tokensOf : List Expr → List (List Token)
  | [] => []
  | e :: rest => e.tokens :: Expr.tokensOf rest

/-- The tokens of a field value. -/
def FieldInit.tokens : FieldInit → List Token
  | .short attrs member => attributeTokens attrs ++ memberTokens member
  | .named attrs member value =>
    attributeTokens attrs ++ memberTokens member ++ Token.operator ":" ++ value.tokens

/-- The tokens of each field value. -/
def FieldInit.tokensOf : List FieldInit → List (List Token)
  | [] => []
  | field :: rest => field.tokens :: FieldInit.tokensOf rest

/-- The tokens of a match arm. -/
def Arm.tokens : Arm → List Token
  | .mk attrs pat guard body comma =>
    attributeTokens attrs ++ pat.tokens ++
      (match guard with
        | some cond => wordToken "if" ++ cond.tokens
        | none => []) ++ Token.operator "=>" ++ body.tokens ++ operatorIf comma ","

/-- The tokens of match arms in a row. -/
def Arm.tokensOf : List Arm → List Token
  | [] => []
  | arm :: rest => arm.tokens ++ Arm.tokensOf rest

/-- The tokens of a statement. -/
def Stmt.tokens : Stmt → List Token
  | .binding attrs pat ty value otherwise =>
    attributeTokens attrs ++ wordToken "let" ++ pat.tokens ++
      (match ty with
        | some ty => Token.operator ":" ++ ty.tokens
        | none => []) ++
      (match value with
        | some value => Token.operator "=" ++ value.tokens
        | none => []) ++
      (match otherwise with
        | some branch => wordToken "else" ++ branch.tokens
        | none => []) ++ Token.operator ";"
  | .item item => item.tokens
  | .expr value semicolon => value.tokens ++ operatorIf semicolon ";"
  | .macroCall attrs path delimiter body semicolon =>
    attributeTokens attrs ++ path.tokens ++ Token.operator "!" ++ [.group delimiter body] ++
      operatorIf semicolon ";"
  | .empty => Token.operator ";"

/-- The tokens of statements in a row. -/
def Stmt.tokensOf : List Stmt → List Token
  | [] => []
  | stmt :: rest => stmt.tokens ++ Stmt.tokensOf rest

/-- The tokens of an item. -/
def Item.tokens : Item → List Token
  | .const attrs visibility name ty value =>
    attributeTokens attrs ++ visibility.tokens ++ wordToken "const" ++ wordToken name ++
      Token.operator ":" ++ ty.tokens ++ Token.operator "=" ++ value.tokens ++ Token.operator ";"
  | .fn attrs visibility signature body =>
    attributeTokens attrs ++ visibility.tokens ++ signature.tokens ++
      [.group .brace (Stmt.tokensOf body)]
  | .impl attrs visibility target items =>
    attributeTokens attrs ++ visibility.tokens ++ wordToken "impl" ++ target.tokens ++
      [.group .brace (Item.tokensOf items)]
  | .static attrs visibility isMut name ty value =>
    attributeTokens attrs ++ visibility.tokens ++ wordToken "static" ++ wordIf isMut "mut" ++
      wordToken name ++ Token.operator ":" ++ ty.tokens ++ Token.operator "=" ++ value.tokens ++
      Token.operator ";"
  | .struct attrs visibility name body =>
    attributeTokens attrs ++ visibility.tokens ++ wordToken "struct" ++ wordToken name ++
      body.tokens
  | .typeAlias attrs visibility name ty =>
    attributeTokens attrs ++ visibility.tokens ++ wordToken "type" ++ wordToken name ++
      Token.operator "=" ++ ty.tokens ++ Token.operator ";"
  | .use attrs visibility isGlobal tree =>
    attributeTokens attrs ++ visibility.tokens ++ wordToken "use" ++ operatorIf isGlobal "::" ++
      tree.tokens ++ Token.operator ";"

/-- The tokens of items in a row. -/
def Item.tokensOf : List Item → List Token
  | [] => []
  | item :: rest => item.tokens ++ Item.tokensOf rest

end

/-- The tokens of a file. -/
def File.tokens (f : File) : List Token := Item.tokensOf f.items

end EntityTable.Source
