import EntityTable.Layout.Expr
import EntityTable.Source.Parser.Item

/-! # Layout of code

The layout of whole files. Every part of the source tree is laid out by the rules for its kind; the
constants inside types and patterns, which are kept as tokens, are read and laid out as the
expressions they are. -/

namespace EntityTable.Layout

open Source

section

variable (constant : List Token → Pieces)

mutual

/-- The layouts of an expression, at the start of a line or not. -/
def exprForms (atStart : Bool) : Expr → Forms
  | .array elems trailing =>
    rootForms (.array elems trailing) (arrayPieces elems (exprsAlone elems))
  | .assign left right =>
    rootForms (.assign left right)
      (ibox 0 ((exprForms false left).alone ++ word " = " ++ never ++ (exprForms false right).alone))
  | .attributed attrs inner =>
    let forms := exprForms atStart inner
    rootForms (.attributed attrs inner) (attributesPieces constant attrs ++ forms.alone)
  | .await base =>
    linkForms (.await base)
      ((exprForms atStart base).linked ++ linkBreak atStart base ++ word ".await")
  | .binary left op right =>
    rootForms (.binary left op right)
      (binaryPieces (exprForms false left).alone op.text (exprForms false right).alone)
  | .block kind body => blockForms (.block kind body) kind (stmtsForms body)
  | .brk label value =>
    rootForms (.brk label value)
      (word "break" ++ labelAfter label ++
        match value with
        | some e => word " " ++ (exprForms false e).alone
        | none => [])
  | .call callee args trailing =>
    let inside := callArgs args (exprsAlone args)
    plainForms (.call callee args trailing) ((exprForms atStart callee).alone ++ inside)
      ((exprForms false callee).linked ++ inside)
  | .cast value ty =>
    rootForms (.cast value ty)
      (binaryPieces (exprForms false value).alone "as" (tyPieces constant ty))
  | .closure binder marks params trailing output body =>
    rootForms (.closure binder marks params trailing output body)
      (closurePieces constant binder marks params output body
        (exprForms (output.isSome && !isPlainBlock body) body))
  | .cont label => rootForms (.cont label) (word "continue" ++ labelAfter label)
  | .field base member =>
    linkForms (.field base member)
      ((exprForms atStart base).linked ++ linkBreak atStart base ++ word ("." ++ member))
  | .forLoop label pat source body =>
    rootForms (.forLoop label pat source body)
      (ibox 0 (labelBefore label ++ word "for " ++ patPieces constant pat ++ word " in " ++ never ++
        condition source (exprForms false source).alone ++ stmtBlock (stmtsForms body)))
  | .ifElse cond thenBody otherwise =>
    ifForms (.ifElse cond thenBody otherwise) (condition cond (exprForms false cond).alone)
      (stmtsForms thenBody)
      (match otherwise with
        | some branch => some (exprForms false branch)
        | none => none)
  | .index base index =>
    let inside := word "[" ++ (exprForms false index).alone ++ word "]"
    let forms := exprForms atStart base
    plainForms (.index base index) (forms.alone ++ inside) (forms.linked ++ inside)
  | .infer => rootForms .infer (word "_")
  | .letCond pat value =>
    rootForms (.letCond pat value)
      (word "let " ++ patPieces constant pat ++ word " = " ++ never ++ (exprForms false value).alone)
  | .lit text => rootForms (.lit text) (word text)
  | .macroCall path delimiter body =>
    rootForms (.macroCall path delimiter body)
      (pathPieces constant .bare path ++ word "!" ++ macroArguments delimiter body)
  | .matchOn scrutinee arms =>
    rootForms (.matchOn scrutinee arms)
      (ibox 0 (word "match " ++ condition scrutinee (exprForms false scrutinee).alone ++
        word "\x7b" ++ never ++ cbox indentation (outdent (hardIfMore ++ armLines arms)) ++
        word "\x7d"))
  | .methodCall receiver method args trailing =>
    let e := Expr.methodCall receiver method args trailing
    let start := (exprForms atStart receiver).linked ++ linkBreak atStart receiver ++ word "." ++
      segmentPieces constant .expr method
    let inside := callArgs args (exprsAlone args)
    let sticks := atStart && isShortWord receiver
    let forms := linkForms e (start ++ cbox 0 inside)
    if sticks then
      let alone := cbox indentation (start ++ cbox (-indentation) inside)
      plainForms e alone forms.linked
    else forms
  | .paren inner => rootForms (.paren inner) (word "(" ++ (exprForms false inner).alone ++ word ")")
  | .path path => rootForms (.path path) (qualifiedPieces constant .expr path)
  | .question base =>
    let forms := exprForms atStart base
    plainForms (.question base) (forms.alone ++ word "?") (forms.linked ++ word "?")
  | .range start limits stop =>
    rootForms (.range start limits stop)
      ((match start with
        | some e => (exprForms false e).alone
        | none => []) ++ word limits ++
      (match stop with
        | some e => (exprForms false e).alone
        | none => []))
  | .rawAddress isMut target =>
    rootForms (.rawAddress isMut target)
      (word (if isMut then "&raw mut " else "&raw const ") ++ (exprForms false target).alone)
  | .record path fields trailing hasRest rest =>
    let base := match rest with
      | some e => (exprForms false e).alone
      | none => []
    let inits := initsPieces fields
    let elements :=
      if hasRest then inits.flatMap (· ++ commaOrSpace false) ++ word ".." ++ base ++ space
      else rows commaOrSpace inits
    rootForms (.record path fields trailing hasRest rest)
      (limitedBox 34 indentation
        (ibox (-indentation) (qualifiedPieces constant .expr path) ++ word " \x7b" ++
          outdent (spaceIfMore ++ elements)) ++ word "\x7d")
  | .reference isMut target =>
    rootForms (.reference isMut target)
      (word (if isMut then "&mut " else "&") ++ (exprForms false target).alone)
  | .repetition elem length =>
    rootForms (.repetition elem length)
      (word "[" ++ (exprForms false elem).alone ++ word "; " ++ (exprForms false length).alone ++
        word "]")
  | .ret value =>
    rootForms (.ret value)
      (word "return" ++
        match value with
        | some e => word " " ++ (exprForms false e).alone
        | none => [])
  | .tuple elems trailing =>
    let forms := rootForms (.tuple elems trailing) (tupleBox true (exprsAlone elems))
    if elems.isEmpty then { forms with arm := stmtBlock [] } else forms
  | .unary op operand =>
    rootForms (.unary op operand) (word op.text ++ (exprForms false operand).alone)
  | .whileLoop label cond body =>
    rootForms (.whileLoop label cond body)
      (labelBefore label ++ word "while " ++ condition cond (exprForms false cond).alone ++
        stmtBlock (stmtsForms body))
  | .yield value =>
    rootForms (.yield value)
      (word "yield" ++
        match value with
        | some e => word " " ++ (exprForms false e).alone
        | none => [])

/-- The layout of each expression on its own. -/
def exprsAlone : List Expr → List Pieces
  | [] => []
  | e :: rest => (exprForms false e).alone :: exprsAlone rest

/-- The layout of each field value. -/
def initsPieces : List FieldInit → List Pieces
  | [] => []
  | .short attrs member :: rest =>
    (attributesPieces constant attrs ++ word member) :: initsPieces rest
  | .named attrs member value :: rest =>
    (attributesPieces constant attrs ++ word (member ++ ": ") ++
      ibox 0 (exprForms false value).alone) :: initsPieces rest

/-- The arms of a match, each on its line. -/
def armLines : List Arm → Pieces
  | [] => []
  | .mk attrs pat guard body _ :: rest =>
    attributesPieces constant attrs ++
      ibox 0 (patPieces constant pat ++
        (match guard with
          | some cond => word " if " ++ (exprForms false cond).alone
          | none => []) ++ word " => " ++ (exprForms true body).arm) ++ hard ++ armLines rest

/-- The layouts of a statement. -/
def stmtForms : Stmt → StmtForms
  | .binding attrs pat ty value otherwise =>
    let start := word "let " ++ patPieces constant pat ++
      (match ty with
        | some ty => word ": " ++ tyPieces constant ty
        | none => []) ++
      (match value with
        | some e => word " = " ++ never ++ (exprForms false e).alone
        | none => [])
    let whole := match otherwise with
      | some branch =>
        ibox 0 (start ++ space ++ word "else ") ++ never ++
          cbox indentation (exprForms false branch).otherwise
      | none => ibox 0 start
    ⟨none, attributesPieces constant attrs ++ whole ++ word ";" ++ hard⟩
  | .item item => ⟨none, itemPieces item⟩
  | .expr value semicolon =>
    let forms := exprForms true value
    if semicolon then
      ⟨none, ibox 0 (forms.alone ++ wordIf (!losesSemicolon value) ";") ++ hard⟩
    else ⟨some forms, ibox 0 (forms.alone ++ wordIf (gainsSemicolon value) ";") ++ hard⟩
  | .macroCall attrs path delimiter body semicolon =>
    ⟨none, attributesPieces constant attrs ++ pathPieces constant .bare path ++ word "!" ++
      macroArguments delimiter body ++ wordIf (semicolon && delimiter != .brace) ";" ++ hard⟩
  | .empty => ⟨none, []⟩

/-- The layouts of each statement. -/
def stmtsForms : List Stmt → List StmtForms
  | [] => []
  | stmt :: rest => stmtForms stmt :: stmtsForms rest

/-- The layout of an item, with the end of its line. -/
def itemPieces : Item → Pieces
  | .const attrs visibility name ty value =>
    attributesPieces constant attrs ++
      cbox 0 (visibilityPieces constant visibility ++
        valueItem constant "const " name ty (exprForms false value).alone) ++ hard
  | .fn attrs visibility signature body =>
    attributesPieces constant attrs ++
      cbox indentation (visibilityPieces constant visibility ++
        signaturePieces constant signature ++ word "\x7b" ++ stmtLines (stmtsForms body)) ++
      word "\x7d" ++ hard
  | .impl attrs visibility target items =>
    attributesPieces constant attrs ++
      cbox indentation (visibilityPieces constant visibility ++ word "impl " ++
        tyPieces constant target ++ word " \x7b" ++ outdent (hardIfMore ++ itemsPieces items)) ++
      word "\x7d" ++ hard
  | .static attrs visibility isMut name ty value =>
    attributesPieces constant attrs ++
      cbox 0 (visibilityPieces constant visibility ++
        valueItem constant (if isMut then "static mut " else "static ") name ty
          (exprForms false value).alone) ++ hard
  | .struct attrs visibility name body =>
    attributesPieces constant attrs ++ structPieces constant visibility name body ++ hard
  | .typeAlias attrs visibility name ty =>
    attributesPieces constant attrs ++
      cbox indentation (visibilityPieces constant visibility ++ word "type " ++ word name ++
        word " = " ++ never ++ ibox (-indentation) (tyPieces constant ty) ++ word ";") ++ hard
  | .use attrs visibility isGlobal tree =>
    attributesPieces constant attrs ++ visibilityPieces constant visibility ++ word "use " ++
      wordIf isGlobal "::" ++ useTreePieces tree ++ word ";" ++ hard

/-- The layout of items in a row. -/
def itemsPieces : List Item → Pieces
  | [] => []
  | item :: rest => itemPieces item ++ itemsPieces rest

end

end

/-- The layout of a constant: that of the expression its tokens form, with the constants in it taken
as runs of tokens. -/
def constantPieces (tokens : List Token) : Pieces :=
  let run := runFrom .start true
  match Parser.runAll ((Grammar.forTokens tokens).parseExpr true) tokens with
  | .ok e => (exprForms run false e).alone
  | .error _ => run tokens

/-- The layout of a file. -/
def filePieces (f : File) : Pieces := cbox 0 (itemsPieces constantPieces f.items)

/-- The text of a file. -/
def fileText (f : File) : String := textOf (filePieces f)

end EntityTable.Layout
