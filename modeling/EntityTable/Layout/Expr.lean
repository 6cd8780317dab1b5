import EntityTable.Layout.Shape
import EntityTable.Layout.Type

/-! # Layout of expressions, statements and items

An expression has several layouts: on its own, as the inner part of a chain of fields and calls, as
the body of a match arm, and as the branch after `else`. The links of a chain share one box, so they
stand on one line or each on its own. A short word at the start of a statement keeps its first link
beside it. -/

namespace EntityTable.Layout

open Source

/-- The layouts of an expression. -/
structure Forms where
  /-- On its own. -/
  alone : Pieces
  /-- Inside a chain. -/
  linked : Pieces
  /-- After the arrow of a match arm. -/
  arm : Pieces
  /-- After `else`. -/
  otherwise : Pieces

/-- The layouts of a statement. -/
structure StmtForms where
  /-- The value of a block, if the statement is one. -/
  value : Option Forms
  /-- The statement with the end of its line. -/
  full : Pieces

/-! ### Blocks and lists -/

/-- Statements in braces after a hard line end. -/
def stmtLines (stmts : List StmtForms) : Pieces := outdent (hardIfMore ++ stmts.flatMap (·.full))

/-- Statements on lines of their own, in a box in braces. -/
def stmtBlock (stmts : List StmtForms) : Pieces :=
  word "\x7b" ++ never ++ cbox indentation (stmtLines stmts) ++ word "\x7d"

/-- A block that may stand in one line if it only has a value. -/
def smallBlock (stmts : List StmtForms) : Pieces :=
  match stmts with
  | [] => word "\x7b\x7d"
  | [⟨some value, _⟩] =>
    word "\x7b" ++ space ++ ibox 0 value.alone ++ outdent space ++ word "\x7d"
  | stmts => word "\x7b" ++ outdent (space ++ stmts.flatMap (·.full)) ++ word "\x7d"

/-- A value in braces, in one line if it fits. -/
def bracedValue (indent : Int) (value : Pieces) : Pieces :=
  word "\x7b" ++ space ++ ibox indent value ++ outdent space ++ word "\x7d"

/-- A value that is put in braces or parentheses if it does not fit on its line. -/
def bracedIfBroken (e : Expr) (value : Pieces) (closing inLine : String) : Pieces :=
  let asStatement := canStartStatement e
  let opening : Break := { Break.ofBlanks 0 with atEnd := if asStatement then "\x7b" else "(" }
  let ending : Break :=
    { Break.ofBlanks 0 with
      offset := -indentation
      atEnd := if asStatement && gainsSemicolon e then ";" else ""
      atStart := if asStatement then "\x7d" else closing
      inLine }
  cbox indentation ([.brk opening] ++ value ++ [.brk ending])

/-- The condition of a branch or loop, with the blank after it. -/
def condition (e : Expr) (alone : Pieces) : Pieces :=
  cbox 0 (alone ++ if mayEndCondition e then space else word " ")

/-- The arguments of a call in parentheses. -/
def callArgs (exprs : List Expr) (args : List Pieces) : Pieces :=
  let inner := match exprs, args with
    | [only], [pieces] => if isDelimited only then pieces else commaBox args
    | _, _ => commaBox args
  word "(" ++ inner ++ word ")"

/-- The elements are literals of which many fit on a line. -/
def areSmallLiterals (elems : List Expr) : Bool :=
  elems.all fun
    | .lit text =>
      match Literal.kind text with
      | .byte | .char | .int => true
      | _ => text == "true" || text == "false"
    | _ => false

/-- An array. -/
def arrayPieces (exprs : List Expr) (elems : List Pieces) : Pieces :=
  if exprs.isEmpty then word "[]"
  else if areSmallLiterals exprs then
    word "[" ++
      cbox indentation (outdent (zero ++ ibox 0 (between (word "," ++ space) elems) ++ comma true)) ++
      word "]"
  else word "[" ++ commaBox elems ++ word "]"

/-- An operator with its operands; the line may end before the operator. -/
def binaryPieces (left : Pieces) (operator : String) (right : Pieces) : Pieces :=
  ibox indentation (ibox (-indentation) left ++ space ++ word (operator ++ " ") ++ right)

/-- The layouts of a link of a chain. -/
def linkForms (e : Expr) (linked : Pieces) : Forms :=
  let alone := cbox indentation linked
  { alone, linked
    arm := never ++ bracedIfBroken e alone ")," (if endsArm e then "" else ",")
    otherwise := bracedValue indentation alone }

/-- The layouts of an expression that stands on its own in this way, and in a chain in that way. -/
def plainForms (e : Expr) (alone linked : Pieces) : Forms :=
  { linkForms e linked with
    alone
    arm := never ++ bracedIfBroken e alone ")," (if endsArm e then "" else ",")
    otherwise := bracedValue indentation alone }

/-- The layouts of an expression that is no link. -/
def rootForms (e : Expr) (alone : Pieces) : Forms := plainForms e alone (cbox (-indentation) alone)

/-- The break before a link, left out after a short word at the start of a line. -/
def linkBreak (atStart : Bool) (base : Expr) : Pieces :=
  if atStart && isShortWord base then [] else zero

/-- The words before a closure's bars. -/
def closureMarks (m : ClosureMarks) : Pieces :=
  wordIf m.isConst "const " ++ wordIf m.isStatic "static " ++ wordIf m.isAsync "async " ++
    wordIf m.isMove "move "

/-- A label and its colon, if there is one. -/
def labelBefore (label : Option String) : Pieces :=
  match label with
  | some name => lifetime name ++ word ": "
  | none => []

/-- A label with a blank before it, if there is one. -/
def labelAfter (label : Option String) : Pieces :=
  match label with
  | some name => word " " ++ lifetime name
  | none => []

/-- A block of some kind. -/
def blockForms (e : Expr) (kind : BlockKind) (stmts : List StmtForms) : Forms :=
  let small := fun (marks : Pieces) => rootForms e (marks ++ cbox indentation (smallBlock stmts))
  match kind with
  | .plain label =>
    let forms := small (labelBefore label)
    let arm := match label, stmts with
      | none, [⟨some value, _⟩] => value.arm
      | _, _ => labelBefore label ++ stmtBlock stmts
    { forms with arm, otherwise := smallBlock stmts }
  | .async isMove => small (word "async " ++ wordIf isMove "move ")
  | .const => small (word "const ")
  | .tryOut => small (word "try ")
  | .unchecked => small (word "unsafe ")
  | .loop label =>
    rootForms e (labelBefore label ++ word "loop \x7b" ++ cbox indentation (stmtLines stmts) ++
      word "\x7d")

/-- A branch with what stands after `else`. -/
def ifForms (e : Expr) (cond : Pieces) (stmts : List StmtForms) (branch : Option Forms) : Forms :=
  let start := word "if " ++ cbox (-indentation) cond
  match branch with
  | some other =>
    let whole := start ++ smallBlock stmts ++ word " else " ++ other.otherwise
    { rootForms e (cbox indentation whole) with otherwise := whole }
  | none =>
    let lines :=
      if stmts.isEmpty then word "\x7b\x7d"
      else word "\x7b" ++ outdent (hard ++ stmts.flatMap (·.full)) ++ word "\x7d"
    { rootForms e (cbox indentation (start ++ lines)) with otherwise := start ++ smallBlock stmts }

/-- A closure without a result type; the parameters may be broken. -/
def closureParams (params : List Pieces) : Pieces :=
  (if params.isEmpty then [] else zero) ++ between (word "," ++ space) params

section

variable (constant : List Token → Pieces)

/-- A closure parameter. -/
def closureParamPieces (p : ClosureParam) : Pieces :=
  attributesPieces constant p.attrs ++ patPieces constant p.pat ++
    (match p.ty with
      | some ty => word ": " ++ tyPieces constant ty
      | none => [])

/-- A closure, given the layouts of its body. -/
def closurePieces (binder : Option Binder) (marks : ClosureMarks) (params : List ClosureParam)
    (output : Option Ty) (body : Expr) (forms : Forms) : Pieces :=
  let start := binderBefore binder ++ closureMarks marks
  let inputs := closureParams (params.map (closureParamPieces constant))
  match output with
  | none =>
    let whole := match body with
      | .matchOn .. | .call .. => forms.alone
      | body => if isDelimited body then forms.alone else bracedIfBroken body forms.alone ")" ""
    ibox 0 (start ++ cbox indentation (word "|" ++ inputs ++ word "|" ++ outdent space) ++ never ++
      whole)
  | some ty =>
    let whole := match body with
      | .block (.plain none) _ => forms.alone
      | _ => cbox indentation (bracedValue 0 forms.alone)
    let ending := if params.isEmpty then [] else outdent (comma true)
    ibox 0 (start ++ cbox indentation (word "|" ++ inputs ++ ending ++ word "|") ++ word " -> " ++
      tyPieces constant ty ++ word " " ++ never ++ whole)

/-! ### Parts of items -/

/-- A visibility with the blank after it. -/
def visibilityPieces : Visibility → Pieces
  | .inherited => []
  | .everywhere => word "pub "
  | .restricted isIn path =>
    word "pub(" ++ wordIf isIn "in " ++ pathPieces constant .bare path ++ word ") "

/-- The fields of a struct, each on its line. -/
def fieldLines (fields : List FieldDef) : Pieces :=
  fields.flatMap fun f =>
    attributesPieces constant f.attrs ++ visibilityPieces constant f.visibility ++
      (match f.name with
        | some name => word (name ++ ": ")
        | none => []) ++ tyPieces constant f.ty ++ word "," ++ hard

/-- A struct after its attributes. -/
def structPieces (visibility : Visibility) (name : String) (body : StructBody) : Pieces :=
  let start := visibilityPieces constant visibility ++ word "struct " ++ word name
  match body with
  | .named fields _ =>
    cbox indentation
      (start ++ word " \x7b" ++ outdent (hardIfMore ++ fieldLines constant fields)) ++
      word "\x7d"
  | .positional fields _ =>
    let elements := fields.map fun f =>
      attributesPieces constant f.attrs ++ visibilityPieces constant f.visibility ++
        tyPieces constant f.ty
    cbox indentation (start ++ word "(" ++ commaBox elements ++ word ");")
  | .unit => cbox indentation (start ++ word ";")

/-- A function parameter. -/
def paramPieces : FnParam → Pieces
  | .receiver attrs reference isMut =>
    attributesPieces constant attrs ++
      (match reference with
        | some lifetime => word "&" ++ lifetimeBefore lifetime
        | none => []) ++ wordIf isMut "mut " ++ word "self"
  | .typed attrs pat ty =>
    attributesPieces constant attrs ++ patPieces constant pat ++ word ": " ++ tyPieces constant ty

/-- The signature of a function, with the blank after it. -/
def signaturePieces (s : Signature) : Pieces :=
  wordIf s.isConst "const " ++ wordIf s.isAsync "async " ++ wordIf s.isUnchecked "unsafe " ++
    word "fn " ++ word s.name ++ word "(" ++ never ++
    cbox 0 (outdent (zero ++ rows comma (s.params.map (paramPieces constant)))) ++ word ")" ++
    cbox (-indentation) (outputPieces constant s.output ++ word " ")

/-- A constant or static item after its attributes and visibility. -/
def valueItem (keyword name : String) (ty : Ty) (value : Pieces) : Pieces :=
  word keyword ++ word name ++ word ": " ++ tyPieces constant ty ++ word " = " ++ never ++ value ++
    word ";"

/-- The last tree of a path of names is a group. -/
def endsInGroup : UseTree → Bool
  | .path _ rest => endsInGroup rest
  | .group .. => true
  | _ => false

/-- The group holds one tree and needs no braces; `self` does. -/
def isSoleTree : List UseTree → Bool
  | [.leaf name] | [.rename name _] => name != "self"
  | [_] => true
  | _ => false

/-- Trees of names in braces. -/
def useGroup (trees : Pieces) : Pieces :=
  cbox indentation (word "\x7b" ++ outdent (zero ++ ibox 0 trees ++ comma true) ++ word "\x7d")

mutual

/-- A tree of names. -/
def useTreePieces : UseTree → Pieces
  | .path name rest => word name ++ word "::" ++ useTreePieces rest
  | .leaf name => word name
  | .rename name newName => word (name ++ " as " ++ newName)
  | .glob => word "*"
  | .group trees _ =>
    if trees.isEmpty then word "\x7b\x7d"
    else if isSoleTree trees then useTreesPieces trees
    else useGroup (useTreesPieces trees)

/-- The trees of a group with their commas; the line ends after a group among them. -/
def useTreesPieces : List UseTree → Pieces
  | [] => []
  | [last] => useTreePieces last
  | tree :: rest =>
    useTreePieces tree ++ word "," ++ (if endsInGroup tree then hard else space) ++
      useTreesPieces rest

end

end

end EntityTable.Layout
