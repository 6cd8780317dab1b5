import EntityTable.Source.Tree.Operator
import EntityTable.Source.Tree.Pattern

/-! # Expressions, statements and items

The trees of expressions with the statements of their blocks, and of the items that a file, an
implementation or a block may hold. -/

namespace EntityTable.Source

/-- The marker words of a closure. -/
structure ClosureMarks where
  isConst : Bool
  isStatic : Bool
  isAsync : Bool
  isMove : Bool
  deriving Repr

/-- A closure parameter, with or without a type. -/
structure ClosureParam where
  attrs : List Attribute
  pat : Pat
  ty : Option Ty

/-- What turns a block into an expression of its own kind. -/
inductive BlockKind where
  | plain (label : Option String)
  | async (isMove : Bool)
  | const
  | loop (label : Option String)
  | tryOut
  | unchecked

/-- Who may name an item. -/
inductive Visibility where
  | inherited
  | everywhere
  | restricted (isIn : Bool) (path : Path)

/-- A field of a struct; a field of a tuple struct has no name. -/
structure FieldDef where
  attrs : List Attribute
  visibility : Visibility
  name : Option String
  ty : Ty

/-- What a struct consists of. -/
inductive StructBody where
  | named (fields : List FieldDef) (trailing : Bool)
  | positional (fields : List FieldDef) (trailing : Bool)
  | unit

/-- A parameter of a function. -/
inductive FnParam where
  | receiver (attrs : List Attribute) (reference : Option (Option String)) (isMut : Bool)
  | typed (attrs : List Attribute) (pat : Pat) (ty : Ty)

/-- The marks, name, parameters and result of a function. -/
structure Signature where
  isConst : Bool
  isAsync : Bool
  isUnchecked : Bool
  name : String
  params : List FnParam
  trailing : Bool
  output : Option Ty

/-- A tree of names in a `use` item. -/
inductive UseTree where
  | path (name : String) (rest : UseTree)
  | leaf (name : String)
  | rename (name newName : String)
  | glob
  | group (trees : List UseTree) (trailing : Bool)
  deriving Repr

mutual

/-- An expression. -/
inductive Expr where
  | array (elems : List Expr) (trailing : Bool)
  | assign (left right : Expr)
  | attributed (attrs : List Attribute) (inner : Expr)
  | await (base : Expr)
  | binary (left : Expr) (op : BinaryOp) (right : Expr)
  | block (kind : BlockKind) (body : List Stmt)
  | brk (label : Option String) (value : Option Expr)
  | call (callee : Expr) (args : List Expr) (trailing : Bool)
  | cast (value : Expr) (ty : Ty)
  | closure (binder : Option Binder) (marks : ClosureMarks) (params : List ClosureParam)
      (trailing : Bool) (output : Option Ty) (body : Expr)
  | cont (label : Option String)
  | field (base : Expr) (member : String)
  | forLoop (label : Option String) (pat : Pat) (source : Expr) (body : List Stmt)
  | ifElse (cond : Expr) (thenBody : List Stmt) (otherwise : Option Expr)
  | index (base index : Expr)
  | infer
  | letCond (pat : Pat) (value : Expr)
  | lit (text : String)
  | macroCall (path : Path) (delimiter : Delimiter) (body : List Token)
  | matchOn (scrutinee : Expr) (arms : List Arm)
  | methodCall (receiver : Expr) (method : Segment) (args : List Expr) (trailing : Bool)
  | paren (inner : Expr)
  | path (path : QualifiedPath)
  | question (base : Expr)
  | range (start : Option Expr) (limits : String) (stop : Option Expr)
  | rawAddress (isMut : Bool) (target : Expr)
  | record (path : QualifiedPath) (fields : List FieldInit) (trailing : Bool) (hasRest : Bool)
      (rest : Option Expr)
  | reference (isMut : Bool) (target : Expr)
  | repetition (elem length : Expr)
  | ret (value : Option Expr)
  | tuple (elems : List Expr) (trailing : Bool)
  | unary (op : UnaryOp) (operand : Expr)
  | whileLoop (label : Option String) (cond : Expr) (body : List Stmt)
  | yield (value : Option Expr)

/-- A field of a record expression. -/
inductive FieldInit where
  /-- The field's name is its value. -/
  | short (attrs : List Attribute) (member : String)
  | named (attrs : List Attribute) (member : String) (value : Expr)

/-- An arm of a match. -/
inductive Arm where
  | mk (attrs : List Attribute) (pat : Pat) (guard : Option Expr) (body : Expr) (comma : Bool)

/-- A statement. -/
inductive Stmt where
  | binding (attrs : List Attribute) (pat : Pat) (ty : Option Ty) (value : Option Expr)
      (otherwise : Option Expr)
  | item (item : Item)
  | expr (value : Expr) (semicolon : Bool)
  | macroCall (attrs : List Attribute) (path : Path) (delimiter : Delimiter) (body : List Token)
      (semicolon : Bool)
  | empty

/-- An item. -/
inductive Item where
  | const (attrs : List Attribute) (visibility : Visibility) (name : String) (ty : Ty)
      (value : Expr)
  | fn (attrs : List Attribute) (visibility : Visibility) (signature : Signature)
      (body : List Stmt)
  | impl (attrs : List Attribute) (visibility : Visibility) (target : Ty) (items : List Item)
  | static (attrs : List Attribute) (visibility : Visibility) (isMut : Bool) (name : String)
      (ty : Ty) (value : Expr)
  | struct (attrs : List Attribute) (visibility : Visibility) (name : String) (body : StructBody)
  | typeAlias (attrs : List Attribute) (visibility : Visibility) (name : String) (ty : Ty)
  | use (attrs : List Attribute) (visibility : Visibility) (isGlobal : Bool) (tree : UseTree)

end

/-- A source file. -/
structure File where
  items : List Item

end EntityTable.Source
