import EntityTable.Source.Token

/-! # Types and paths

The trees of types, of the paths that name things, and of the generic arguments and bounds in them.
A tree keeps what its spelling leaves open: whether a separator follows the last element of a list,
whether a path starts with `::`, and the tokens of a macro call as they stand. Words are kept as
they are spelled, so a raw identifier differs from the plain one. The length of an array and the
other constants inside a type are kept as their tokens. -/

namespace EntityTable.Source

/-- The lifetimes that `for<'a, 'b>` brings into scope. -/
structure Binder where
  lifetimes : List String
  trailing : Bool
  deriving Repr

mutual

/-- A type. -/
inductive Ty where
  | array (elem : Ty) (length : List Token)
  | fnPtr (binder : Option Binder) (qualifiers : List Token) (params : List FnPtrParam)
      (trailing : Bool) (output : Option Ty)
  | implTrait (bounds : List Bound) (trailing : Bool)
  | infer
  | macroCall (path : Path) (delimiter : Delimiter) (body : List Token)
  | never
  | paren (inner : Ty)
  | path (path : QualifiedPath)
  | pointer (isMut : Bool) (target : Ty)
  | reference (lifetime : Option String) (isMut : Bool) (target : Ty)
  | slice (elem : Ty)
  | traitObject (isDyn : Bool) (bounds : List Bound) (trailing : Bool)
  | tuple (elems : List Ty) (trailing : Bool)

/-- A parameter of a function pointer type, with or without a name. -/
inductive FnPtrParam where
  | mk (name : Option String) (ty : Ty)
  /-- Any further parameters, which come last. -/
  | variadic (name : Option String) (comma : Bool)

/-- Words joined by `::`; a global path starts with `::`. -/
inductive Path where
  | mk (isGlobal : Bool) (segments : List Segment)

/-- A path, alone or behind a type in angle brackets. -/
inductive QualifiedPath where
  | plain (path : Path)
  /-- `<self>::rest`. -/
  | ofType (self : Ty) (rest : List Segment)
  /-- `<self as trait>::rest`. -/
  | ofTrait (self : Ty) (trait : Path) (rest : List Segment)

/-- A word of a path and its arguments. -/
inductive Segment where
  | plain (name : String)
  | angle (name : String) (turbofish : Bool) (args : List GenericArg) (trailing : Bool)
  | paren (name : String) (inputs : List Ty) (trailing : Bool) (output : Option Ty)

/-- An argument in angle brackets. -/
inductive GenericArg where
  | lifetime (name : String)
  | type (ty : Ty)
  | const (value : List Token)
  | assocType (head : Segment) (ty : Ty)
  | assocConst (head : Segment) (value : List Token)
  | constraint (head : Segment) (bounds : List Bound) (trailing : Bool)

/-- A bound on a type. -/
inductive Bound where
  | trait (isParen isMaybe : Bool) (binder : Option Binder) (path : Path)
  | lifetime (name : String)

end

namespace Segment

/-- The word itself. -/
def name : Segment → String
  | .plain name => name
  | .angle name _ _ _ => name
  | .paren name _ _ _ => name

/-- The segment has no arguments. -/
def isPlain : Segment → Bool
  | .plain _ => true
  | _ => false

end Segment

namespace Path

/-- A path of one word. -/
def word (name : String) : Path := .mk false [.plain name]

/-- A path of plain words. -/
def words (names : List String) : Path := .mk false (names.map .plain)

/-- The path starts with `::`. -/
def isGlobal : Path → Bool
  | .mk isGlobal _ => isGlobal

/-- The words of a path with their arguments. -/
def segments : Path → List Segment
  | .mk _ segments => segments

/-- No segment has arguments. -/
def isModulePath (p : Path) : Bool := p.segments.all Segment.isPlain

/-- The word of a path that is only that word. -/
def word? : Path → Option String
  | .mk false [.plain name] => some name
  | _ => none

/-- The path is exactly this word. -/
def isWord (p : Path) (name : String) : Bool := p.word? == some name

end Path

/-! ### Attributes -/

/-- What stands in an attribute after its path. -/
inductive AttributeInput where
  | nothing
  | group (delimiter : Delimiter) (body : List Token)
  | value (expr : List Token)

/-- An attribute; an inner one has `!` before its bracket. -/
structure Attribute where
  isInner : Bool
  path : Path
  input : AttributeInput

end EntityTable.Source
