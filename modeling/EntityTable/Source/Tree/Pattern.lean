import EntityTable.Source.Tree.Type

/-! # Patterns

The trees of patterns. The literals and constants in a pattern, alone or at the ends of a range,
are kept as their tokens. -/

namespace EntityTable.Source

mutual

/-- A pattern. -/
inductive Pat where
  | binding (isRef isMut : Bool) (name : String) (sub : Option Pat)
  | const (value : List Token)
  | macroCall (path : Path) (delimiter : Delimiter) (body : List Token)
  | or (leading : Bool) (cases : List Pat)
  | paren (inner : Pat)
  | path (path : QualifiedPath)
  | range (start : List Token) (limits : String) (stop : List Token)
  | reference (isMut : Bool) (inner : Pat)
  | rest
  | slice (elems : List Pat) (trailing : Bool)
  /-- A record; the attributes are those before `..`, if it stands there. -/
  | record (path : QualifiedPath) (fields : List PatField) (trailing : Bool)
      (others : Option (List Attribute))
  | tuple (elems : List Pat) (trailing : Bool)
  | tupleRecord (path : QualifiedPath) (elems : List Pat) (trailing : Bool)
  | wild

/-- A field of a record pattern. -/
inductive PatField where
  /-- The field's name is bound. -/
  | short (attrs : List Attribute) (pat : Pat)
  | named (attrs : List Attribute) (member : String) (pat : Pat)

end

end EntityTable.Source
