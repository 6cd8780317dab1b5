import EntityTable.Source.Parser.Item

/-! # Imports

An import is a tree of names together with the text it was read from. Two imports are the same if
their texts are. -/

namespace EntityTable.Source

/-- A `use` declaration. -/
structure Import where
  path : String
  tree : UseTree

namespace Import

/-- The import that a text such as `a::b::{C, D}` describes. -/
def ofText? (text : String) : Option Import :=
  (UseTree.ofText text).toOption.map fun tree => ⟨text, tree⟩

/-- The item that declares the import. -/
def item (i : Import) : Item := .use [] .inherited false i.tree

/-- The tokens of the declaration. -/
def tokens (i : Import) : List Token := i.item.tokens

end Import

end EntityTable.Source
