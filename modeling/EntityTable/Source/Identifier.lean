import EntityTable.Source.Parser.Item

/-! # Identifiers

The names that a declaration may use: one identifier with nothing else but blanks and comments
around it. A raw identifier is not a name in this sense. -/

namespace EntityTable.Source

/-- The identifier that a text denotes, unless it is a raw one. -/
def identifier? (text : String) : Option String :=
  if ['r', '#'].isPrefixOf text.toList then none
  else (identOfText text).toOption

end EntityTable.Source
