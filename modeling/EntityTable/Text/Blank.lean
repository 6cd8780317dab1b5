import EntityTable.Text.CodePointSet

/-! # White space

The Unicode property `White_Space`, and removal of it from both ends of a text. -/

namespace EntityTable.Text

/-- The members of `White_Space`. -/
def blankTable : CodePointSet := ⟨[
  0x9, 0xe, 0x20, 0x21, 0x85, 0x86, 0xa0, 0xa1, 0x1680, 0x1681, 0x2000, 0x200b, 0x2028, 0x202a,
  0x202f, 0x2030, 0x205f, 0x2060, 0x3000, 0x3001]⟩

/-- A character with the property `White_Space`. -/
def isBlank (c : Char) : Bool := blankTable.contains c

/-- The text from its first character that is not blank on. -/
def trimStart (cs : List Char) : List Char := cs.dropWhile isBlank

/-- The text without the blanks at both ends. -/
def trim (cs : List Char) : List Char := (trimStart (trimStart cs).reverse).reverse

/-- The text has no character besides blanks. -/
def isBlankText (s : String) : Bool := s.toList.all isBlank

end EntityTable.Text
