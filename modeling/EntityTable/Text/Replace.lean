/-! # Replacement

Every occurrence of one text in another gives way to a third, from left to right and without
overlap. -/

namespace EntityTable.Text

/-- Replaces a pattern after dropping the given number of characters. -/
def replaceAfter (pattern replacement : List Char) : Nat → List Char → List Char
  | _, [] => []
  | skip + 1, _ :: rest => replaceAfter pattern replacement skip rest
  | 0, c :: rest =>
    if pattern.isPrefixOf (c :: rest) then
      replacement ++ replaceAfter pattern replacement (pattern.length - 1) rest
    else c :: replaceAfter pattern replacement 0 rest

/-- The text with every occurrence of the pattern replaced. -/
def replaceAll (pattern replacement : String) (text : String) : String :=
  String.ofList (replaceAfter pattern.toList replacement.toList 0 text.toList)

end EntityTable.Text
