import EntityTable.Layout.Code
import EntityTable.Table.Unit

/-! # Rendering

A unit is rendered as a source file: a line that marks it as generated, a blank line, and the layout
of the file that its tokens form. The tokens need not form one, because a type that stands alone may
not stand behind a reference. -/

namespace EntityTable.Table

open Source (File SyntaxError)

/-- The first line of a rendered unit. -/
def generatedMarker : String := "// @generated by table-dao. Do not edit by hand."

/-- The source file of a unit. -/
def GeneratedUnit.render (u : GeneratedUnit) : Except SyntaxError String := do
  let file ← File.ofTokens u.tokens
  return generatedMarker ++ "\n\n" ++ Layout.fileText file

end EntityTable.Table
