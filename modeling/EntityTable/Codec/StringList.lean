/-! # Lists of strings

A list is stored as its elements with a comma between each two. Elements are not escaped, so the
empty text stands for the empty list, and an element with a comma in it comes back as several. -/

namespace EntityTable.Codec

/-- The character between two elements. -/
def listSeparator : Char := ','

/-- The pieces of a text between the separators; there is always at least one. -/
def splitPieces : List Char → List (List Char)
  | [] => [[]]
  | c :: rest =>
    if c = listSeparator then [] :: splitPieces rest
    else
      match splitPieces rest with
      | piece :: pieces => (c :: piece) :: pieces
      | [] => [[c]]

/-- The characters of several pieces with the separator between each two. -/
def joinPieces : List (List Char) → List Char
  | [] => []
  | [piece] => piece
  | piece :: pieces => piece ++ listSeparator :: joinPieces pieces

/-- The text that stores a list. -/
def encodeList (values : List String) : String :=
  String.ofList (joinPieces (values.map String.toList))

/-- The list that a text stores. -/
def decodeList (text : String) : List String :=
  match text.toList with
  | [] => []
  | cs => (splitPieces cs).map String.ofList

end EntityTable.Codec
