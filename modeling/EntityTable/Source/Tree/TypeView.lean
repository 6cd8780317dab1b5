import EntityTable.Source.Tree.TypeTokens
import EntityTable.Text.Replace

/-! # Views of a type

What is asked of a type without looking at all of it: the last word of its path, the item type of a
wrapper such as `Option<T>`, and a compact text for messages. -/

namespace EntityTable.Source

/-- The last segment of a path. -/
def QualifiedPath.lastSegment? : QualifiedPath → Option Segment
  | .plain path => path.segments.getLast?
  | .ofType _ rest => rest.getLast?
  | .ofTrait _ _ rest => rest.getLast?

namespace Ty

/-- The type that one word names. -/
def word (name : String) : Ty := .path (.plain (Path.word name))

/-- The type that words joined by `::` name. -/
def words (names : List String) : Ty := .path (.plain (Path.words names))

/-- The last word of a type that is a path without a type in front. -/
def lastWord? : Ty → Option String
  | .path (.plain p) => p.segments.getLast?.map Segment.name
  | _ => none

/-- The first argument of a type whose last word is the wrapper. -/
def wrapped? (wrapper : String) : Ty → Option Ty
  | .path p =>
    match p.lastSegment? with
    | some (.angle name _ (.type inner :: _) _) => if name = wrapper then some inner else none
    | _ => none
  | _ => none

/-- The type inside an `Option`. -/
def optionItem? (ty : Ty) : Option Ty := ty.wrapped? "Option"

/-- The type inside a `Vec`. -/
def listItem? (ty : Ty) : Option Ty := ty.wrapped? "Vec"

/-- The token text without the spaces around the punctuation of paths and arguments. -/
def display (ty : Ty) : String :=
  [(" :: ", "::"), (" < ", "<"), ("< ", "<"), (" <", "<"), (" >", ">"), (" ,", ",")].foldl
    (fun text (pattern, replacement) => Text.replaceAll pattern replacement text)
    (Token.textList ty.tokens)

end Ty

end EntityTable.Source
