import EntityTable.Source.Literal
import EntityTable.Source.Tree.Expr
import EntityTable.Source.Tree.TypeView

/-! # Building trees

Short names for the trees that generated code is made of. Texts go into string literals, which quote
them. -/

namespace EntityTable.Source

/-! ### Types -/

namespace Ty

/-- A type with arguments. -/
def applied (name : String) (args : List Ty) : Ty :=
  .path (.plain (.mk false [.angle name false (args.map .type) false]))

/-- A shared reference. -/
def shared (target : Ty) : Ty := .reference none false target

/-- The type of no value. -/
def unit : Ty := .tuple [] false

end Ty

/-! ### Patterns -/

namespace Pat

/-- A variable. -/
def var (name : String) : Pat := .binding false false name none

/-- A variable that may be changed. -/
def mutVar (name : String) : Pat := .binding false true name none

end Pat

/-! ### Attributes -/

namespace Attribute

/-- A documentation line of a given spelling. -/
def doc (spelled : String) : Attribute := ⟨false, .word "doc", .value [.literal spelled]⟩

/-- A documentation line with a text in quotes. -/
def docText (text : String) : Attribute := doc (Literal.quote text)

/-- A documentation line that is written without escapes; the text must not need any. -/
def docLine (text : String) : Attribute := doc ("r\x22" ++ text ++ "\x22")

/-- An attribute with words as arguments. -/
def listing (name : String) (words : List String) : Attribute :=
  ⟨false, .word name, .group .paren (separated "," false (words.map wordToken))⟩

end Attribute

/-! ### Expressions -/

namespace Expr

/-- A path of one word. -/
def word (name : String) : Expr := .path (.plain (.word name))

/-- A path of words. -/
def words (names : List String) : Expr := .path (.plain (.words names))

/-- A path of words that starts with `::`. -/
def globalWords (names : List String) : Expr := .path (.plain (.mk true (names.map .plain)))

/-- The literal that denotes a text. -/
def text (value : String) : Expr := .lit (Literal.quote value)

/-- A call. -/
def apply (callee : Expr) (args : List Expr) : Expr := .call callee args false

/-- A method call. -/
def method (receiver : Expr) (name : String) (args : List Expr) : Expr :=
  .methodCall receiver (.plain name) args false

/-- The result of a future, with its error passed on. -/
def awaited (e : Expr) : Expr := .question (.await e)

/-- A shared reference. -/
def shared (e : Expr) : Expr := .reference false e

/-- A function of one variable. -/
def lambda (name : String) (body : Expr) : Expr :=
  .closure none ⟨false, false, false, false⟩ [⟨[], .var name, none⟩] false none body

end Expr

/-! ### Statements -/

namespace Stmt

/-- A variable with its value. -/
def bind (pat : Pat) (value : Expr) : Stmt := .binding [] pat none (some value) none

/-- An expression for its effect. -/
def run (e : Expr) : Stmt := .expr e true

/-- The value of a block. -/
def yields (e : Expr) : Stmt := .expr e false

end Stmt

end EntityTable.Source
