import EntityTable.Source.Parser.Item
import EntityTable.Text.Alphanumeric
import EntityTable.Text.Blank

/-! # Expression templates

A template is the text of an expression with one hole, written `{}`. It is kept as the texts
before and after the hole. Filling puts a source text into the hole, in parentheses if an operator
follows that would otherwise apply to the end of the source only. -/

namespace EntityTable.Column

open Source (SyntaxError)

/-- Why a text is not a template. -/
inductive TemplateError where
  | holeCount (count : Nat)
  | notExpression (reason : SyntaxError)
  deriving Repr

/-- The text of an error. -/
def TemplateError.message : TemplateError → String
  | holeCount count => "expected exactly one `\x7b\x7d` hole, found " ++ toString count
  | notExpression reason => "not a Rust expression: " ++ reason.message

/-- A text with one hole. -/
structure Template where
  before : String
  after : String
  deriving DecidableEq, Repr

/-- The pieces of a text between its holes. -/
def holePieces : List Char → List (List Char)
  | [] => [[]]
  | '\x7b' :: '\x7d' :: rest => [] :: holePieces rest
  | c :: rest =>
    match holePieces rest with
    | piece :: pieces => (c :: piece) :: pieces
    | [] => [[c]]

/-- The source is one word of letters, digits and low lines. -/
def isPlainSource (source : String) : Bool :=
  !source.isEmpty && source.toList.all fun c => Text.isAlphanumeric c || c == '_'

namespace Template

/-- The template that returns its source. -/
def identity : Template := ⟨"", ""⟩

/-- The template returns its source. -/
def isIdentity (t : Template) : Bool := t.before.isEmpty && t.after.isEmpty

/-- The template with its hole. -/
def text (t : Template) : String := t.before ++ "\x7b\x7d" ++ t.after

/-- The first character after the hole that is not blank is a postfix operator. -/
def isPostfix (t : Template) : Bool :=
  match Text.trimStart t.after.toList with
  | c :: _ => c == '.' || c == '?' || c == '['
  | [] => false

/-- The source in parentheses if the template and the source call for them. -/
def guarded (t : Template) (source : String) : String :=
  if t.isPostfix && !isPlainSource source then "(" ++ source ++ ")" else source

/-- The template with a source in its hole. -/
def fill (t : Template) (source : String) : String := t.before ++ t.guarded source ++ t.after

/-- The word that stands for a source when a template is checked. -/
def sampleSource : String := "__value"

/-- The template that a text describes: it must have one hole and be an expression once that is
filled. -/
def ofText (text : String) : Except TemplateError Template :=
  match holePieces text.toList with
  | [before, after] =>
    let t : Template := ⟨String.ofList before, String.ofList after⟩
    match Source.Expr.ofText (t.fill sampleSource) with
    | .ok _ => .ok t
    | .error reason => .error (.notExpression reason)
  | pieces => .error (.holeCount (pieces.length - 1))

/-- The template that applies the inner one first. A text with a hole is never a plain source, so
only the operator after the outer hole decides on parentheses. -/
def around (outer inner : Template) : Template :=
  if inner.isIdentity then outer
  else if outer.isIdentity then inner
  else if outer.isPostfix then
    ⟨outer.before ++ "(" ++ inner.before, inner.after ++ ")" ++ outer.after⟩
  else ⟨outer.before ++ inner.before, inner.after ++ outer.after⟩

end Template

end EntityTable.Column
