import EntityTable.Entity.AttributeError
import EntityTable.Source.Literal
import EntityTable.Source.Parser.Declaration

/-! # Items of an attribute

The arguments of an attribute are items separated by commas: a bare literal, or a path alone, with a
list, or with a value. A value is asked for a text or a truth value and answers with what is wrong if
it is neither. -/

namespace EntityTable.Entity

open Source Source.Parser

/-- What an item says about its name. -/
inductive MetaValue where
  | word
  | list (body : List Token)
  /-- A literal as it is spelled, with its sign. -/
  | literal (text : String)
  | expr (value : Expr)

/-- An item of an attribute. -/
inductive MetaItem where
  | literal
  | named (path : Path) (value : MetaValue)

/-! ### Kinds of values -/

/-- The kind of a literal, as named in errors. -/
def literalKind (text : String) : String :=
  if text = "true" ∨ text = "false" then "bool"
  else
    match Literal.kind (String.ofList (text.toList.dropWhile (· == '-'))) with
    | .string => "string"
    | .byteString => "byte string"
    | .cString => "unknown"
    | .byte => "byte"
    | .char => "char"
    | .int => "int"
    | .float => "float"

/-- The kind of an expression, as named in errors. -/
def exprKind : Expr → String
  | .array .. => "array"
  | .assign .. => "assign"
  | .attributed _ inner => exprKind inner
  | .await _ => "await"
  | .binary .. => "binary"
  | .block (.plain _) _ => "block"
  | .block (.async _) _ => "async"
  | .block .const _ => "const"
  | .block (.loop _) _ => "loop"
  | .block .tryOut _ => "try_block"
  | .block .unchecked _ => "unsafe"
  | .brk .. => "break"
  | .call .. => "call"
  | .cast .. => "cast"
  | .closure .. => "closure"
  | .cont _ => "continue"
  | .field .. => "field"
  | .forLoop .. => "for_loop"
  | .ifElse .. => "if"
  | .index .. => "index"
  | .infer => "infer"
  | .letCond .. => "let"
  | .lit _ => "lit"
  | .macroCall .. => "macro"
  | .matchOn .. => "match"
  | .methodCall .. => "method_call"
  | .paren _ => "paren"
  | .path _ => "path"
  | .question _ => "try"
  | .range .. => "range"
  | .rawAddress .. => "unknown"
  | .record .. => "struct"
  | .reference .. => "reference"
  | .repetition .. => "repeat"
  | .ret _ => "return"
  | .tuple .. => "tuple"
  | .unary .. => "unary"
  | .whileLoop .. => "while"
  | .yield _ => "yield"

/-! ### Parsing items -/

/-- A value after `=`. A literal, with a sign or without, counts as such if nothing follows it. -/
def metaValue (g : Grammar) : Parser MetaValue := do
  match ← rest with
  | [.literal text] => advance []; return .literal text
  | [.punct '-' _, .literal text] => advance []; return .literal ("-" ++ text)
  | tokens =>
    if startsOperator "#" tokens && startsGroup .bracket (tokens.drop 1) then
      throw (.rule "unexpected attribute inside of attribute")
    else
      match ← g.expr true with
      | .lit text => return .literal text
      | value => return .expr value

/-- An item that starts with a path. -/
def namedItem (g : Grammar) : Parser MetaItem := do
  let path ← if ← word? "unsafe" then pure (Path.word "unsafe") else modulePath
  match ← rest with
  | .group _ body :: tokens => advance tokens; return .named path (.list body)
  | _ =>
    if ← operator? "=" then return .named path (← metaValue g)
    else return .named path .word

/-- An item. The words for the truth values are literals unless they are given a value. -/
def metaItem (g : Grammar) : Parser MetaItem := do
  let tokens ← rest
  let isNamedTruth :=
    startsWordOf ["true", "false"] tokens && startsOperator "=" (tokens.drop 1)
  match tokens with
  | .literal _ :: tokens => advance tokens; return .literal
  | .punct '-' _ :: .literal _ :: tokens => advance tokens; return .literal
  | _ =>
    if startsWordOf ["true", "false"] tokens && !isNamedTruth then
      advance (tokens.drop 1)
      return .literal
    else if startsAnyWord tokens ||
        (startsOperator "::" tokens && startsAnyWord (tokens.drop 2)) then
      namedItem g
    else throw (.rule "expected identifier or literal")

/-- The items of a list. -/
def MetaItem.listOf (body : List Token) : Except SyntaxError (List MetaItem) :=
  runAll (Prod.fst <$> commaList (metaItem (Grammar.forTokens body))) body

/-- The value of an attribute that is given after `=`. -/
def MetaValue.ofTokens (tokens : List Token) : Except SyntaxError MetaValue :=
  runAll (metaValue (Grammar.forTokens tokens)) tokens

/-- The name of an item: the words of its path. -/
def pathName (path : Path) : String := "::".intercalate (path.segments.map Segment.name)

/-! ### Reading values -/

namespace MetaValue

/-- Why the value is not of the kind that is asked for. -/
def mismatch : MetaValue → AttributeFault
  | word => .unexpectedFormat "word"
  | list body =>
    match MetaItem.listOf body with
    | .ok _ => .unexpectedFormat "list"
    | .error reason => .broken reason
  | literal text => .unexpectedType (literalKind text)
  | expr value => .unexpectedType (exprKind value)

/-- The text that the value denotes. -/
def asText (value : MetaValue) : Except AttributeFault String :=
  match value with
  | literal spelled => (Literal.value? spelled).elim (.error value.mismatch) .ok
  | _ => .error value.mismatch

/-- The truth value that the value denotes; the word alone means yes. -/
def asTruth (value : MetaValue) : Except AttributeFault Bool :=
  match value with
  | word => .ok true
  | literal "true" => .ok true
  | literal "false" => .ok false
  | literal spelled =>
    match Literal.value? spelled with
    | some "true" => .ok true
    | some "false" => .ok false
    | some text => .error (.unknownValue text)
    | none => .error value.mismatch
  | _ => .error value.mismatch

/-- The type that the text of the value denotes. -/
def asType (value : MetaValue) : Except AttributeFault Ty := do
  let text ← value.asText
  match Ty.ofText text with
  | .ok ty => .ok ty
  | .error _ => .error (.unknownValue text)

end MetaValue

end EntityTable.Entity
