import EntityTable.Source.Parser.Type

/-! # Parsing patterns

A pattern with alternatives may start with `|`. A name is a binding unless what follows makes it a
path, a macro call, a record or the start of a range. -/

namespace EntityTable.Source

open EntityTable.Source.Parser

/-- `|` between alternatives, not part of a longer operator. -/
def startsAlternative (tokens : List Token) : Bool :=
  startsOperator "|" tokens && !startsOperator "||" tokens && !startsOperator "|=" tokens

/-- What a pattern may start with, as named in errors. -/
def patternStarts : List String :=
  ["identifier", "`::`", "`<`", "`_`", "literal", "`const`", "`ref`", "`mut`", "`&`",
    "parentheses", "square brackets", "`..`"]

namespace Grammar

variable (g : Grammar)

/-- A pattern, with alternatives or without. -/
def alternatives : Parser Pat := do
  let leading ← if ← peek startsAlternative then operator? "|" else pure false
  let first ← g.pat
  if leading || (← peek startsAlternative) then
    let cases ← iterate
      (fun cases => do
        if ← peek startsAlternative then
          operator "|"
          return some (cases ++ [← g.pat])
        else return none)
      [first]
    return .or leading cases
  else return first

/-- What may follow a name that starts a path. -/
def followsPath (tokens : List Token) : Bool :=
  startsOperator "::" tokens || startsOperator "!" tokens || startsGroup .brace tokens ||
    startsGroup .paren tokens || startsOperator ".." tokens

/-- The pattern starts with a path. -/
def startsPathPattern (tokens : List Token) : Bool :=
  (startsIdent tokens && followsPath (tokens.drop 1)) ||
    (startsWord "self" tokens && startsOperator "::" (tokens.drop 1)) ||
    startsOperator "::" tokens || startsOperator "<" tokens ||
    startsWordOf ["Self", "super", "crate"] tokens

/-- The operator of a range pattern; three dots are an old spelling. -/
def rangeLimits : Parser String := do
  if (← operator? "..=") || (← operator? "...") then return "..="
  else
    operator ".."
    return ".."

/-- A constant without a path: a literal, maybe with a sign, or a block. -/
def literalPattern : Parser (List Token) := do
  match ← rest with
  | .punct '-' _ :: .literal text :: tokens =>
    advance tokens
    return [.punct '-' false, .literal text]
  | .literal text :: tokens => advance tokens; return [.literal text]
  | .word w :: tokens =>
    if w = "true" ∨ w = "false" then do advance tokens; return [.word w]
    else if w = "const" then do
      advance tokens
      return (Expr.block .const (← g.block)).tokens
    else expected ["literal"]
  | _ => expected ["literal"]

/-- No end of a range stands here. -/
def endsRange (tokens : List Token) : Bool :=
  tokens.isEmpty || startsOperator "|" tokens || startsOperator "=" tokens ||
    (startsOperator ":" tokens && !startsOperator "::" tokens) || startsOperator "," tokens ||
    startsOperator ";" tokens || startsWord "if" tokens

/-- The end of a range pattern, which may be missing. -/
def rangeEnd : Parser (List Token) := do
  let tokens ← rest
  if endsRange tokens then return []
  else if startsIdent tokens || startsOperator "::" tokens || startsOperator "<" tokens ||
      startsWordOf ["self", "Self", "super", "crate"] tokens then
    return (← g.qualifiedPath true).tokens
  else g.literalPattern

/-- A range from the given start. -/
def rangeFrom (start : List Token) : Parser Pat := do
  let limits ← rangeLimits
  return .range start limits (← g.rangeEnd)

/-- The number of a field as it is written; it has 32 bits. -/
def memberNumber (text : List Char) : Parser String := do
  let digits := text.filter (· != '_')
  if digits.isEmpty || !digits.all Char.isDigit then
    throw (.rule "expected unsuffixed integer")
  let number : Nat := digits.foldl (fun n c => 10 * n + (c.toNat - 48)) 0
  if number < Nat.pow 2 32 then return toString number
  else throw (.rule "number too large to fit in target type")

/-- The name or number of a field. -/
def member : Parser String := do
  match ← rest with
  | .literal text :: tokens =>
    if Literal.kind text == .int then do advance tokens; memberNumber text.toList
    else expected ["identifier or integer"]
  | tokens => if startsIdent tokens then ident else expected ["identifier or integer"]

/-- A field of a record pattern; a number needs a pattern, and a marked name has none. -/
def fieldPattern (attrs : List Attribute) : Parser PatField := do
  let isRef ← word? "ref"
  let isMut ← word? "mut"
  let isMarked := isRef || isMut
  let name ← if isMarked then ident else member
  let isNumber := name.toList.head?.any Char.isDigit
  if isNumber || (!isMarked && (← peek (startsOperator ":"))) then
    operator ":"
    return .named attrs name (← g.alternatives)
  else return .short attrs (.binding isRef isMut name none)

/-- The fields of a record pattern, and the attributes before `..` if it ends them. -/
def fieldPatterns : Parser (List PatField × Bool × Option (List Attribute)) :=
  iterate
    (fun (fields, trailing, others) => do
      if others.isSome || (← atEnd) then return none
      else
        let attrs ← g.attributes
        if ← operator? ".." then return some (fields, trailing, some attrs)
        else
          let field ← g.fieldPattern attrs
          if ← atEnd then return some (fields ++ [field], false, none)
          else
            operator ","
            return some (fields ++ [field], true, none))
    ([], false, none)

/-- A pattern that starts with a path. -/
def pathPattern : Parser Pat := do
  let path ← g.qualifiedPath true
  let macroPath? := match path with
    | .plain path => if path.isModulePath then some path else none
    | _ => none
  match macroPath?, ← peek startsMacroBody with
  | some path, true =>
    operator "!"
    let (d, body) ← macroBody
    return .macroCall path d body
  | _, _ =>
    let tokens ← rest
    if startsGroup .brace tokens then
      let (fields, trailing, others) ← inGroup .brace g.fieldPatterns
      return .record path fields trailing others
    else if startsGroup .paren tokens then
      let (elems, trailing) ← inGroup .paren (commaList g.alternatives)
      return .tupleRecord path elems trailing
    else if startsOperator ".." tokens then g.rangeFrom path.tokens
    else return .path path

/-- A binding with its marks and what it is bound to. -/
def bindingPattern : Parser Pat := do
  let isRef ← word? "ref"
  let isMut ← word? "mut"
  let name ← if ← peek (startsWord "self") then anyWord else ident
  if ← operator? "@" then return .binding isRef isMut name (some (← g.pat))
  else return .binding isRef isMut name none

/-- A pattern in parentheses: alone, or a tuple. -/
def parenPattern : Parser Pat := do
  let (elems, trailing) ← inGroup .paren (commaList g.alternatives)
  match elems, trailing with
  | [.rest], false => return .tuple elems trailing
  | [inner], false => return .paren inner
  | _, _ => return .tuple elems trailing

/-- A pattern, given the parsers for the patterns inside it. -/
def parsePat : Parser Pat := do
  let tokens ← rest
  if startsPathPattern tokens then g.pathPattern
  else if ← word? "_" then return .wild
  else if startsOperator "-" tokens || startsLiteral tokens || startsWord "const" tokens then
    let start ← g.literalPattern
    if ← peek (startsOperator "..") then g.rangeFrom start
    else return .const start
  else if startsIdent tokens || startsWordOf ["ref", "mut", "self"] tokens then g.bindingPattern
  else if ← operator? "&" then
    let isMut ← word? "mut"
    return .reference isMut (← g.pat)
  else if startsGroup .paren tokens then g.parenPattern
  else if startsGroup .bracket tokens then
    let (elems, trailing) ← inGroup .bracket (commaList g.alternatives)
    return .slice elems trailing
  else if startsOperator ".." tokens && !startsOperator "..." tokens then
    let limits ← rangeLimits
    if endsRange (← rest) then
      if limits = ".." then return .rest else expected ["range upper bound"]
    else return .range [] limits (← g.rangeEnd)
  else expected patternStarts

end Grammar

end EntityTable.Source
