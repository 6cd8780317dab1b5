import EntityTable.Source.Parser.Item

/-! # Parsing declarations

A declaration is the one item that an entity is described by: a struct with its attributes and
fields. Enumerations and unions are parsed too, but only their form is checked. Of generic
parameters nothing is kept but whether there are any. -/

namespace EntityTable.Source

open EntityTable.Source.Parser

/-- The form of a declared type. -/
inductive DeclarationBody where
  | named (fields : List FieldDef)
  | unnamed
  | enumOrUnion

/-- A declared type. -/
structure Declaration where
  attrs : List Attribute
  name : String
  isGeneric : Bool
  body : DeclarationBody

/-- What ends a predicate or a list of predicates. -/
def endsPredicate (tokens : List Token) : Bool :=
  tokens.isEmpty || startsGroup .brace tokens || startsOperator "," tokens ||
    startsOperator ";" tokens || startsOperator "=" tokens ||
    (startsOperator ":" tokens && !startsOperator "::" tokens)

/-- What ends the bounds of a generic parameter. -/
def endsParameter (tokens : List Token) : Bool :=
  startsOperator "," tokens || startsOperator ">" tokens || startsOperator "=" tokens

/-- Elements with `+` between them, up to a stop; there may be none. -/
def sumUntil (stop : List Token → Bool) (element : Parser Unit) : Parser Unit := do
  let _ ← iterate
    (fun (again : Bool) => do
      if !again || (← peek stop) then return none
      else
        element
        return some (← operator? "+"))
    true

namespace Grammar

variable (g : Grammar)

/-- A generic parameter. -/
def genericParam : Parser Unit := do
  let _ ← g.attributes
  let tokens ← rest
  if startsLifetime tokens then
    let _ ← lifetime
    if ← operator? ":" then sumUntil endsParameter (discard lifetime)
  else if startsWord "const" tokens then
    word "const"
    let _ ← ident
    operator ":"
    let _ ← g.ty true
    if ← operator? "=" then
      let tokens ← rest
      if startsLiteral tokens || startsGroup .brace tokens then discard g.constArg
      else discard ident
  else if startsIdent tokens || startsWord "_" tokens then
    let _ ← anyWord
    if ← operator? ":" then sumUntil endsParameter (discard g.bound)
    if ← operator? "=" then discard (g.ty true)
  else expected ["lifetime", "identifier", "`const`", "`_`"]

/-- Generic parameters in angle brackets; the result tells whether there are any. -/
def genericParams : Parser Bool := do
  if ← operator? "<" then
    let (params, _) ← listUntil (startsOperator ">") "," g.genericParam
    operator ">"
    return !params.isEmpty
  else return false

/-- A condition on a type or a lifetime. -/
def predicate : Parser Unit := do
  if (← peek startsLifetime) && (← peekAfter 1 (startsOperator ":")) then
    let _ ← lifetime
    operator ":"
    sumUntil endsPredicate (discard lifetime)
  else
    let _ ← binder?
    let _ ← g.ty true
    operator ":"
    sumUntil endsPredicate (discard g.bound)

/-- Conditions after `where`, if it stands here. -/
def conditions? : Parser Bool := do
  if ← word? "where" then
    let _ ← iterate
      (fun (again : Bool) => do
        if !again || (← peek endsPredicate) then return none
        else
          g.predicate
          return some (← operator? ","))
      true
    return true
  else return false

/-- What follows the name and parameters of a struct. -/
def structBody : Parser DeclarationBody := do
  let hasConditions ← g.conditions?
  let tokens ← rest
  if !hasConditions && startsGroup .paren tokens then
    let _ ← g.positionalFields
    let _ ← g.conditions?
    operator ";"
    return .unnamed
  else if startsGroup .brace tokens then
    let (fields, _) ← inGroup .brace (commaList g.namedField)
    return .named fields
  else
    operator ";"
    return .unnamed

/-- A case of an enumeration. -/
def enumCase : Parser Unit := do
  let _ ← g.attributes
  let _ ← visibility
  let _ ← ident
  let tokens ← rest
  if startsGroup .brace tokens then discard g.namedFields
  else if startsGroup .paren tokens then discard g.positionalFields
  if ← operator? "=" then discard (g.expr true)

/-- A declaration. -/
def declaration : Parser Declaration := do
  let attrs ← g.attributes
  let _ ← visibility
  if ← word? "struct" then
    let name ← ident
    let isGeneric ← g.genericParams
    return ⟨attrs, name, isGeneric, ← g.structBody⟩
  else if ← word? "enum" then
    let name ← ident
    let isGeneric ← g.genericParams
    let _ ← g.conditions?
    let _ ← inGroup .brace (commaList g.enumCase)
    return ⟨attrs, name, isGeneric, .enumOrUnion⟩
  else if ← word? "union" then
    let name ← ident
    let isGeneric ← g.genericParams
    let _ ← g.conditions?
    let _ ← g.namedFields
    return ⟨attrs, name, isGeneric, .enumOrUnion⟩
  else expected ["`struct`", "`enum`", "`union`"]

end Grammar

/-- The declaration that a text consists of. -/
def Declaration.ofText (text : String) : Except SyntaxError Declaration :=
  runText (fun tokens => (Grammar.forTokens tokens).declaration) text

/-- The struct field that a text consists of, with a name or without. -/
def FieldDef.ofText (isNamed : Bool) (text : String) : Except SyntaxError FieldDef :=
  runText
    (fun tokens =>
      let g := Grammar.forTokens tokens
      if isNamed then g.namedField else g.positionalField)
    text

end EntityTable.Source
