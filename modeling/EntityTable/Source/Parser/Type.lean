import EntityTable.Source.Parser.Grammar

/-! # Parsing paths, types and attributes

In a type the arguments of a path follow their word directly; in an expression they need `::` before
the bracket, because `<` is an operator there. A sum of bounds is a type of its own only where
`allowPlus` holds, so `&A + B` does not take in the `+`. -/

namespace EntityTable.Source

open EntityTable.Source.Parser

/-! ### Paths -/

/-- Words that start a path segment without being identifiers. -/
def pathWords : List String := ["super", "self", "crate", "try"]

/-- A `<` that opens arguments and is not part of a longer operator. -/
def startsArgs (tokens : List Token) : Bool :=
  startsOperator "<" tokens && !startsOperator "<=" tokens && !startsOperator "<<=" tokens

/-- `::` with a bracket after it. -/
def startsTurbofish (tokens : List Token) : Bool :=
  startsOperator "::" tokens && startsOperator "<" (tokens.drop 2)

namespace Grammar

variable (g : Grammar)

/-- A constant among generic arguments. -/
def constArg : Parser (List Token) := do
  match ← rest with
  | .punct '-' _ :: .literal text :: tokens =>
    advance tokens
    return [.punct '-' false, .literal text]
  | .literal text :: tokens => advance tokens; return [.literal text]
  | .word w :: tokens =>
    if w = "true" ∨ w = "false" then do advance tokens; return [.word w]
    else expected ["literal", "curly braces"]
  | _ => return (Expr.block (.plain none) (← g.block)).tokens

/-- The lifetimes after `for`. -/
def binder : Parser Binder := do
  word "for"
  operator "<"
  let (lifetimes, trailing) ← listUntil (startsOperator ">") "," lifetime
  operator ">"
  return ⟨lifetimes, trailing⟩

/-- The lifetimes after `for`, if it stands here. -/
def binder? : Parser (Option Binder) := do
  if ← peek (startsWord "for") then return some (← binder) else return none

/-- Arguments in parentheses and a result. -/
def parenArgs (name : String) : Parser Segment := do
  let (inputs, trailing) ← inGroup .paren (commaList (g.ty true))
  let output ← if ← operator? "->" then some <$> g.ty false else pure none
  return .paren name inputs trailing output

/-- A bound, with its own parentheses or without. -/
def bound : Parser Bound := do
  match ← lifetime? with
  | some name => return .lifetime name
  | none =>
    let isParen ← peek (startsGroup .paren)
    let inner : Parser Bound := do
      let binder ← binder?
      let isMaybe ← operator? "?"
      let .mk isGlobal segments ← g.path
      match segments.reverse with
      | .plain name :: before =>
        let direct ← peek (startsGroup .paren)
        let behind := startsOperator "::" (← rest) && startsGroup .paren ((← rest).drop 2)
        if direct || behind then
          let _ ← operator? "::"
          let last ← g.parenArgs name
          return .trait isParen isMaybe binder (.mk isGlobal (before.reverse ++ [last]))
        else return .trait isParen isMaybe binder (.mk isGlobal segments)
      | _ => return .trait isParen isMaybe binder (.mk isGlobal segments)
    if isParen then inGroup .paren inner else inner

/-- What may follow a `+` between bounds. -/
def startsBound (tokens : List Token) : Bool :=
  startsAnyWord tokens || startsOperator "::" tokens || startsOperator "?" tokens ||
    startsLifetime tokens || startsGroup .paren tokens

/-- Bounds after a first one, as long as `+` stands between them. -/
def moreBounds (first : Bound) : Parser (List Bound × Bool) := do
  let (bounds, trailing) ← iterate
    (fun (bounds, trailing) => do
      if trailing then return none
      else if ← operator? "+" then
        if ← peek startsBound then
          return some (bounds ++ [← g.bound], false)
        else return some (bounds, true)
      else return none)
    ([first], false)
  return (bounds, trailing)

/-- Bounds after a first one; each `+` has to be followed by one. -/
def furtherBounds (first : Bound) : Parser (List Bound) :=
  iterate
    (fun bounds => do
      if ← operator? "+" then return some (bounds ++ [← g.bound]) else return none)
    [first]

/-- One bound, or a sum of bounds where that is allowed. -/
def bounds (allowPlus : Bool) : Parser (List Bound × Bool) := do
  let first ← g.bound
  if allowPlus then g.moreBounds first else return ([first], false)

/-- A path with one plain segment or one with arguments in brackets, as the head of a binding. -/
def bindingHead? : Ty → Option Segment
  | .path (.plain (.mk false [segment])) =>
    match segment with
    | .paren .. => none
    | _ => some segment
  | _ => none

/-- A generic argument. -/
def genericArg : Parser GenericArg := do
  let tokens ← rest
  if startsLifetime tokens && !startsOperator "+" (tokens.drop 1) then
    return .lifetime (← lifetime)
  if startsLiteral tokens || startsGroup .brace tokens then
    return .const (← g.constArg)
  let ty ← g.ty true
  match bindingHead? ty with
  | some head =>
    if ← operator? "=" then
      let tokens ← rest
      if startsLiteral tokens || startsGroup .brace tokens then
        return .assocConst head (← g.constArg)
      else return .assocType head (← g.ty true)
    else if ← operator? ":" then
      let stop := fun tokens => startsOperator "," tokens || startsOperator ">" tokens
      let (bounds, trailing) ← listUntil stop "+" g.bound
      return .constraint head bounds trailing
    else return .type ty
  | none => return .type ty

/-- Arguments in angle brackets after a word. -/
def angleArgs (name : String) (turbofish : Bool) : Parser Segment := do
  operator "<"
  let (args, trailing) ← listUntil (startsOperator ">") "," g.genericArg
  operator ">"
  return .angle name turbofish args trailing

/-- A path segment. -/
def segment (inExpr : Bool) : Parser Segment := do
  let tokens ← rest
  if startsWordOf pathWords tokens then return .plain (← anyWord)
  let name ← if startsWord "Self" tokens then anyWord else ident
  let tokens ← rest
  if !inExpr && startsArgs tokens then g.angleArgs name false
  else if startsTurbofish tokens then
    operator "::"
    g.angleArgs name true
  else return .plain name

/-- The segments after a first one. -/
def moreSegments (inExpr : Bool) (first : Segment) :
    Parser (List Segment) := do
  iterate
    (fun segments => do
      let tokens ← rest
      if startsOperator "::" tokens && !startsGroup .paren (tokens.drop 2) then
        operator "::"
        return some (segments ++ [← g.segment inExpr])
      else return none)
    [first]

/-- A path that is not qualified. -/
def plainPath (inExpr : Bool) : Parser Path := do
  let isGlobal ← operator? "::"
  let first ← g.segment inExpr
  return .mk isGlobal (← g.moreSegments inExpr first)

/-- A path as it stands in a type or in an expression, qualified or not. -/
def qualifiedPath (inExpr : Bool) : Parser QualifiedPath := do
  if ← peek (startsOperator "<") then
    operator "<"
    let self ← g.ty true
    let trait ← if ← word? "as" then some <$> g.path else pure none
    operator ">"
    operator "::"
    let first ← g.segment inExpr
    let segments ← iterate
      (fun segments => do
        if ← operator? "::" then return some (segments ++ [← g.segment inExpr])
        else return none)
      [first]
    match trait with
    | some trait => return .ofTrait self trait segments
    | none => return .ofType self segments
  else return .plain (← g.plainPath inExpr)

end Grammar

/-- A path of words without arguments. -/
def modulePath : Parser Path := do
  let isGlobal ← operator? "::"
  let startsSegment := fun tokens =>
    startsIdent tokens || startsWordOf ["super", "self", "Self", "crate"] tokens
  if !(← peek startsSegment) then
    let _ ← ident
  let first ← anyWord
  let (names, trailing) ← iterate
    (fun (names, trailing) => do
      if trailing then return none
      else if ← operator? "::" then
        if ← peek startsSegment then return some (names ++ [← anyWord], false)
        else return some (names, true)
      else return none)
    ([first], false)
  if trailing then expected ["path segment after `::`"]
  else return .mk isGlobal (names.map .plain)

/-- The delimited tokens of a macro call. -/
def macroBody : Parser (Delimiter × List Token) := do
  match ← rest with
  | .group d body :: tokens => advance tokens; return (d, body)
  | _ => expected ["delimiter"]

/-- `!` that starts the arguments of a macro call. -/
def startsMacroBody (tokens : List Token) : Bool :=
  startsOperator "!" tokens && !startsOperator "!=" tokens

/-! ### Types -/

/-- What a type may start with, as named in errors. -/
def typeStarts : List String :=
  ["`for`", "parentheses", "`fn`", "`unsafe`", "`extern`", "identifier", "`::`", "`<`", "`dyn`",
    "square brackets", "`*`", "`&`", "`!`", "`impl`", "`_`", "lifetime"]

namespace Grammar

variable (g : Grammar)

/-- `unsafe` and `extern` with the name of a convention, before `fn`. -/
def fnQualifiers : Parser (List Token) := do
  let unchecked ← word? "unsafe"
  let convention ← if ← word? "extern" then
      match ← rest with
      | .literal text :: tokens => do
        advance tokens
        pure [Token.word "extern", .literal text]
      | _ => pure [Token.word "extern"]
    else pure []
  return wordIf unchecked "unsafe" ++ convention

/-- The name of a parameter of a function pointer type, if it has one. -/
def fnPtrName? : Parser (Option String) := do
  let tokens ← rest
  let named := startsIdent tokens || startsWordOf ["_", "self"] tokens
  if named && startsOperator ":" (tokens.drop 1) && !startsOperator "::" (tokens.drop 1) then
    let name ← anyWord
    operator ":"
    return some name
  else return none

/-- A parameter of a function pointer type. -/
def fnPtrParam : Parser FnPtrParam := do
  let name ← fnPtrName?
  if ← operator? "..." then return .variadic name (← operator? ",")
  else return .mk name (← g.ty true)

/-- A function pointer type after its binder. -/
def fnPtr (binder : Option Binder) : Parser Ty := do
  let qualifiers ← fnQualifiers
  word "fn"
  let (params, trailing) ← inGroup .paren (commaList g.fnPtrParam)
  let output ← if ← operator? "->" then some <$> g.ty false else pure none
  return .fnPtr binder qualifiers params trailing output

/-- The first bound of a sum that starts with a type in parentheses. -/
def parenBound? : Ty → Option Bound
  | .path (.plain path) => some (.trait true false none path)
  | .traitObject false [.trait _ isMaybe binder path] false =>
    some (.trait true isMaybe binder path)
  | .traitObject false [other] false => some other
  | _ => none

/-- Some bound of a list is a trait. -/
def hasTrait (bounds : List Bound) : Bool :=
  bounds.any fun
    | .trait .. => true
    | .lifetime _ => false

/-- Bounds after `dyn` or `impl`, at least one of them a trait. -/
def traitBounds (allowPlus : Bool) (subject : String) : Parser (List Bound × Bool) := do
  let (bounds, trailing) ← g.bounds allowPlus
  if hasTrait bounds then return (bounds, trailing)
  else throw (.rule ("at least one trait " ++ subject))

/-- A type in parentheses or a tuple. -/
def groupedTy : Parser Ty :=
  inGroup .paren do
    if ← atEnd then return .tuple [] false
    if ← peek startsLifetime then
      let (bounds, trailing) ← g.traitBounds true "is required for an object type"
      return .paren (.traitObject false bounds trailing)
    let first ← g.ty true
    if ← operator? "," then
      let (more, trailing) ← commaList (g.ty true)
      return .tuple (first :: more) (trailing || more.isEmpty)
    else return .paren first

/-- The tokens start with a bound in parentheses that may be left open by `?`. -/
def startsMaybeBound : List Token → Bool
  | .group .paren body :: _ => startsOperator "?" body
  | _ => false

/-- A type that starts with parentheses. -/
def parenTy (allowPlus : Bool) : Parser Ty := do
  if ← peek startsMaybeBound then
    return .traitObject false (← g.furtherBounds (← g.bound)) false
  let ty ← g.groupedTy
  match ty with
  | .paren inner =>
    if allowPlus && (← peek (startsOperator "+")) then
      match parenBound? inner with
      | some first => return .traitObject false (← g.furtherBounds first) false
      | none => return ty
    else return ty
  | _ => return ty

/-- A type that starts with a path: the path itself, a macro call, or a sum of bounds. -/
def pathTy (binder : Option Binder) (allowPlus : Bool) : Parser Ty := do
  let path ← g.qualifiedPath false
  match path with
  | .plain path =>
    if path.isModulePath && (← peek startsMacroBody) then
      operator "!"
      let (d, body) ← macroBody
      return .macroCall path d body
    else if binder.isSome || (allowPlus && (← peek (startsOperator "+"))) then
      let first := Bound.trait false false binder path
      let (bounds, trailing) ←
        if allowPlus then g.moreBounds first else pure ([first], false)
      return .traitObject false bounds trailing
    else return .path (.plain path)
  | path => return .path path

/-- A type in square brackets. -/
def bracketTy : Parser Ty :=
  inGroup .bracket do
    let elem ← g.ty true
    if ← operator? ";" then return .array elem (← g.expr true).tokens
    else return .slice elem

/-- A type, given the parsers for the types inside it. -/
def parseTy (allowPlus : Bool) : Parser Ty := do
  let binder ← binder?
  let tokens ← rest
  if binder.isSome && !(startsIdent tokens ||
      startsWordOf ["fn", "unsafe", "extern", "super", "self", "Self", "crate"] tokens) then
    expected ["identifier", "`fn`", "`unsafe`", "`extern`", "`super`", "`self`", "`Self`",
      "`crate`"]
  else if startsGroup .paren tokens then g.parenTy allowPlus
  else if startsWordOf ["fn", "unsafe", "extern"] tokens then g.fnPtr binder
  else if startsIdent tokens || startsWordOf ["super", "self", "Self", "crate"] tokens ||
      startsOperator "::" tokens || startsOperator "<" tokens then
    g.pathTy binder allowPlus
  else if startsWord "dyn" tokens then
    word "dyn"
    let (bounds, trailing) ← g.traitBounds allowPlus "is required for an object type"
    return .traitObject true bounds trailing
  else if startsGroup .bracket tokens then g.bracketTy
  else if ← operator? "*" then
    if ← word? "const" then return .pointer false (← g.ty false)
    else if ← word? "mut" then return .pointer true (← g.ty false)
    else expected ["`const`", "`mut`"]
  else if ← operator? "&" then
    let lifetime ← lifetime?
    let isMut ← word? "mut"
    return .reference lifetime isMut (← g.ty false)
  else if startsOperator "!" tokens && !startsOperator "=" tokens then
    operator "!"
    return .never
  else if ← word? "impl" then
    let (bounds, trailing) ← g.traitBounds allowPlus "must be specified"
    return .implTrait bounds trailing
  else if ← word? "_" then return .infer
  else if startsLifetime tokens then
    let (bounds, trailing) ← g.traitBounds true "is required for an object type"
    return .traitObject false bounds trailing
  else expected typeStarts

/-! ### Trees of names -/

/-- What a tree of names may start with, as named in errors. -/
def useTreeStarts : List String :=
  ["identifier", "`self`", "`super`", "`crate`", "`try`", "`*`", "curly braces"]

/-- A tree of names; a group holds trees separated by commas. -/
def parseUseTree : Parser UseTree := do
  let tokens ← rest
  if startsIdent tokens || startsWordOf pathWords tokens then
    let name ← anyWord
    if ← operator? "::" then return .path name (← g.useTree)
    else if ← word? "as" then
      if (← peek startsIdent) || (← peek (startsWord "_")) then return .rename name (← anyWord)
      else expected ["identifier or underscore"]
    else return .leaf name
  else if ← operator? "*" then return .glob
  else if startsGroup .brace tokens then
    let (trees, trailing) ← inGroup .brace (commaList g.useTree)
    return .group trees trailing
  else expected useTreeStarts

/-! ### Attributes -/

/-- What follows the path of an attribute up to the end of its brackets. -/
def attributeInput : Parser AttributeInput := do
  match ← rest with
  | .group d body :: tokens => advance tokens; return .group d body
  | _ =>
    if ← operator? "=" then
      match ← rest with
      | [.literal text] => advance []; return .value [.literal text]
      | tokens =>
        if startsOperator "#" tokens && startsGroup .bracket (tokens.drop 1) then
          throw (.rule "unexpected attribute inside of attribute")
        else return .value (← g.expr true).tokens
    else return .nothing

/-- The contents of the brackets of an attribute. -/
def attributeContent (isInner : Bool) : Parser Attribute := do
  let path ← if ← word? "unsafe" then pure (Path.word "unsafe") else modulePath
  return ⟨isInner, path, ← g.attributeInput⟩

/-- The attributes in front of a construct. -/
def attributes : Parser (List Attribute) :=
  iterate
    (fun attrs => do
      if ← operator? "#" then return some (attrs ++ [← inGroup .bracket (g.attributeContent false)])
      else return none)
    []

end Grammar

end EntityTable.Source
