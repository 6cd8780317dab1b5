import EntityTable.Source.Tree.Pattern

/-! # Tokens of types and patterns

A tree of a type, path, attribute or pattern is written as the tokens it was read from, with each
operator glued in the usual way. The one thing that is moved are lifetimes among generic arguments,
which come before all other arguments. -/

namespace EntityTable.Source

/-- The tokens of one word. -/
def wordToken (name : String) : List Token := [.word name]

/-- The word if the condition holds. -/
def wordIf (condition : Bool) (name : String) : List Token :=
  if condition then wordToken name else []

/-- The operator if the condition holds. -/
def operatorIf (condition : Bool) (text : String) : List Token :=
  if condition then Token.operator text else []

/-- One lifetime, if there is one. -/
def lifetimeTokens (name : Option String) : List Token := name.toList.map .lifetime

/-- The name of a parameter and its colon, if there is one. -/
def nameTokens : Option String → List Token
  | some name => wordToken name ++ Token.operator ":"
  | none => []

/-- Token sequences with an operator between them, and after the last if it trails. -/
def separated (operator : String) (trailing : Bool) : List (List Token) → List Token
  | [] => []
  | [last] => last ++ operatorIf trailing operator
  | first :: rest => first ++ Token.operator operator ++ separated operator trailing rest

/-- The tokens of `for<'a, 'b>`. -/
def Binder.tokens (b : Binder) : List Token :=
  wordToken "for" ++ Token.operator "<" ++
    separated "," b.trailing (b.lifetimes.map fun name => [.lifetime name]) ++ Token.operator ">"

/-- The tokens of a binder, if there is one. -/
def binderTokens (binder : Option Binder) : List Token := (binder.map Binder.tokens).getD []

/-- Arguments in angle brackets, given as pairs of "is a lifetime" and tokens. An argument keeps
the comma after it when lifetimes move to the front. -/
def angleTokens (turbofish trailing : Bool) (args : List (Bool × List Token)) : List Token :=
  let marked := args.mapIdx fun i (isLifetime, tokens) =>
    (isLifetime, tokens, trailing || decide (i + 1 < args.length))
  let write := fun (tokens, hasComma) => tokens ++ operatorIf hasComma ","
  let lifetimes := (marked.filter (·.1)).map (·.2)
  let others := (marked.filter (!·.1)).map (·.2)
  let needsComma := !others.isEmpty && (lifetimes.getLast?.any fun last => !last.2)
  operatorIf turbofish "::" ++ Token.operator "<" ++ lifetimes.flatMap write ++
    operatorIf needsComma "," ++ others.flatMap write ++ Token.operator ">"

mutual

/-- The tokens of a type. -/
def Ty.tokens : Ty → List Token
  | .array elem length => [.group .bracket (elem.tokens ++ Token.operator ";" ++ length)]
  | .fnPtr binder qualifiers params trailing output =>
    binderTokens binder ++ qualifiers ++ wordToken "fn" ++
      [.group .paren (separated "," trailing (FnPtrParam.tokensOf params))] ++
      (match output with
        | some ty => Token.operator "->" ++ ty.tokens
        | none => [])
  | .implTrait bounds trailing => wordToken "impl" ++ separated "+" trailing (Bound.tokensOf bounds)
  | .infer => wordToken "_"
  | .macroCall path delimiter body => path.tokens ++ Token.operator "!" ++ [.group delimiter body]
  | .never => Token.operator "!"
  | .paren inner => [.group .paren inner.tokens]
  | .path path => path.tokens
  | .pointer isMut target =>
    Token.operator "*" ++ wordToken (if isMut then "mut" else "const") ++ target.tokens
  | .reference lifetime isMut target =>
    Token.operator "&" ++ lifetimeTokens lifetime ++ wordIf isMut "mut" ++ target.tokens
  | .slice elem => [.group .bracket elem.tokens]
  | .traitObject isDyn bounds trailing =>
    wordIf isDyn "dyn" ++ separated "+" trailing (Bound.tokensOf bounds)
  | .tuple elems trailing => [.group .paren (separated "," trailing (Ty.tokensOf elems))]

/-- The tokens of each type. -/
def Ty.tokensOf : List Ty → List (List Token)
  | [] => []
  | ty :: rest => ty.tokens :: Ty.tokensOf rest

/-- The tokens of a parameter. -/
def FnPtrParam.tokens : FnPtrParam → List Token
  | .mk name ty => nameTokens name ++ ty.tokens
  | .variadic name comma => nameTokens name ++ Token.operator "..." ++ operatorIf comma ","

/-- The tokens of each parameter. -/
def FnPtrParam.tokensOf : List FnPtrParam → List (List Token)
  | [] => []
  | param :: rest => param.tokens :: FnPtrParam.tokensOf rest

/-- The tokens of a path. -/
def Path.tokens : Path → List Token
  | .mk isGlobal segments =>
    operatorIf isGlobal "::" ++ separated "::" false (Segment.tokensOf segments)

/-- The tokens of a path that may be qualified. -/
def QualifiedPath.tokens : QualifiedPath → List Token
  | .plain path => path.tokens
  | .ofType self rest =>
    Token.operator "<" ++ self.tokens ++ Token.operator ">" ++ Token.operator "::" ++
      separated "::" false (Segment.tokensOf rest)
  | .ofTrait self trait rest =>
    Token.operator "<" ++ self.tokens ++ wordToken "as" ++ trait.tokens ++ Token.operator ">" ++
      Token.operator "::" ++ separated "::" false (Segment.tokensOf rest)

/-- The tokens of a path segment. -/
def Segment.tokens : Segment → List Token
  | .plain name => wordToken name
  | .angle name turbofish args trailing =>
    wordToken name ++ angleTokens turbofish trailing (GenericArg.tokensOf args)
  | .paren name inputs trailing output =>
    wordToken name ++ [.group .paren (separated "," trailing (Ty.tokensOf inputs))] ++
      (match output with
        | some ty => Token.operator "->" ++ ty.tokens
        | none => [])

/-- The tokens of each segment. -/
def Segment.tokensOf : List Segment → List (List Token)
  | [] => []
  | segment :: rest => segment.tokens :: Segment.tokensOf rest

/-- The tokens of a generic argument. -/
def GenericArg.tokens : GenericArg → List Token
  | .lifetime name => [.lifetime name]
  | .type ty => ty.tokens
  | .const value => value
  | .assocType head ty => head.tokens ++ Token.operator "=" ++ ty.tokens
  | .assocConst head value => head.tokens ++ Token.operator "=" ++ value
  | .constraint head bounds trailing =>
    head.tokens ++ Token.operator ":" ++ separated "+" trailing (Bound.tokensOf bounds)

/-- The tokens of each generic argument, marked if it is a lifetime. -/
def GenericArg.tokensOf : List GenericArg → List (Bool × List Token)
  | [] => []
  | .lifetime name :: rest => (true, [.lifetime name]) :: GenericArg.tokensOf rest
  | arg :: rest => (false, arg.tokens) :: GenericArg.tokensOf rest

/-- The tokens of a bound. -/
def Bound.tokens : Bound → List Token
  | .trait isParen isMaybe binder path =>
    let inner := binderTokens binder ++ operatorIf isMaybe "?" ++ path.tokens
    if isParen then [.group .paren inner] else inner
  | .lifetime name => [.lifetime name]

/-- The tokens of each bound. -/
def Bound.tokensOf : List Bound → List (List Token)
  | [] => []
  | bound :: rest => bound.tokens :: Bound.tokensOf rest

end

/-- The tokens of a result type, if there is one. -/
def outputTokens (output : Option Ty) : List Token :=
  match output with
  | some ty => Token.operator "->" ++ ty.tokens
  | none => []

/-! ### Attributes -/

/-- The tokens of what follows the path of an attribute. -/
def AttributeInput.tokens : AttributeInput → List Token
  | .nothing => []
  | .group delimiter body => [.group delimiter body]
  | .value expr => Token.operator "=" ++ expr

/-- The tokens of an attribute. -/
def Attribute.tokens (a : Attribute) : List Token :=
  Token.operator "#" ++ operatorIf a.isInner "!" ++
    [.group .bracket (a.path.tokens ++ a.input.tokens)]

/-- The tokens of attributes in a row. -/
def attributeTokens (attrs : List Attribute) : List Token := attrs.flatMap Attribute.tokens

/-! ### Patterns -/

/-- The tokens of a field name, which is a number in tuples. -/
def memberTokens (member : String) : List Token :=
  if member.toList.head?.any Char.isDigit then [.literal member] else wordToken member

mutual

/-- The tokens of a pattern. -/
def Pat.tokens : Pat → List Token
  | .binding isRef isMut name sub =>
    wordIf isRef "ref" ++ wordIf isMut "mut" ++ wordToken name ++
      (match sub with
        | some pat => Token.operator "@" ++ pat.tokens
        | none => [])
  | .const value => value
  | .macroCall path delimiter body => path.tokens ++ Token.operator "!" ++ [.group delimiter body]
  | .or leading cases => operatorIf leading "|" ++ separated "|" false (Pat.tokensOf cases)
  | .paren inner => [.group .paren inner.tokens]
  | .path path => path.tokens
  | .range start limits stop => start ++ Token.operator limits ++ stop
  | .reference isMut inner => Token.operator "&" ++ wordIf isMut "mut" ++ inner.tokens
  | .rest => Token.operator ".."
  | .slice elems trailing => [.group .bracket (separated "," trailing (Pat.tokensOf elems))]
  | .record path fields trailing others =>
    path.tokens ++ [.group .brace (separated "," trailing (PatField.tokensOf fields) ++
      (match others with
        | some attrs => attributeTokens attrs ++ Token.operator ".."
        | none => []))]
  | .tuple elems trailing => [.group .paren (separated "," trailing (Pat.tokensOf elems))]
  | .tupleRecord path elems trailing =>
    path.tokens ++ [.group .paren (separated "," trailing (Pat.tokensOf elems))]
  | .wild => wordToken "_"

/-- The tokens of each pattern. -/
def Pat.tokensOf : List Pat → List (List Token)
  | [] => []
  | pat :: rest => pat.tokens :: Pat.tokensOf rest

/-- The tokens of a field pattern. -/
def PatField.tokens : PatField → List Token
  | .short attrs pat => attributeTokens attrs ++ pat.tokens
  | .named attrs member pat =>
    attributeTokens attrs ++ memberTokens member ++ Token.operator ":" ++ pat.tokens

/-- The tokens of each field pattern. -/
def PatField.tokensOf : List PatField → List (List Token)
  | [] => []
  | field :: rest => field.tokens :: PatField.tokensOf rest

end

end EntityTable.Source
