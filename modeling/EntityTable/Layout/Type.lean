import EntityTable.Layout.TokenRun
import EntityTable.Source.Literal
import EntityTable.Source.Tree.TypeTokens

/-! # Layout of types and patterns

Types, paths and patterns have single blanks in the usual places. Lists of arguments may be broken
into one line for each. The constants in them are laid out by a function that is given, since a
constant may be any expression. -/

namespace EntityTable.Layout

open Source

/-- Where a path stands: arguments need `::` in an expression and are left out where they mean
nothing. -/
inductive PathPlace where
  | bare
  | type
  | expr
  deriving DecidableEq, Repr

/-- A word with a blank if the condition holds. -/
def wordIf (condition : Bool) (text : String) : Pieces := if condition then word text else []

/-- A lifetime. -/
def lifetime (name : String) : Pieces := word ("\x27" ++ name)

/-- A lifetime with a blank after it, if there is one. -/
def lifetimeBefore (name : Option String) : Pieces :=
  match name with
  | some name => lifetime name ++ word " "
  | none => []

/-- The lifetimes that a binder brings into scope. -/
def binderBefore (binder : Option Binder) : Pieces :=
  match binder with
  | some b => word "for<" ++ between (word ", ") (b.lifetimes.map lifetime) ++ word "> "
  | none => []

/-- Elements in parentheses; a single one keeps its comma if it has to. -/
def tupleBox (keepsComma : Bool) (elements : List Pieces) : Pieces :=
  let inner := match elements with
    | [only] => cbox indentation (outdent (zero ++ only ++ wordIf keepsComma "," ++ zero))
    | _ => commaBox elements
  word "(" ++ inner ++ word ")"

/-- The name of a parameter with its colon, if there is one. -/
def nameBefore (name : Option String) : Pieces :=
  match name with
  | some name => word (name ++ ": ")
  | none => []

/-- The parameters of a function pointer; no comma follows the one that stands for any others. -/
def paramsBox (last : Option FnPtrParam) (params : List Pieces) : Pieces :=
  match last with
  | some (.variadic ..) =>
    cbox indentation (outdent (zero ++ rows (fun isLast => if isLast then zero else comma false)
      params))
  | _ => commaBox params

/-- Arguments in angle brackets, the lifetimes first; none at all leave no brackets. -/
def angleBox (place : PathPlace) (args : List (Bool × Pieces)) : Pieces :=
  if args.isEmpty || place = .bare then []
  else
    let sorted := (args.filter (·.1)).map (·.2) ++ (args.filter (!·.1)).map (·.2)
    wordIf (place = .expr) "::" ++ word "<" ++ commaBox sorted ++ word ">"

section

variable (constant : List Token → Pieces)

mutual

/-- The layout of a type. -/
def tyPieces : Ty → Pieces
  | .array elem length => word "[" ++ tyPieces elem ++ word "; " ++ constant length ++ word "]"
  | .fnPtr binder qualifiers params _ output =>
    binderBefore binder ++ qualifiers.flatMap (fun t => word (t.text ++ " ")) ++ word "fn(" ++
      paramsBox params.getLast? (fnPtrParamPieces params) ++ word ")" ++
      (match output with
        | some ty => word " -> " ++ tyPieces ty
        | none => [])
  | .implTrait bounds _ => word "impl " ++ between (word " + ") (boundPieces bounds)
  | .infer => word "_"
  | .macroCall path delimiter body =>
    pathPieces .bare path ++ word "!" ++ macroArguments delimiter body
  | .never => word "!"
  | .paren inner => word "(" ++ tyPieces inner ++ word ")"
  | .path path => qualifiedPieces .type path
  | .pointer isMut target => word (if isMut then "*mut " else "*const ") ++ tyPieces target
  | .reference lifetime isMut target =>
    word "&" ++ lifetimeBefore lifetime ++ wordIf isMut "mut " ++ tyPieces target
  | .slice elem => word "[" ++ tyPieces elem ++ word "]"
  | .traitObject _ bounds _ => word "dyn " ++ between (word " + ") (boundPieces bounds)
  | .tuple elems _ => tupleBox true (tysPieces elems)

/-- The layout of each type. -/
def tysPieces : List Ty → List Pieces
  | [] => []
  | ty :: rest => tyPieces ty :: tysPieces rest

/-- The layout of each parameter of a function pointer. -/
def fnPtrParamPieces : List FnPtrParam → List Pieces
  | [] => []
  | .mk name ty :: rest => (nameBefore name ++ tyPieces ty) :: fnPtrParamPieces rest
  | .variadic name _ :: rest => (nameBefore name ++ word "...") :: fnPtrParamPieces rest

/-- The layout of a path. -/
def pathPieces (place : PathPlace) : Path → Pieces
  | .mk isGlobal segments =>
    wordIf isGlobal "::" ++ between (word "::") (segmentsPieces place segments)

/-- The layout of a path that may be qualified. -/
def qualifiedPieces (place : PathPlace) : QualifiedPath → Pieces
  | .plain path => pathPieces place path
  | .ofType self rest =>
    word "<" ++ tyPieces self ++ word ">" ++
      (segmentsPieces place rest).flatMap fun segment => word "::" ++ segment
  | .ofTrait self trait rest =>
    word "<" ++ tyPieces self ++ word " as " ++ pathPieces .type trait ++ word ">" ++
      (segmentsPieces place rest).flatMap fun segment => word "::" ++ segment

/-- The layout of a path segment. -/
def segmentPieces (place : PathPlace) : Segment → Pieces
  | .plain name => word name
  | .angle name _ args _ => word name ++ angleBox place (argsPieces args)
  | .paren name inputs _ output =>
    word name ++
      cbox indentation (word "(" ++ outdent (zero ++ rows comma (tysPieces inputs)) ++ word ")" ++
        (match output with
          | some ty => word " -> " ++ tyPieces ty
          | none => []))

/-- The layout of each path segment. -/
def segmentsPieces (place : PathPlace) : List Segment → List Pieces
  | [] => []
  | segment :: rest => segmentPieces place segment :: segmentsPieces place rest

/-- The layout of a generic argument. -/
def argPieces : GenericArg → Pieces
  | .lifetime name => lifetime name
  | .type ty => tyPieces ty
  | .const value => constant value
  | .assocType head ty => segmentPieces .type head ++ word " = " ++ tyPieces ty
  | .assocConst head value => segmentPieces .type head ++ word " = " ++ constant value
  | .constraint head bounds _ =>
    segmentPieces .type head ++
      ibox indentation (word ": " ++ between (space ++ word "+ ") (boundPieces bounds))

/-- The layout of each generic argument, marked if it is a lifetime. -/
def argsPieces : List GenericArg → List (Bool × Pieces)
  | [] => []
  | .lifetime name :: rest => (true, lifetime name) :: argsPieces rest
  | arg :: rest => (false, argPieces arg) :: argsPieces rest

/-- The layout of each bound. -/
def boundPieces : List Bound → List Pieces
  | [] => []
  | .lifetime name :: rest => lifetime name :: boundPieces rest
  | .trait isParen isMaybe binder path :: rest =>
    (wordIf isParen "(" ++ wordIf isMaybe "?" ++ binderBefore binder ++ pathPieces .type path ++
      wordIf isParen ")") :: boundPieces rest

end

/-- The layout of a result type, if there is one. -/
def outputPieces (output : Option Ty) : Pieces :=
  match output with
  | some ty => word " -> " ++ tyPieces constant ty
  | none => []

/-! ### Attributes -/

/-- The depth of nested block comments at the end of a text, unless one is closed that is not open. -/
def commentDepth? : Nat → List Char → Option Nat
  | depth, [] => some depth
  | depth, '/' :: '*' :: rest => commentDepth? (depth + 1) rest
  | 0, '*' :: '/' :: _ => none
  | depth + 1, '*' :: '/' :: rest => commentDepth? depth rest
  | depth, _ :: rest => commentDepth? depth rest

/-- The text can stand in a block comment. -/
def fitsBlockComment (text : List Char) : Bool :=
  commentDepth? 0 text == some 0 && text.getLast? != some '/'

/-- The text without the blanks at its end. -/
def dropFinalBlanks (text : List Char) : List Char := (text.reverse.dropWhile (· == ' ')).reverse

/-- The text without the blanks at the ends of its lines, the last one excepted. -/
def dropInnerBlanks (text : List Char) : List Char :=
  match text.splitOn '\n' with
  | [] => []
  | lines => ['\n'].intercalate (lines.dropLast.map dropFinalBlanks ++ lines.getLast?.toList)

/-- The comment that stands for a documentation attribute: on a line of its own, or a block if the
text has several lines. -/
def docComment? (text : String) : Option String :=
  let cs := text.toList
  let starts := fun (marks : List Char) => cs.head?.any marks.contains
  if !cs.contains '\n' && !starts ['/'] then some ("///" ++ String.ofList (dropFinalBlanks cs))
  else if fitsBlockComment cs && !starts ['*', '/'] then
    some ("/**" ++ String.ofList (dropInnerBlanks cs) ++ "*/")
  else none

/-- The text of a documentation attribute. -/
def docText? (a : Attribute) : Option String :=
  match a.input with
  | .value [.literal spelled] => if a.path.isWord "doc" then Literal.value? spelled else none
  | _ => none

/-- The layout of an attribute, with the end of its line. -/
def attributePieces (a : Attribute) : Pieces :=
  match (docText? a).bind docComment? with
  | some comment => word comment ++ hard
  | none =>
    word "#[" ++ pathPieces constant .bare a.path ++
      (match a.input with
        | .nothing => []
        | .group delimiter body => attributeArguments delimiter body
        | .value expr => word " = " ++ constant expr) ++ word "]" ++ space

/-- The layout of attributes. -/
def attributesPieces (attrs : List Attribute) : Pieces := attrs.flatMap (attributePieces constant)

/-! ### Patterns -/

/-- The alternatives of a pattern each take a line unless all of them are literals. -/
def isSimpleCase : Pat → Bool
  | .const [.word w] => w == "true" || w == "false"
  | .const [.literal _] => true
  | .wild => true
  | _ => false

/-- The elements of a record pattern. -/
def recordBox (fields : List Pieces) (others : Option Pieces) : Pieces :=
  let elements := match others with
    | some attrs => fields.flatMap (· ++ commaOrSpace false) ++ attrs ++ word ".." ++ space
    | none => rows commaOrSpace fields
  word " \x7b" ++ outdent (spaceIfMore ++ elements)

mutual

/-- The layout of a pattern. -/
def patPieces : Pat → Pieces
  | .binding isRef isMut name sub =>
    wordIf isRef "ref " ++ wordIf isMut "mut " ++ word name ++
      (match sub with
        | some pat => word " @ " ++ patPieces pat
        | none => [])
  | .const value => constant value
  | .macroCall path delimiter body =>
    pathPieces constant .bare path ++ word "!" ++ macroArguments delimiter body
  | .or _ cases =>
    boxed (!cases.all isSimpleCase) 0 (between (space ++ word "| ") (patsPieces cases))
  | .paren inner => word "(" ++ patPieces inner ++ word ")"
  | .path path => qualifiedPieces constant .expr path
  | .range start limits stop =>
    (if start.isEmpty then [] else constant start) ++ word limits ++
      (if stop.isEmpty then [] else constant stop)
  | .reference isMut inner => word (if isMut then "&mut " else "&") ++ patPieces inner
  | .rest => word ".."
  | .slice elems _ => word "[" ++ between (word "," ++ space) (patsPieces elems) ++ word "]"
  | .record path fields _ others =>
    cbox indentation (qualifiedPieces constant .expr path ++
      recordBox (patFieldsPieces fields) (others.map (attributesPieces constant))) ++
      word "\x7d"
  | .tuple elems trailing => tupleBox trailing (patsPieces elems)
  | .tupleRecord path elems _ =>
    qualifiedPieces constant .expr path ++ word "(" ++ commaBox (patsPieces elems) ++ word ")"
  | .wild => word "_"

/-- The layout of each pattern. -/
def patsPieces : List Pat → List Pieces
  | [] => []
  | pat :: rest => patPieces pat :: patsPieces rest

/-- The layout of each field pattern. -/
def patFieldsPieces : List PatField → List Pieces
  | [] => []
  | .short attrs pat :: rest =>
    (attributesPieces constant attrs ++ patPieces pat) :: patFieldsPieces rest
  | .named attrs member pat :: rest =>
    (attributesPieces constant attrs ++ word (member ++ ": ") ++ patPieces pat) ::
      patFieldsPieces rest

end

end

end EntityTable.Layout
