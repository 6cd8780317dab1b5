import EntityTable.Source.Lexer
import EntityTable.Source.SyntaxError

/-! # Parsers over tokens

A parser takes tokens from the front of the input. It may enter a group; what it leaves unread there
is remembered and refused at the very end, unless another error comes first. -/

namespace EntityTable.Source

/-- What is still to be read, and the delimiter of the first group that was left unread. -/
structure Input where
  tokens : List Token
  unread : Option Delimiter

/-- A parser that yields a value or a syntax error. -/
abbrev Parser (α : Type) := StateT Input (Except SyntaxError) α

/-! ### Looking at tokens -/

/-- The words that cannot be identifiers. -/
def keywords : List String :=
  ["_", "abstract", "as", "async", "await", "become", "box", "break", "const", "continue", "crate",
    "do", "dyn", "else", "enum", "extern", "false", "final", "fn", "for", "if", "impl", "in", "let",
    "loop", "macro", "match", "mod", "move", "mut", "override", "priv", "pub", "ref", "return",
    "Self", "self", "static", "struct", "super", "trait", "true", "try", "type", "typeof", "unsafe",
    "unsized", "use", "virtual", "where", "while", "yield"]

/-- What is left after an operator; all its characters but the last must be glued to the next. -/
def dropOperator? (text : String) (tokens : List Token) : Option (List Token) :=
  go text.toList tokens
where
  /-- Compares character by character. -/
  go : List Char → List Token → Option (List Token)
    | [], tokens => some tokens
    | [c], .punct d _ :: rest => if c = d then some rest else none
    | c :: more, .punct d joint :: rest => if c = d && joint then go more rest else none
    | _, _ => none

/-- The tokens start with an operator. -/
def startsOperator (text : String) (tokens : List Token) : Bool :=
  (dropOperator? text tokens).isSome

/-- The tokens start with this word. -/
def startsWord (name : String) : List Token → Bool
  | .word w :: _ => w == name
  | _ => false

/-- The tokens start with some word of a list. -/
def startsWordOf (names : List String) : List Token → Bool
  | .word w :: _ => names.contains w
  | _ => false

/-- The tokens start with a word, be it a keyword or not. -/
def startsAnyWord : List Token → Bool
  | .word _ :: _ => true
  | _ => false

/-- The tokens start with an identifier. -/
def startsIdent : List Token → Bool
  | .word w :: _ => !keywords.contains w
  | _ => false

/-- The tokens start with a lifetime. -/
def startsLifetime : List Token → Bool
  | .lifetime _ :: _ => true
  | _ => false

/-- The tokens start with a literal, the words for the truth values included. -/
def startsLiteral : List Token → Bool
  | .literal _ :: _ => true
  | .word w :: _ => w == "true" || w == "false"
  | .punct '-' _ :: .literal _ :: _ => true
  | _ => false

/-- The tokens start with a group in this delimiter. -/
def startsGroup (delimiter : Delimiter) : List Token → Bool
  | .group d _ :: _ => d == delimiter
  | _ => false

/-- The tokens start with a group. -/
def startsAnyGroup : List Token → Bool
  | .group _ _ :: _ => true
  | _ => false

/-! ### Combinators -/

namespace Parser

/-- The tokens still to be read. -/
def rest : Parser (List Token) := do return (← get).tokens

/-- Whether a test holds for the tokens still to be read. -/
def peek (test : List Token → Bool) : Parser Bool := do return test (← get).tokens

/-- Whether a test holds after so many token trees. -/
def peekAfter (count : Nat) (test : List Token → Bool) : Parser Bool := do
  return test ((← get).tokens.drop count)

/-- Nothing is left to be read. -/
def atEnd : Parser Bool := peek List.isEmpty

/-- Goes on with the given tokens. -/
def advance (tokens : List Token) : Parser Unit := modify fun input => { input with tokens }

/-- Fails because none of the alternatives stands here. -/
def expected {α : Type} (alternatives : List String) : Parser α := do
  throw (.expected (← atEnd) alternatives)

/-- Reads an operator; its absence is reported in the same words at the end of the input. -/
def operator (text : String) : Parser Unit := do
  match dropOperator? text (← rest) with
  | some tokens => advance tokens
  | none => throw (.expected false ["`" ++ text ++ "`"])

/-- Reads an operator if it stands here. -/
def operator? (text : String) : Parser Bool := do
  match dropOperator? text (← rest) with
  | some tokens => advance tokens; return true
  | none => return false

/-- Reads this word. -/
def word (name : String) : Parser Unit := do
  match ← rest with
  | .word w :: tokens => if w = name then advance tokens else expected ["`" ++ name ++ "`"]
  | _ => expected ["`" ++ name ++ "`"]

/-- Reads this word if it stands here. -/
def word? (name : String) : Parser Bool := do
  match ← rest with
  | .word w :: tokens => if w = name then do advance tokens; return true else return false
  | _ => return false

/-- Reads any word. -/
def anyWord : Parser String := do
  match ← rest with
  | .word w :: tokens => advance tokens; return w
  | _ => expected ["identifier"]

/-- Reads an identifier. -/
def ident : Parser String := do
  match ← rest with
  | .word w :: tokens =>
    if keywords.contains w then throw (.keyword w) else do advance tokens; return w
  | _ => expected ["identifier"]

/-- Reads a lifetime. -/
def lifetime : Parser String := do
  match ← rest with
  | .lifetime name :: tokens => advance tokens; return name
  | _ => expected ["lifetime"]

/-- Reads a lifetime if one stands here. -/
def lifetime? : Parser (Option String) := do
  match ← rest with
  | .lifetime name :: tokens => advance tokens; return some name
  | _ => return none

/-- How a missing group is named. -/
def groupName : Delimiter → String
  | .paren => "parentheses"
  | .bracket => "square brackets"
  | .brace => "curly braces"

/-- Parses the contents of a group; what is left there is remembered. -/
def inGroup {α : Type} (delimiter : Delimiter) (contents : Parser α) : Parser α := do
  let input ← get
  match input.tokens with
  | .group d body :: tokens =>
    if d = delimiter then
      let (value, inner) ← contents.run { tokens := body, unread := input.unread }
      let unread := inner.unread.or (if inner.tokens.isEmpty then none else some d)
      set { tokens, unread : Input }
      return value
    else expected [groupName delimiter]
  | _ => expected [groupName delimiter]

/-- Elements until a test holds, with an operator between them and maybe after the last. Each
element is at least a token, so the count of tokens bounds their number. -/
def listUntil {α : Type} (stop : List Token → Bool) (separator : String) (element : Parser α) :
    Parser (List α × Bool) := do
  go ((← rest).length + 1)
where
  /-- The elements from here on. -/
  go : Nat → Parser (List α × Bool)
    | 0 => return ([], false)
    | fuel + 1 => do
      if ← peek stop then return ([], false)
      let first ← element
      if ← peek stop then return ([first], false)
      operator separator
      let (more, trailing) ← go fuel
      return (first :: more, trailing || more.isEmpty)

/-- Elements separated by commas up to the end of a group. -/
def commaList {α : Type} (element : Parser α) : Parser (List α × Bool) :=
  listUntil List.isEmpty "," element

/-- Repeats a step, given the value so far, as long as it yields another. A step reads at least a
token, so the count of tokens bounds the number of steps. -/
def iterate {α : Type} (step : α → Parser (Option α)) (start : α) : Parser α := do
  go ((← rest).length + 1) start
where
  /-- The steps from here on. -/
  go : Nat → α → Parser α
    | 0, value => return value
    | fuel + 1, value => do
      match ← step value with
      | some next => go fuel next
      | none => return value

/-- What a parser would yield here, without reading anything. -/
def attempt {α : Type} (p : Parser α) : Parser (Option (α × List Token)) := do
  match p.run { tokens := ← rest, unread := none } with
  | .ok (value, input) => return some (value, input.tokens)
  | .error _ => return none

/-- Parses all tokens. -/
def runAll {α : Type} (p : Parser α) (tokens : List Token) : Except SyntaxError α := do
  let (value, input) ← p.run { tokens, unread := none }
  match input.unread, input.tokens with
  | some d, _ => throw (.leftOver (some d))
  | none, _ :: _ => throw (.leftOver none)
  | none, [] => return value

/-- Parses all of a text. -/
def runText {α : Type} (p : List Token → Parser α) (text : String) : Except SyntaxError α :=
  match Token.ofText? text with
  | some tokens => runAll (p tokens) tokens
  | none => throw .lexical

end Parser

end EntityTable.Source
