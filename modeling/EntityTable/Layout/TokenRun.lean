import EntityTable.Layout.Piece
import EntityTable.Source.Token

/-! # Runs of tokens

Tokens whose grammar is not known are laid out by their looks: which tokens stand together follows
from the two at hand. There is one set of rules for the arguments of attributes and one for those of
macros. -/

namespace EntityTable.Layout

open Source (Delimiter Token)

/-! ### Arguments of attributes -/

/-- What stands before the next token of an attribute. -/
inductive ListState where
  | word
  | punct
  | finalComma
  deriving DecidableEq, Repr

/-- The blank between two words. -/
def afterWord (state : ListState) : Pieces := if state = .word then space else []

mutual
/-- A token inside the parentheses of an attribute, and what it leaves behind. -/
def attributeToken (isLast : Bool) (state : ListState) : Token → Pieces × ListState
  | .word name => (afterWord state ++ word name, .word)
  | .lifetime name => (word ("\x27" ++ name), .word)
  | .literal text => (afterWord state ++ word text, .word)
  | .punct ',' _ => if isLast then (comma true, .finalComma) else (word "," ++ space, .punct)
  | .punct '=' _ => ((if state = .word then word " " else []) ++ word "= ", .punct)
  | .punct c _ => (word (String.singleton c), .punct)
  | .group .paren body => (attributeParens body, .punct)
  | .group d body =>
    (word (String.singleton d.opening) ++ (attributeTokens .punct body).1 ++
      word (String.singleton d.closing), .punct)
/-- The tokens inside the parentheses of an attribute, and what they leave behind. -/
def attributeTokens (state : ListState) : List Token → Pieces × ListState
  | [] => ([], state)
  | t :: rest =>
    let (first, state) := attributeToken rest.isEmpty state t
    let (more, state) := attributeTokens state rest
    (first ++ more, state)
/-- The parentheses of an attribute. -/
def attributeParens (body : List Token) : Pieces :=
  let (inner, state) := attributeTokens .punct body
  word "(" ++
    cbox indentation (outdent (zero ++ inner ++ if state = .finalComma then [] else zero)) ++
    word ")"
end

/-- The arguments of an attribute in their delimiters. -/
def attributeArguments (delimiter : Delimiter) (body : List Token) : Pieces :=
  (attributeToken true .punct (.group delimiter body)).1

/-! ### Arguments of macros -/

/-- The words that never stand close to parentheses. -/
def apartWords : List String :=
  ["as", "async", "await", "box", "break", "const", "continue", "crate", "dyn", "else", "enum",
    "extern", "fn", "for", "if", "impl", "in", "let", "loop", "macro", "match", "mod", "move", "mut",
    "pub", "ref", "return", "static", "struct", "trait", "type", "unsafe", "use", "where", "while",
    "yield"]

/-- What stands before the next token of a macro. -/
inductive RunState where
  | start
  | dollar
  | dollarParen
  | dollarSeparator
  | pound
  | poundBang
  | dot
  | colon
  | colon2
  | ident
  | identBang
  | delim
  | other
  deriving DecidableEq, Repr

/-- Whether a blank stands before a word, and what the word leaves behind. -/
def runWord (state : RunState) (name : String) : Bool × RunState :=
  match state with
  | .dollar => (false, .other)
  | .dollarParen => (false, .dollarSeparator)
  | _ =>
    if apartWords.contains name then (true, .other)
    else (state != .dot && state != .colon2, .ident)

/-- Whether a blank stands before a punctuation character, and what it leaves behind. -/
def runPunct (state : RunState) (c : Char) (joint : Bool) : Bool × RunState :=
  if state = .dollarParen ∧ ['+', '*', '?'].contains c ∧ joint = false then (false, .other)
  else if state = .dollarParen then (false, if joint then .dollarParen else .dollarSeparator)
  else if state = .dollarSeparator ∧ ['+', '*'].contains c then (false, .other)
  else if state = .pound ∧ c = '!' then (false, .poundBang)
  else if state = .ident ∧ c = '!' ∧ joint = false then (false, .identBang)
  else if state = .colon ∧ c = ':' then (false, .colon2)
  else if c = ',' ∨ c = ';' then (false, .other)
  else if c = '.' then (state != .ident && state != .delim, .dot)
  else if c = ':' ∧ joint then (state != .ident, .colon)
  else if c = '$' then (true, .dollar)
  else if c = '#' then (true, .pound)
  else (true, .other)

/-- Whether a blank stands before a group, and what it leaves behind. -/
def runGroup (state : RunState) (delimiter : Delimiter) : Bool × RunState :=
  match state, delimiter with
  | .dollar, .paren => (false, .dollarParen)
  | .pound, .bracket | .poundBang, .bracket => (false, .other)
  | .ident, .paren | .ident, .bracket => (false, .delim)
  | .identBang, .paren | .identBang, .bracket => (false, .other)
  | _, .brace => (true, .other)
  | _, _ => (true, .delim)

/-- Whether a blank stands before a token, and what it leaves behind. -/
def runStep (state : RunState) : Token → Bool × RunState
  | .word name => runWord state name
  | .punct c joint => runPunct state c joint
  | .lifetime name => (true, if apartWords.contains name then .other else .ident)
  | .literal _ =>
    if state = .dollarParen then (false, .dollarSeparator) else (state != .dot, .ident)
  | .group d _ => runGroup state d

/-- The token is glued to the next one. -/
def isGlued : Token → Bool
  | .punct '$' _ => true
  | .punct _ joint => joint
  | _ => false

/-- What stands before a token. -/
def runGap (glued needsSpace : Bool) (t : Token) : Pieces :=
  if glued then []
  else if needsSpace then space
  else
    match t with
    | .punct '.' _ => zero
    | _ => []

mutual
/-- A token of a macro. -/
def runToken : Token → Pieces
  | .word name => word name
  | .punct c _ => word (String.singleton c)
  | .lifetime name => word ("\x27" ++ name)
  | .literal text => word text
  | .group d body =>
    let pad := if d = .brace && !body.isEmpty then space else []
    word (String.singleton d.opening) ++ pad ++ runFrom .start true body ++ pad ++
      word (String.singleton d.closing)
/-- The tokens of a macro, given what stands before them. -/
def runFrom (state : RunState) (glued : Bool) : List Token → Pieces
  | [] => []
  | t :: rest =>
    let (needsSpace, next) := runStep state t
    runGap glued needsSpace t ++ runToken t ++ runFrom next (isGlued t) rest
end

/-- The arguments of a macro in their delimiters; braces stand on lines of their own. -/
def macroArguments (delimiter : Delimiter) (body : List Token) : Pieces :=
  let edge := if delimiter = .brace then hard else zero
  let opening := if delimiter = .brace then " \x7b" else String.singleton delimiter.opening
  let inner :=
    if body.isEmpty then []
    else cbox indentation (outdent (edge ++ ibox 0 (runFrom .start true body) ++ edge))
  word opening ++ inner ++ word (String.singleton delimiter.closing)

end EntityTable.Layout
