/-! # Tokens

Source text is a sequence of token trees. A token tree is a word, a punctuation character, a
lifetime, a literal with its own spelling, or a group in delimiters. A punctuation character is
*joint* if another one follows it at once, which is how `&&` and `& &` are told apart. The text of
a token sequence puts one space between tokens, except after a joint character. -/

namespace EntityTable.Source

/-- The three kinds of delimiters. -/
inductive Delimiter where
  | paren
  | bracket
  | brace
  deriving DecidableEq, Repr

/-- A token tree. -/
inductive Token where
  /-- An identifier or keyword, with `r#` in front if it is raw. -/
  | word (name : String)
  /-- One punctuation character and whether the next one is glued to it. -/
  | punct (char : Char) (joint : Bool)
  /-- A lifetime, without its apostrophe. -/
  | lifetime (name : String)
  /-- A literal as it is spelled. -/
  | literal (text : String)
  /-- The tokens between two delimiters. -/
  | group (delimiter : Delimiter) (body : List Token)
  deriving Repr

/-- The characters of which operators and separators are made. -/
def punctuation : List Char :=
  ['~', '!', '@', '#', '$', '%', '^', '&', '*', '-', '=', '+', '|', ';', ':', ',', '<', '.', '>',
    '/', '?', '\x27']

namespace Delimiter

/-- The opening character. -/
def opening : Delimiter → Char
  | .paren => '('
  | .bracket => '['
  | .brace => '\x7b'

/-- The closing character. -/
def closing : Delimiter → Char
  | .paren => ')'
  | .bracket => ']'
  | .brace => '\x7d'

/-- The delimiter that a character opens. -/
def ofOpening? (c : Char) : Option Delimiter :=
  [paren, bracket, brace].find? fun d => d.opening == c

/-- The delimiter that a character closes. -/
def ofClosing? (c : Char) : Option Delimiter :=
  [paren, bracket, brace].find? fun d => d.closing == c

end Delimiter

namespace Token

/-- The characters of an operator, all glued together and the last one free. -/
def operator (text : String) : List Token :=
  go text.toList
where
  /-- Every character but the last is joint. -/
  go : List Char → List Token
    | [] => []
    | [c] => [.punct c false]
    | c :: rest => .punct c true :: go rest

/-! ### Size -/

mutual
/-- The number of tokens in a token tree, groups counted with their contents. -/
def size : Token → Nat
  | .group _ body => sizeList body + 1
  | _ => 1
/-- The number of tokens in a sequence. -/
def sizeList : List Token → Nat
  | [] => 0
  | t :: rest => t.size + sizeList rest
end

/-! ### Text -/

mutual
/-- The text of one token tree. -/
def text : Token → String
  | .word name => name
  | .punct c _ => String.singleton c
  | .lifetime name => "\x27" ++ name
  | .literal text => text
  | .group .paren body => "(" ++ textList body ++ ")"
  | .group .bracket body => "[" ++ textList body ++ "]"
  | .group .brace [] => "\x7b \x7d"
  | .group .brace body => "\x7b " ++ textList body ++ " \x7d"
/-- The text of a token sequence. -/
def textList : List Token → String
  | [] => ""
  | [t] => t.text
  | .punct c true :: rest => String.singleton c ++ textList rest
  | t :: rest => t.text ++ " " ++ textList rest
end

end Token

end EntityTable.Source
