import EntityTable.Source.Literal
import EntityTable.Source.Token
import EntityTable.Text.Blank
import EntityTable.Text.Identifier

/-! # From text to tokens

Blanks and comments separate tokens and are dropped; a documentation comment becomes an attribute
that holds its text. What remains is cut into words, lifetimes, literals, punctuation and groups.
A text has no tokens at all if a delimiter is not matched, if a comment or literal does not end, or
if a character cannot start a token. Every scanner returns what is left of the text. -/

namespace EntityTable.Source.Lexer

open EntityTable.Text

/-! ### Words -/

/-- The longest identifier at the start of the text, and the rest. -/
def word? : List Char → Option (List Char × List Char)
  | c :: rest =>
    if Identifier.isStart c then
      some (c :: rest.takeWhile Identifier.isContinue, rest.dropWhile Identifier.isContinue)
    else none
  | [] => none

/-- The starts of literals that a word must not be cut out of. -/
def literalStarts : List (List Char) :=
  ["r\x22", "r#\x22", "r##", "b\x22", "b\x27", "br\x22", "br#", "c\x22", "cr\x22", "cr#"].map
    String.toList

/-- Words that have no raw form. -/
def neverRaw : List String := ["_", "super", "self", "Self", "crate"]

/-- A plain word or a raw one such as `r#type`. -/
def anyWord? (cs : List Char) : Option (String × List Char) :=
  match cs with
  | 'r' :: '#' :: rest => do
    let (name, rest) ← word? rest
    let name := String.ofList name
    if neverRaw.contains name then none else some ("r#" ++ name, rest)
  | _ => (word? cs).map fun (name, rest) => (String.ofList name, rest)

/-- A word that is not the start of a literal. -/
def identifier? (cs : List Char) : Option (String × List Char) :=
  if literalStarts.any (List.isPrefixOf · cs) then none else anyWord? cs

/-! ### Comments and blanks -/

/-- The rest of a line, without its end, and what follows. -/
def restOfLine : List Char → List Char × List Char
  | [] => ([], [])
  | '\n' :: rest => ([], '\n' :: rest)
  | '\r' :: '\n' :: rest => ([], '\n' :: rest)
  | c :: rest =>
    let (line, after) := restOfLine rest
    (c :: line, after)

/-- What follows the end of a block comment in which others may be nested. -/
def afterBlockComment : Nat → List Char → Option (List Char)
  | depth, '/' :: '*' :: rest => afterBlockComment (depth + 1) rest
  | depth, '*' :: '/' :: rest =>
    if depth ≤ 1 then some rest else afterBlockComment (depth - 1) rest
  | depth, _ :: rest => afterBlockComment depth rest
  | _, [] => none

/-- Two marks for the direction of writing count as blanks between tokens. -/
def isSeparator (c : Char) : Bool := isBlank c || c.toNat == 0x200e || c.toNat == 0x200f

/-- A line comment that is no documentation. -/
def startsLineComment : List Char → Bool
  | '/' :: '/' :: '/' :: '/' :: _ => true
  | '/' :: '/' :: '/' :: _ => false
  | '/' :: '/' :: '!' :: _ => false
  | '/' :: '/' :: _ => true
  | _ => false

/-- A block comment that is no documentation. -/
def startsBlockComment : List Char → Bool
  | '/' :: '*' :: '*' :: '/' :: _ => true
  | '/' :: '*' :: '*' :: '*' :: _ => true
  | '/' :: '*' :: '*' :: _ => false
  | '/' :: '*' :: '!' :: _ => false
  | '/' :: '*' :: _ => true
  | _ => false

/-- Drops blanks and comments that are no documentation; every step drops a character or more. -/
def dropBlanks : Nat → List Char → List Char
  | 0, cs => cs
  | fuel + 1, cs =>
    if startsLineComment cs then dropBlanks fuel (restOfLine cs).2
    else if startsBlockComment cs then
      match afterBlockComment 0 cs with
      | some rest => dropBlanks fuel rest
      | none => cs
    else
      match cs with
      | c :: rest => if isSeparator c then dropBlanks fuel rest else cs
      | [] => []

/-- The text from its first token on. -/
def skip (cs : List Char) : List Char := dropBlanks cs.length cs

/-- What was read when `rest` is left of the text. -/
def readBefore (cs rest : List Char) : List Char := cs.take (cs.length - rest.length)

/-- The text of a block comment without its marks of three and two characters. -/
def blockCommentBody (cs rest : List Char) : List Char :=
  ((readBefore cs rest).drop 3).dropLast.dropLast

/-- The text of a documentation comment, whether it is an inner one, and what follows. -/
def docComment? (cs : List Char) : Option (List Char × Bool × List Char) :=
  match cs with
  | '/' :: '/' :: '!' :: rest =>
    let (line, after) := restOfLine rest
    some (line, true, after)
  | '/' :: '*' :: '!' :: _ =>
    (afterBlockComment 0 cs).map fun rest => (blockCommentBody cs rest, true, rest)
  | '/' :: '/' :: '/' :: rest =>
    if rest.head? = some '/' then none
    else
      let (line, after) := restOfLine rest
      some (line, false, after)
  | '/' :: '*' :: '*' :: rest =>
    if rest.head? = some '*' then none
    else (afterBlockComment 0 cs).map fun rest => (blockCommentBody cs rest, false, rest)
  | _ => none

/-- A carriage return stands only before a line feed. -/
def hasBareReturn : List Char → Bool
  | '\r' :: '\n' :: rest => hasBareReturn rest
  | '\r' :: _ => true
  | _ :: rest => hasBareReturn rest
  | [] => false

/-- The attribute that a documentation comment stands for. -/
def docTokens (inner : Bool) (text : List Char) : List Token :=
  [.punct '#' false] ++ (if inner then [.punct '!' false] else []) ++
    [.group .bracket [.word "doc", .punct '=' false,
      .literal (Literal.quote (String.ofList text))]]

/-! ### Literals -/

/-- Leaves out a suffix that follows a literal at once. -/
def dropSuffix (cs : List Char) : List Char :=
  match word? cs with
  | some (_, rest) => rest
  | none => cs

/-- Which escapes and characters a quoted literal admits. -/
structure QuotedForm where
  /-- Code points may be named in braces. -/
  codePoints : Bool
  /-- The zero character may stand in it. -/
  zero : Bool
  /-- Two hexadecimal digits may name any byte, not only an ASCII one. -/
  bytes : Bool
  /-- Only ASCII characters may stand for themselves. -/
  asciiOnly : Bool

/-- Texts, byte strings and zero-terminated strings. -/
def QuotedForm.text : QuotedForm := ⟨true, true, false, false⟩
@[inherit_doc QuotedForm.text]
def QuotedForm.byteText : QuotedForm := ⟨false, true, true, true⟩
@[inherit_doc QuotedForm.text]
def QuotedForm.zeroEnded : QuotedForm := ⟨true, false, true, false⟩

/-- What follows two hexadecimal digits of the admitted range. -/
def afterHexPair? (form : QuotedForm) : List Char → Option (List Char)
  | a :: b :: rest => do
    let high ← Literal.hexValue? a
    let low ← Literal.hexValue? b
    if (form.bytes || decide (high < 8)) && (form.zero || high + low != 0) then some rest else none
  | _ => none

/-- What follows a code point of one to six digits in braces, and the code point. -/
def afterCodePoint? (digits value : Nat) : List Char → Option (Nat × List Char)
  | [] => none
  | '_' :: rest => if digits = 0 then none else afterCodePoint? digits value rest
  | '\x7d' :: rest =>
    if digits ≠ 0 ∧ (value < 0xd800 ∨ (0xdfff < value ∧ value < 0x110000)) then some (value, rest)
    else none
  | c :: rest => do
    let digit ← Literal.hexValue? c
    if digits = 6 then none else afterCodePoint? (digits + 1) (value * 16 + digit) rest

/-- What follows an escape, given the text after the backslash. -/
def afterEscape? (form : QuotedForm) : List Char → Option (List Char)
  | 'x' :: rest => afterHexPair? form rest
  | 'u' :: '\x7b' :: rest => do
    let (value, rest) ← afterCodePoint? 0 0 rest
    if form.codePoints && (form.zero || value != 0) then some rest else none
  | '0' :: rest => if form.zero then some rest else none
  | c :: rest => if (Literal.namedEscape? c).isSome then some rest else none
  | [] => none

/-- The blanks after a backslash at the end of a line; a return needs its line feed. -/
def afterContinuation? : List Char → Option (List Char)
  | '\r' :: '\n' :: rest => afterContinuation? rest
  | '\r' :: _ => none
  | c :: rest =>
    if Literal.isContinuationBlank c then afterContinuation? rest else some (c :: rest)
  | [] => none

/-- A character may stand for itself. -/
def QuotedForm.admits (form : QuotedForm) (c : Char) : Bool :=
  (!form.asciiOnly || decide (c.toNat < 0x80)) && (form.zero || c.toNat != 0)

/-- What follows the closing quote; every step reads a character or more. -/
def afterQuoted? (form : QuotedForm) : Nat → List Char → Option (List Char)
  | 0, _ => none
  | fuel + 1, cs =>
    match cs with
    | [] => none
    | '\x22' :: rest => some rest
    | '\r' :: '\n' :: rest => afterQuoted? form fuel rest
    | '\r' :: _ => none
    | '\x5c' :: '\n' :: rest =>
      (afterContinuation? rest).bind (afterQuoted? form fuel)
    | '\x5c' :: '\r' :: rest =>
      (afterContinuation? ('\r' :: rest)).bind (afterQuoted? form fuel)
    | '\x5c' :: rest => (afterEscape? form rest).bind (afterQuoted? form fuel)
    | c :: rest => if form.admits c then afterQuoted? form fuel rest else none

/-- A quoted literal after its opening quote. -/
def quoted? (form : QuotedForm) (cs : List Char) : Option (List Char) :=
  (afterQuoted? form (cs.length + 1) cs).map dropSuffix

/-- What follows the closing quote and marks of a raw literal. -/
def afterRawBody? (form : QuotedForm) (marks : List Char) : List Char → Option (List Char)
  | [] => none
  | c :: rest =>
    if c = '\x22' ∧ marks.isPrefixOf rest then some (rest.drop marks.length)
    else if c = '\r' ∧ rest.head? ≠ some '\n' then none
    else if form.admits c then afterRawBody? form marks rest
    else none

/-- A raw literal after its letters. -/
def raw? (form : QuotedForm) (cs : List Char) : Option (List Char) :=
  let marks := cs.takeWhile (· == '#')
  match cs.dropWhile (· == '#') with
  | '\x22' :: body =>
    if marks.length ≤ 255 then (afterRawBody? form marks body).map dropSuffix else none
  | _ => none

/-- A character or byte literal after its opening apostrophe. -/
def single? (form : QuotedForm) (cs : List Char) : Option (List Char) := do
  let rest ← match cs with
    | '\x5c' :: rest => afterEscape? form rest
    | c :: rest => if form.admits c then some rest else none
    | [] => none
  match rest with
  | '\x27' :: rest => some (dropSuffix rest)
  | _ => none

/-- No word character follows. -/
def wordBreak? (cs : List Char) : Option (List Char) :=
  match cs with
  | c :: _ => if Identifier.isContinue c then none else some cs
  | [] => some cs

/-- Drops a suffix and then demands that the word has ended. -/
def endNumber? (cs : List Char) : Option (List Char) := wordBreak? (dropSuffix cs)

/-- The digits of a number with a base; letters beyond the base end it, a digit beyond it is an
error, and so is the lack of any digit. -/
def digits? (base : Nat) : Bool → List Char → Option (List Char)
  | empty, c :: rest =>
    if c = '_' then if empty && base == 10 then none else digits? base empty rest
    else
      match Literal.hexValue? c with
      | some digit =>
        if digit < base then digits? base false rest
        else if digit < 10 then none
        else if empty then none else some (c :: rest)
      | none => if empty then none else some (c :: rest)
  | empty, [] => if empty then none else some []

/-- An integer literal. -/
def int? (cs : List Char) : Option (List Char) :=
  (match cs with
    | '0' :: 'x' :: rest => digits? 16 true rest
    | '0' :: 'o' :: rest => digits? 8 true rest
    | '0' :: 'b' :: rest => digits? 2 true rest
    | _ => digits? 10 true cs).bind endNumber?

/-- A digit or the low line that may stand between digits. -/
def isDigitOrLine (c : Char) : Bool := c.isDigit || c == '_'

/-- The exponent after its letter, if it has a digit. -/
def exponent? (cs : List Char) : Option (List Char) :=
  let (signed, unsigned) := match cs with
    | '+' :: rest | '-' :: rest => (true, rest)
    | rest => (false, rest)
  let digits := unsigned.takeWhile isDigitOrLine
  let rest := unsigned.dropWhile isDigitOrLine
  if digits.any Char.isDigit then some rest
  else if signed then none
  else
    match digits, rest with
    | _ :: _, '+' :: more | _ :: _, '-' :: more =>
      let digits := more.takeWhile isDigitOrLine
      if digits.any Char.isDigit then some (more.dropWhile isDigitOrLine) else none
    | _, _ => none

/-- The digits, point and exponent of a float; a point before a word or another point is none. -/
def floatDigits? (cs : List Char) : Option (List Char) :=
  match cs with
  | c :: _ =>
    if c.isDigit then
      match cs.dropWhile isDigitOrLine with
      | '.' :: rest =>
        if rest.head?.any fun d => d == '.' || Identifier.isStart d then none
        else
          let after := rest.dropWhile isDigitOrLine
          match after with
          | 'e' :: more | 'E' :: more => some ((exponent? more).getD after)
          | _ => some after
      | 'e' :: more | 'E' :: more => exponent? more
      | _ => none
    else none
  | [] => none

/-- A float literal. -/
def float? (cs : List Char) : Option (List Char) := (floatDigits? cs).bind endNumber?

/-- What follows a literal of any kind. -/
def afterLiteral? (cs : List Char) : Option (List Char) :=
  match cs with
  | '\x22' :: rest => quoted? .text rest
  | 'r' :: rest => raw? .text rest
  | 'b' :: '\x22' :: rest => quoted? .byteText rest
  | 'b' :: 'r' :: rest => raw? .byteText rest
  | 'b' :: '\x27' :: rest => single? .byteText rest
  | 'c' :: '\x22' :: rest => quoted? .zeroEnded rest
  | 'c' :: 'r' :: rest => raw? .zeroEnded rest
  | '\x27' :: rest => single? .text rest
  | _ => float? cs <|> int? cs

/-! ### Punctuation -/

/-- The next character is punctuation and does not start a comment. -/
def startsPunct : List Char → Bool
  | '/' :: '/' :: _ => false
  | '/' :: '*' :: _ => false
  | c :: _ => punctuation.contains c
  | [] => false

/-- A punctuation character, or a lifetime after its apostrophe. -/
def punct? (cs : List Char) : Option (Token × List Char) :=
  if startsPunct cs then
    match cs with
    | '\x27' :: rest => do
      let (name, after) ← anyWord? rest
      let isRaw := ['r', '#'].isPrefixOf rest
      if after.head? = some '\x27' || (after.head? == some '#' && !isRaw) then none
      else some (.lifetime name, after)
    | c :: rest => some (.punct c (startsPunct rest), rest)
    | [] => none
  else none

/-! ### Token sequences -/

/-- A token that is no group. -/
def leaf? (cs : List Char) : Option (Token × List Char) :=
  match afterLiteral? cs with
  | some rest => some (.literal (String.ofList (readBefore cs rest)), rest)
  | none =>
    match punct? cs with
    | some found => some found
    | none => (identifier? cs).map fun (name, rest) => (.word name, rest)

/-- The documentation comment at the start of the text, unless it has a bare carriage return. -/
def doc? (cs : List Char) : Option (List Token × List Char) :=
  match docComment? cs with
  | some (text, inner, rest) =>
    if hasBareReturn text then none else some (docTokens inner text, rest)
  | none => none

/-- The tokens up to a closing delimiter or the end; every token has a character or more. -/
def sequence : Nat → List Char → Option (List Token × List Char)
  | 0, _ => none
  | fuel + 1, text =>
    let cs := skip text
    match doc? cs with
    | some (doc, rest) => do
      let (more, rest) ← sequence fuel rest
      return (doc ++ more, rest)
    | none =>
      match cs with
      | [] => some ([], [])
      | c :: rest =>
        match Delimiter.ofOpening? c with
        | some d => do
          let (body, rest) ← sequence fuel rest
          match rest with
          | e :: rest =>
            if e = d.closing then
              let (more, rest) ← sequence fuel rest
              return (.group d body :: more, rest)
            else none
          | [] => none
        | none =>
          if (Delimiter.ofClosing? c).isSome then some ([], cs)
          else do
            let (token, rest) ← leaf? cs
            let (more, rest) ← sequence fuel rest
            return (token :: more, rest)

end Lexer

/-- A text without a mark of byte order at its start. -/
def Lexer.dropByteOrderMark : List Char → List Char
  | '\ufeff' :: rest => rest
  | cs => cs

/-- The tokens of a text, if it has any such reading. -/
def Token.ofText? (text : String) : Option (List Token) :=
  match Lexer.sequence (text.length + 1) (Lexer.dropByteOrderMark text.toList) with
  | some (tokens, []) => some tokens
  | _ => none

end EntityTable.Source
