import EntityTable.Text.Grapheme
import EntityTable.Text.Printable

/-! # String literals

A text is written as a literal by escaping the quote, the backslash, line ends and tabs by name,
the zero character by `\0` (or by `\x00` before an octal digit), and all that would not show or
would attach to its neighbour by code point. Reading a literal undoes every escape of the language,
also those that the writer does not use. -/

namespace EntityTable.Source.Literal

/-! ### Writing -/

/-- The lower case hexadecimal digits of a number. -/
def hexDigits (n : Nat) : List Char := Nat.toDigits 16 n

/-- The escape by code point: `\u\x7b301\x7d`. -/
def escapeCode (c : Char) : List Char :=
  ['\x5c', 'u', '\x7b'] ++ hexDigits c.toNat ++ ['\x7d']

/-- A character inside a literal, given that it is not the zero character. -/
def escapeChar (c : Char) : List Char :=
  if c = '\x22' ∨ c = '\x5c' then ['\x5c', c]
  else if c = '\n' then ['\x5c', 'n']
  else if c = '\r' then ['\x5c', 'r']
  else if c = '\t' then ['\x5c', 't']
  else if Text.isGraphemeExtend c || !Text.isPrintable c then escapeCode c
  else [c]

/-- The next character is an octal digit. -/
def startsOctal : List Char → Bool
  | c :: _ => decide ('0' ≤ c ∧ c ≤ '7')
  | [] => false

/-- The characters of a literal between its quotes. -/
def escape : List Char → List Char
  | [] => []
  | c :: rest =>
    (if c.toNat = 0 then
      if startsOctal rest then ['\x5c', 'x', '0', '0'] else ['\x5c', '0']
    else escapeChar c) ++ escape rest

/-- The literal that denotes a text. -/
def quote (text : String) : String :=
  "\x22" ++ String.ofList (escape text.toList) ++ "\x22"

/-! ### Reading -/

/-- The value of a hexadecimal digit. -/
def hexValue? (c : Char) : Option Nat :=
  if '0' ≤ c ∧ c ≤ '9' then some (c.toNat - 48)
  else if 'a' ≤ c ∧ c ≤ 'f' then some (c.toNat - 87)
  else if 'A' ≤ c ∧ c ≤ 'F' then some (c.toNat - 55)
  else none

/-- The code point named between braces, and what follows the closing brace. -/
def codePoint? (value : Nat) : List Char → Option (Char × List Char)
  | [] => none
  | '\x7d' :: rest => some (Char.ofNat value, rest)
  | '_' :: rest => codePoint? value rest
  | c :: rest => (hexValue? c).bind fun digit => codePoint? (value * 16 + digit) rest

/-- The characters named by one letter after a backslash. -/
def namedEscape? : Char → Option Char
  | 'n' => some '\n'
  | 'r' => some '\r'
  | 't' => some '\t'
  | '0' => some (Char.ofNat 0)
  | '\x5c' => some '\x5c'
  | '\x27' => some '\x27'
  | '\x22' => some '\x22'
  | _ => none

/-- A blank that a backslash at the end of a line removes. -/
def isContinuationBlank (c : Char) : Bool := [' ', '\t', '\n', '\r'].contains c

/-- Undoes the escapes up to the closing quote; every step reads a character or more. -/
def unescape : Nat → List Char → Option (List Char)
  | 0, _ => none
  | fuel + 1, cs =>
    match cs with
    | [] => none
    | '\x22' :: _ => some []
    | '\x5c' :: 'x' :: a :: b :: rest => do
      let high ← hexValue? a
      let low ← hexValue? b
      return Char.ofNat (high * 16 + low) :: (← unescape fuel rest)
    | '\x5c' :: 'u' :: '\x7b' :: rest => do
      let (c, rest) ← codePoint? 0 rest
      return c :: (← unescape fuel rest)
    | '\x5c' :: c :: rest =>
      if c = '\n' ∨ c = '\r' then unescape fuel (rest.dropWhile isContinuationBlank)
      else do
        let named ← namedEscape? c
        return named :: (← unescape fuel rest)
    | '\r' :: '\n' :: rest => do return '\n' :: (← unescape fuel rest)
    | c :: rest => do return c :: (← unescape fuel rest)

/-- The text up to the first quote that the given marks follow. -/
def rawBody (marks : List Char) : List Char → List Char
  | [] => []
  | c :: rest => if c = '\x22' ∧ marks.isPrefixOf rest then [] else c :: rawBody marks rest

/-- The text that a string literal denotes, plain or raw; its suffix does not matter. -/
def value? (literal : String) : Option String :=
  match literal.toList with
  | '\x22' :: body => (unescape (body.length + 1) body).map String.ofList
  | 'r' :: marked =>
    let marks := marked.takeWhile (· == '#')
    match marked.dropWhile (· == '#') with
    | '\x22' :: body => some (String.ofList (rawBody marks body))
    | _ => none
  | _ => none

/-! ### Kinds -/

/-- What a literal is by its first characters. -/
inductive Kind where
  | string
  | byteString
  | cString
  | byte
  | char
  | int
  | float
  deriving DecidableEq, Repr

/-- A number is a float if it has a point, or an exponent outside a radix form. -/
def isFloatText (cs : List Char) : Bool :=
  let radix := match cs with
    | '0' :: 'x' :: _ | '0' :: 'o' :: _ | '0' :: 'b' :: _ => true
    | _ => false
  if radix then false
  else
    match cs.dropWhile fun c => c.isDigit || c == '_' with
    | '.' :: _ => true
    | 'e' :: rest | 'E' :: rest =>
      let digits := match rest with
        | '+' :: r | '-' :: r => r
        | r => r
      (digits.takeWhile fun c => c.isDigit || c == '_').any Char.isDigit
    | _ => false

/-- The kind of a literal. -/
def kind (literal : String) : Kind :=
  match literal.toList with
  | '\x22' :: _ | 'r' :: _ => .string
  | 'b' :: '\x27' :: _ => .byte
  | 'b' :: _ => .byteString
  | 'c' :: _ => .cString
  | '\x27' :: _ => .char
  | cs => if isFloatText cs then .float else .int

end EntityTable.Source.Literal
