import EntityTable.Codec.Decimal

/-! # JSON values

The values that JSON text denotes, and the text that is written for them. Written text has no white
space, objects have their members in the order of the keys, and numbers that are not whole are
floats of 64 bits, as the shortest decimal that reads back. -/

namespace EntityTable.Codec

/-- A JSON value. -/
inductive Json where
  | null
  | bool (value : Bool)
  /-- A whole number that fits in 64 bits, signed or not. -/
  | int (value : Int)
  /-- A float, by its sign and the pattern of its magnitude. -/
  | float (negative : Bool) (pattern : Nat)
  | string (value : String)
  | array (items : List Json)
  /-- The members in the order of their keys, each key once. -/
  | object (members : List (String × Json))
  deriving Repr

namespace Json

/-! ### Writing -/

/-- The letter that stands for a control character in an escape. -/
def escapeLetter? (c : Char) : Option Char :=
  if c = '\x08' then some 'b'
  else if c = '\t' then some 't'
  else if c = '\n' then some 'n'
  else if c = '\x0c' then some 'f'
  else if c = '\r' then some 'r'
  else none

/-- The hexadecimal digit of a number below sixteen. -/
def hexDigit (n : Nat) : Char := Char.ofNat (if n < 10 then n + 48 else n + 87)

/-- A character inside a string. -/
def escapeChar (c : Char) : List Char :=
  if c = '\x22' ∨ c = '\x5c' then ['\x5c', c]
  else if 0x20 ≤ c.toNat then [c]
  else
    match escapeLetter? c with
    | some letter => ['\x5c', letter]
    | none => ['\x5c', 'u', '0', '0', hexDigit (c.toNat / 16), hexDigit (c.toNat % 16)]

/-- The text of a string. -/
def stringText (value : String) : List Char :=
  '\x22' :: value.toList.flatMap escapeChar ++ ['\x22']

/-- The text of a whole number. -/
def intText (value : Int) : List Char :=
  if value < 0 then '-' :: digitsOf value.natAbs else digitsOf value.natAbs

/-- A decimal as JSON number that is not whole: with a point if its first digit lies between the
fifth place behind the point and the sixteenth place before it, else with an exponent. -/
def decimalText (d : Decimal) : List Char :=
  if -5 ≤ d.leadingExponent ∧ d.leadingExponent ≤ 15 then
    d.positional ++ (if 0 ≤ d.exponent then ['.', '0'] else [])
  else d.scientific

/-- The text of a float. -/
def floatText (negative : Bool) (pattern : Nat) : List Char :=
  (if negative then ['-'] else []) ++
    (if pattern = 0 then ['0', '.', '0']
    else decimalText (shortestDecimal .double .even pattern))

/-- Several texts with commas between them. -/
def joinCommas : List (List Char) → List Char
  | [] => []
  | [text] => text
  | text :: rest => text ++ ',' :: joinCommas rest

/-- The text of a list, given those of its items. -/
def listText (items : List (List Char)) : List Char := '[' :: joinCommas items ++ [']']

/-- The text of an object, given those of its members. -/
def objectText (members : List (List Char)) : List Char := '\x7b' :: joinCommas members ++ ['\x7d']

/-- The text of a member of an object, given that of its value. -/
def memberText (key : String) (value : List Char) : List Char := stringText key ++ ':' :: value

mutual

/-- The text of a value. -/
def text : Json → List Char
  | null => ['n', 'u', 'l', 'l']
  | bool true => ['t', 'r', 'u', 'e']
  | bool false => ['f', 'a', 'l', 's', 'e']
  | int value => intText value
  | float negative pattern => floatText negative pattern
  | string value => stringText value
  | array items => listText (itemTexts items)
  | object members => objectText (memberTexts members)

/-- The texts of items. -/
def itemTexts : List Json → List (List Char)
  | [] => []
  | item :: rest => text item :: itemTexts rest

/-- The texts of members. -/
def memberTexts : List (String × Json) → List (List Char)
  | [] => []
  | (key, value) :: rest => memberText key (text value) :: memberTexts rest

end

/-! ### Members -/

/-- The members with a value under a key: in its place in the order, or instead of the value that
the key had. -/
def insertMember (key : String) (value : Json) : List (String × Json) → List (String × Json)
  | [] => [(key, value)]
  | (k, v) :: rest =>
    if key = k then (key, value) :: rest
    else if key < k then (key, value) :: (k, v) :: rest
    else (k, v) :: insertMember key value rest

end Json

end EntityTable.Codec
