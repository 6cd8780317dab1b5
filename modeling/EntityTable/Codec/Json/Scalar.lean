import EntityTable.Codec.Json.Fault

/-! # Scalars of JSON text

Reading of words, numbers and strings. A reader takes the text from its first character on and
yields what it read and the text behind it. -/

namespace EntityTable.Codec.Json

/-- The text without the white space in front of it. -/
def skipBlanks (cs : List Char) : List Char :=
  cs.dropWhile fun c => c == ' ' || c == '\n' || c == '\t' || c == '\r'

/-- The text behind a word. -/
def word : List Char → List Char → Except Fault (List Char)
  | [], cs => .ok cs
  | _ :: _, [] => .error (.before .valueUnfinished [])
  | w :: rest, c :: cs => if c = w then word rest cs else .error (.at .expectedWord (c :: cs))

/-! ### Numbers

Digits accumulate as long as they fit in 64 bits. Further digits before the point only count as
places, further ones behind it have no effect. The float that results is the significand, rounded,
times or divided by a power of ten that is itself rounded. -/

/-- The greatest significand. -/
def greatestSignificand : Nat := Nat.pow 2 64 - 1

/-- The greatest exponent of ten. -/
def greatestExponent : Nat := Nat.pow 2 31 - 1

/-- The greatest power of ten by which a float is multiplied or divided in one step. -/
def greatestPower : Nat := 308

/-- The number that digits go on to write while it does not pass a limit, and the text behind
those digits. -/
def boundedDigits (limit n : Nat) : List Char → Nat × List Char
  | [] => (n, [])
  | c :: rest =>
    if c.isDigit ∧ 10 * n + digitValue c ≤ limit then
      boundedDigits limit (10 * n + digitValue c) rest
    else (n, c :: rest)

/-- A text begins with a digit. -/
def startsWithDigit : List Char → Bool
  | c :: _ => c.isDigit
  | [] => false

/-- A pattern divided by a power of ten, in steps. -/
def divideByTens (pattern power : Nat) : Nat :=
  let format := FloatFormat.double
  if power ≤ greatestPower then format.div pattern (format.ofNat (Nat.pow 10 power))
  else if pattern = 0 then 0
  else
    divideByTens (format.div pattern (format.ofNat (Nat.pow 10 greatestPower)))
      (power - greatestPower)
termination_by power
decreasing_by simp only [greatestPower] at *; omega

/-- The float of a significand times a power of ten, unless it is too great. -/
def floatOf? (significand : Nat) (power : Int) : Option Nat :=
  let format := FloatFormat.double
  let pattern := format.ofNat significand
  match power with
  | .negSucc n => some (divideByTens pattern (n + 1))
  | .ofNat n =>
    if n ≤ greatestPower then
      let product := format.mul pattern (format.ofNat (Nat.pow 10 n))
      if product < format.infinity then some product else none
    else if pattern = 0 then some 0
    else none

/-- A float as a scalar, given the text behind it. -/
def floatScalar (negative : Bool) (significand : Nat) (power : Int) (rest : List Char) :
    Except Fault (Scalar × List Char) :=
  match floatOf? significand power with
  | some pattern => .ok (.float negative pattern, rest)
  | none => .error (.before .numberOutOfRange rest)

/-- The exponent behind its letter, added to a power of ten. -/
def exponentPart (negative : Bool) (significand : Nat) (power : Int) (cs : List Char) :
    Except Fault (Scalar × List Char) :=
  let (down, digits) := match cs with
    | '+' :: rest => (false, rest)
    | '-' :: rest => (true, rest)
    | rest => (false, rest)
  match digits with
  | [] => .error (.before .valueUnfinished [])
  | c :: _ =>
    if c.isDigit then
      let (exponent, rest) := boundedDigits greatestExponent 0 digits
      if startsWithDigit rest then
        if significand ≠ 0 ∧ !down then .error (.at .numberOutOfRange rest)
        else .ok (.float negative 0, rest.dropWhile Char.isDigit)
      else
        let power := if down then power - exponent else power + exponent
        floatScalar negative significand power rest
    else .error (.at .invalidNumber digits)

/-- What may follow the digits of a float. -/
def floatEnd (negative : Bool) (significand : Nat) (power : Int) (cs : List Char) :
    Except Fault (Scalar × List Char) :=
  match cs with
  | 'e' :: rest | 'E' :: rest => exponentPart negative significand power rest
  | rest => floatScalar negative significand power rest

/-- The digits behind a point. -/
def fractionPart (negative : Bool) (significand : Nat) (power : Int) (cs : List Char) :
    Except Fault (Scalar × List Char) :=
  if startsWithDigit cs then
    let (significand, rest) := boundedDigits greatestSignificand significand cs
    floatEnd negative significand (power - (cs.length - rest.length : Nat))
      (rest.dropWhile Char.isDigit)
  else
    match cs with
    | [] => .error (.before .valueUnfinished [])
    | cs => .error (.at .invalidNumber cs)

/-- A number of which only digits were read; minus zero, and what does not fit in 64 bits, is a
float. -/
def wholeScalar (negative : Bool) (n : Nat) : Scalar :=
  if negative then
    if n ≠ 0 ∧ n ≤ Nat.pow 2 63 then .int (-n) else .float true (FloatFormat.double.ofNat n)
  else .int n

/-- What may follow the digits before the point, of which some may not have fitted. -/
def numberEnd (negative : Bool) (significand places : Nat) (cs : List Char) :
    Except Fault (Scalar × List Char) :=
  match cs with
  | '.' :: rest => fractionPart negative significand places rest
  | cs =>
    if places = 0 ∧ cs.head? ≠ some 'e' ∧ cs.head? ≠ some 'E' then
      .ok (wholeScalar negative significand, cs)
    else floatEnd negative significand places cs

/-- A number behind its sign. -/
def number (negative : Bool) : List Char → Except Fault (Scalar × List Char)
  | [] => .error (.before .valueUnfinished [])
  | c :: cs =>
    if c = '0' then
      if startsWithDigit cs then .error (.at .invalidNumber cs) else numberEnd negative 0 0 cs
    else if c.isDigit then
      let (significand, rest) := boundedDigits greatestSignificand 0 (c :: cs)
      let extra := rest.takeWhile Char.isDigit
      numberEnd negative significand extra.length (rest.dropWhile Char.isDigit)
    else .error (.at .invalidNumber (c :: cs))

/-! ### Strings -/

/-- The value of a hexadecimal digit. -/
def hexValue? (c : Char) : Option Nat :=
  if '0' ≤ c ∧ c ≤ '9' then some (c.toNat - 48)
  else if 'a' ≤ c ∧ c ≤ 'f' then some (c.toNat - 87)
  else if 'A' ≤ c ∧ c ≤ 'F' then some (c.toNat - 55)
  else none

/-- The number that four hexadecimal digits write. -/
def fourHexDigits? : List Char → Option (Nat × List Char)
  | a :: b :: c :: d :: rest => do
    let a ← hexValue? a
    let b ← hexValue? b
    let c ← hexValue? c
    let d ← hexValue? d
    return (((a * 16 + b) * 16 + c) * 16 + d, rest)
  | _ => none

/-- The code unit of an escape behind its letter; four bytes are taken whatever they are. -/
def codeUnit (cs : List Char) : Except Fault (Nat × List Char) :=
  match fourHexDigits? cs with
  | some result => .ok result
  | none =>
    if byteCount cs < 4 then .error (.before .stringUnfinished [])
    else .error ⟨.invalidEscape, byteCount cs - 4⟩

/-- The unit is the second half of a pair. -/
def isTrailingUnit (unit : Nat) : Bool := decide (0xDC00 ≤ unit ∧ unit ≤ 0xDFFF)

/-- The unit is the first half of a pair. -/
def isLeadingUnit (unit : Nat) : Bool := decide (0xD800 ≤ unit ∧ unit ≤ 0xDBFF)

/-- The text behind a character that has to be there inside a pair. -/
def pairMark (mark : Char) : List Char → Except Fault (List Char)
  | [] => .error (.before .stringUnfinished [])
  | c :: rest => if c = mark then .ok rest else .error (.at .missingSurrogate (c :: rest))

/-- The character of an escape by code units, behind its letter. -/
def unicodeEscape (cs : List Char) : Except Fault (Char × List Char) := do
  let (unit, rest) ← codeUnit cs
  if isTrailingUnit unit then throw (.before .loneSurrogate rest)
  if !isLeadingUnit unit then return (Char.ofNat unit, rest)
  let rest ← pairMark '\x5c' rest
  let rest ← pairMark 'u' rest
  let (second, rest) ← codeUnit rest
  if !isTrailingUnit second then throw (.before .loneSurrogate rest)
  return (Char.ofNat ((unit - 0xD800) * 0x400 + (second - 0xDC00) + 0x10000), rest)

/-- The character that one letter names. -/
def namedEscape? (c : Char) : Option Char :=
  if c = '\x22' ∨ c = '\x5c' ∨ c = '/' then some c
  else if c = 'b' then some '\x08'
  else if c = 'f' then some '\x0c'
  else if c = 'n' then some '\n'
  else if c = 'r' then some '\r'
  else if c = 't' then some '\t'
  else none

/-- The character of an escape, behind the backslash. -/
def escape : List Char → Except Fault (Char × List Char)
  | [] => .error (.before .stringUnfinished [])
  | c :: rest =>
    if c = 'u' then unicodeEscape rest
    else
      match namedEscape? c with
      | some named => .ok (named, rest)
      | none => .error (.at .invalidEscape (c :: rest))

/-- The characters of a string up to its closing quote; every step reads a character or more. -/
def stringBody : Nat → List Char → Except Fault (List Char × List Char)
  | 0, _ | _, [] => .error (.before .stringUnfinished [])
  | fuel + 1, c :: rest =>
    if c = '\x22' then .ok ([], rest)
    else if c = '\x5c' then do
      let (named, rest) ← escape rest
      let (more, rest) ← stringBody fuel rest
      return (named :: more, rest)
    else if c.toNat < 0x20 then .error (.at .controlCharacter (c :: rest))
    else do
      let (more, rest) ← stringBody fuel rest
      return (c :: more, rest)

/-- A string behind its opening quote. -/
def stringAfterQuote (cs : List Char) : Except Fault (String × List Char) := do
  let (body, rest) ← stringBody (cs.length + 1) cs
  return (String.ofList body, rest)

/-! ### All scalars -/

/-- The scalar at the front of a text. -/
def scalar : List Char → Except Fault (Scalar × List Char)
  | [] => .error (.before .valueUnfinished [])
  | c :: rest =>
    if c = 'n' then do return (.null, ← word ['u', 'l', 'l'] rest)
    else if c = 't' then do return (.bool true, ← word ['r', 'u', 'e'] rest)
    else if c = 'f' then do return (.bool false, ← word ['a', 'l', 's', 'e'] rest)
    else if c = '-' then number true rest
    else if c.isDigit then number false (c :: rest)
    else if c = '\x22' then do
      let (value, rest) ← stringAfterQuote rest
      return (.string value, rest)
    else .error (.at .expectedValue (c :: rest))

end EntityTable.Codec.Json
