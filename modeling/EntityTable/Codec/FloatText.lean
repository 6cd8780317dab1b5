import EntityTable.Codec.Decimal

/-! # Floats

A float of 32 bits is stored as the shortest decimal that reads back, written without an exponent.
Reading accepts an exponent too, rounds any decimal to the nearest float, and knows infinity and the
absence of a number by their names, in upper or lower case. -/

namespace EntityTable.Codec

/-- Why a text is not a float. -/
inductive FloatError where
  | empty
  | invalid
  deriving DecidableEq, Repr

/-- The text of an error. -/
def FloatError.message : FloatError → String
  | empty => "cannot parse float from empty string"
  | invalid => "invalid float literal"

/-! ### Writing -/

/-- The bits of a float other than the sign. -/
def magnitude (bits : UInt32) : Nat := bits.toNat % FloatFormat.single.signBit

/-- The sign bit of a float is set. -/
def isNegative (bits : UInt32) : Bool := decide (FloatFormat.single.signBit ≤ bits.toNat)

/-- The bits denote no number. -/
def isNaN (bits : UInt32) : Bool := decide (FloatFormat.single.infinity < magnitude bits)

/-- The text of a float without its sign. -/
def magnitudeText (pattern : Nat) : List Char :=
  if pattern = FloatFormat.single.infinity then ['i', 'n', 'f']
  else if pattern = 0 then ['0']
  else (shortestDecimal .single .upper pattern).positional

/-- The text that stores a float. -/
def encodeFloat (bits : UInt32) : String :=
  if isNaN bits then "NaN"
  else String.ofList ((if isNegative bits then ['-'] else []) ++ magnitudeText (magnitude bits))

/-! ### Reading -/

/-- The text without its sign, and whether that is negative. -/
def splitSign : List Char → Bool × List Char
  | '-' :: rest => (true, rest)
  | '+' :: rest => (false, rest)
  | cs => (false, cs)

/-- The exponent behind a number, if all of the text is one. -/
def exponent? : List Char → Option Int
  | [] => some 0
  | c :: rest =>
    if c = 'e' ∨ c = 'E' then
      let (negative, digits) := splitSign rest
      if digits ≠ [] ∧ digits.all Char.isDigit then
        some (if negative then -digitsValue digits else digitsValue digits)
      else none
    else none

/-- The decimal that a text without a sign writes: digits, perhaps a point among them, perhaps an
exponent. -/
def decimal? (cs : List Char) : Option Decimal := do
  let whole := cs.takeWhile Char.isDigit
  let (fraction, rest) := match cs.dropWhile Char.isDigit with
    | '.' :: rest => (rest.takeWhile Char.isDigit, rest.dropWhile Char.isDigit)
    | rest => ([], rest)
  if whole = [] ∧ fraction = [] then none
  else
    let power ← exponent? rest
    return ⟨digitsValue (whole ++ fraction), power - fraction.length⟩

/-- A pattern that denotes no number. -/
def nanPattern : Nat := FloatFormat.single.infinity + Nat.pow 2 22

/-- The pattern that a text without a sign names or writes. -/
def pattern? (cs : List Char) : Option Nat :=
  match decimal? cs with
  | some d => some (d.round .single)
  | none =>
    match String.ofList (cs.map Char.toLower) with
    | "inf" | "infinity" => some FloatFormat.single.infinity
    | "nan" => some nanPattern
    | _ => none

/-- The float that a text stores. -/
def decodeFloat (text : String) : Except FloatError UInt32 :=
  match text.toList with
  | [] => .error .empty
  | cs =>
    let (negative, body) := splitSign cs
    match pattern? body with
    | some pattern =>
      .ok (UInt32.ofNat (if negative then FloatFormat.single.signBit + pattern else pattern))
    | none => .error .invalid

end EntityTable.Codec
