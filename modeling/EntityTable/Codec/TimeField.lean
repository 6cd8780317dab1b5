import EntityTable.Codec.Decimal
import EntityTable.Text.Blank

/-! # Fields of a date and time

The numbers of a date and time are written with leading zeros and read field by field. Reading stops
at the first fault, and the ends of fields are judged by the bytes that are left. -/

namespace EntityTable.Codec

/-- Why a text is not a date and time. -/
inductive DateTimeError where
  | invalid
  | outOfRange
  | tooShort
  | tooLong
  deriving DecidableEq, Repr

/-- The text of an error. -/
def DateTimeError.message : DateTimeError → String
  | invalid => "input contains invalid characters"
  | outOfRange => "input is out of range"
  | tooShort => "premature end of input"
  | tooLong => "trailing input"

/-- Reading of a field from the front of a text. -/
abbrev FieldReader (α : Type) := StateT (List Char) (Except DateTimeError) α

namespace TimeField

/-! ### Writing -/

/-- A number with zeros before it up to a width. -/
def padded (width n : Nat) : List Char :=
  let digits := digitsOf n
  List.replicate (width - digits.length) '0' ++ digits

/-- The digits of a part of a second in billionths: none, three, six or nine. -/
def fraction (nano : Nat) : List Char :=
  if nano = 0 then []
  else if nano % 1000000 = 0 then '.' :: padded 3 (nano / 1000000)
  else if nano % 1000 = 0 then '.' :: padded 6 (nano / 1000)
  else '.' :: padded 9 nano

/-! ### Reading -/

/-- The bytes of a text. -/
def byteCount : List Char → Nat
  | [] => 0
  | c :: cs => c.utf8Size + byteCount cs

/-- The greatest number that a field may hold. -/
def greatest : Nat := Nat.pow 2 63 - 1

/-- A number of at least and at most so many digits; without a most, of any number of them. -/
def number (least : Nat) (most : Option Nat) : FieldReader Nat := fun cs =>
  if byteCount cs < least then .error .tooShort
  else
    let digits := (cs.take (most.getD cs.length)).takeWhile Char.isDigit
    if digits.length < least then .error .invalid
    else if greatest < digitsValue digits then .error .outOfRange
    else .ok (digitsValue digits, cs.drop digits.length)

/-- A number that has to lie between two bounds. -/
def bounded (low high : Nat) (digits : FieldReader Nat) : FieldReader Nat := do
  let n ← digits
  if low ≤ n ∧ n ≤ high then return n else throw .outOfRange

/-- One of the given characters, which is returned. -/
def mark (accepted : List Char) : FieldReader Char
  | [] => .error .tooShort
  | c :: rest => if c ∈ accepted then .ok (c, rest) else .error .invalid

/-- One to nine digits as billionths; any further digits have no effect. -/
def nanoDigits : FieldReader Nat := fun cs => do
  let (n, rest) ← number 1 (some 9) cs
  return (n * Nat.pow 10 (9 - (cs.length - rest.length)), rest.dropWhile Char.isDigit)

/-- The billionths of a second behind a point, if there is one. -/
def nanoseconds : FieldReader Nat
  | '.' :: rest => nanoDigits rest
  | cs => .ok (0, cs)

/-- What a reader yields that has to read all of a text. -/
def all {α : Type} (reader : FieldReader α) (text : String) : Except DateTimeError α :=
  match reader text.toList with
  | .ok (value, []) => .ok value
  | .ok _ => .error .tooLong
  | .error e => .error e

end TimeField

end EntityTable.Codec
