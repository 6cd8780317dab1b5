import EntityTable.Codec.Json.Value
import EntityTable.Source.Literal

/-! # Faults of JSON text

Why a text is not JSON, or not of the shape asked for, and where. A place is counted in bytes: a
fault records how many bytes are left behind it, from which line and column follow. -/

namespace EntityTable.Codec.Json

/-- A value without parts. -/
inductive Scalar where
  | null
  | bool (value : Bool)
  | int (value : Int)
  | float (negative : Bool) (pattern : Nat)
  | string (value : String)
  deriving Repr

/-- What stands where something else was expected. -/
inductive Found where
  | scalar (value : Scalar)
  | list
  | object
  deriving Repr

/-- The reasons to refuse a text. -/
inductive Cause where
  | listUnfinished
  | objectUnfinished
  | stringUnfinished
  | valueUnfinished
  | expectedColon
  | expectedListEnd
  | expectedObjectEnd
  | expectedWord
  | expectedValue
  | invalidEscape
  | invalidNumber
  | numberOutOfRange
  | controlCharacter
  | keyNotString
  | loneSurrogate
  | missingSurrogate
  | trailingComma
  | trailingCharacters
  | tooDeep
  | wrongType (found : Found) (expected : String)
  | wrongValue (found : Int) (expected : String)
  | wrongLength (length : Nat) (expected : String)
  | missingField (name : String)
  | duplicateField (name : String)
  deriving Repr

/-- A cause, and the number of bytes behind its place. -/
structure Fault where
  cause : Cause
  left : Nat
  deriving Repr

/-! ### Texts -/

/-- A string between quotes, with escapes for what does not show. -/
def shown (value : String) : String :=
  "\x22" ++ String.ofList (value.toList.flatMap fun c =>
    if c.toNat = 0 then ['\x5c', '0'] else Source.Literal.escapeChar c) ++ "\x22"

/-- The description of a value without parts. -/
def Scalar.describe : Scalar → String
  | null => "null"
  | bool value => "boolean `" ++ toString value ++ "`"
  | int value => "integer `" ++ String.ofList (intText value) ++ "`"
  | float negative pattern =>
    "floating point `" ++ String.ofList (floatText negative pattern) ++ "`"
  | string value => "string " ++ shown value

/-- The description of what was found. -/
def Found.describe : Found → String
  | scalar value => value.describe
  | list => "sequence"
  | object => "map"

/-- The text of a cause. -/
def Cause.message : Cause → String
  | listUnfinished => "EOF while parsing a list"
  | objectUnfinished => "EOF while parsing an object"
  | stringUnfinished => "EOF while parsing a string"
  | valueUnfinished => "EOF while parsing a value"
  | expectedColon => "expected `:`"
  | expectedListEnd => "expected `,` or `]`"
  | expectedObjectEnd => "expected `,` or `\x7d`"
  | expectedWord => "expected ident"
  | expectedValue => "expected value"
  | invalidEscape => "invalid escape"
  | invalidNumber => "invalid number"
  | numberOutOfRange => "number out of range"
  | controlCharacter =>
    "control character (\\u0000-\\u001F) found while parsing a string"
  | keyNotString => "key must be a string"
  | loneSurrogate => "lone leading surrogate in hex escape"
  | missingSurrogate => "unexpected end of hex escape"
  | trailingComma => "trailing comma"
  | trailingCharacters => "trailing characters"
  | tooDeep => "recursion limit exceeded"
  | wrongType found expected => "invalid type: " ++ found.describe ++ ", expected " ++ expected
  | wrongValue found expected =>
    "invalid value: " ++ (Scalar.int found).describe ++ ", expected " ++ expected
  | wrongLength length expected =>
    "invalid length " ++ toString length ++ ", expected " ++ expected
  | missingField name => "missing field `" ++ name ++ "`"
  | duplicateField name => "duplicate field `" ++ name ++ "`"

/-! ### Places -/

/-- The bytes of a text. -/
def byteCount : List Char → Nat
  | [] => 0
  | c :: cs => c.utf8Size + byteCount cs

/-- A fault in front of a text. -/
def Fault.before (cause : Cause) (rest : List Char) : Fault := ⟨cause, byteCount rest⟩

/-- A fault behind the first byte of a text, or at its end if it has none. -/
def Fault.at (cause : Cause) (rest : List Char) : Fault := ⟨cause, byteCount rest - 1⟩

/-- The line and the column that lie a number of bytes into a text, going on from a line and a
column. -/
def placeFrom (line column : Nat) : Nat → List Char → Nat × Nat
  | bytes, [] => (line, column + bytes)
  | bytes, c :: rest =>
    if c.utf8Size ≤ bytes then
      if c = '\n' then placeFrom (line + 1) 0 (bytes - c.utf8Size) rest
      else placeFrom line (column + c.utf8Size) (bytes - c.utf8Size) rest
    else (line, column + bytes)

end EntityTable.Codec.Json
