import EntityTable.Codec.Json.Skipping

/-! # Shapes of JSON text

A shape says how values of a type are written as JSON and read back. Reading reports the first
fault, be it one of the text or a value of another type than the shape asks for. -/

namespace EntityTable.Codec.Json

/-- How values of a type are written, and read from the front of a text that may be nested so many
levels deep. -/
structure Shape (α : Type) where
  write : α → List Char
  read : Nat → List Char → Except Fault (α × List Char)

/-- Why a text does not store a value, and the line and column of the fault. -/
structure SerializedError where
  cause : Cause
  line : Nat
  column : Nat
  deriving Repr

/-- The text of an error. -/
def SerializedError.message (e : SerializedError) : String :=
  e.cause.message ++ " at line " ++ toString e.line ++ " column " ++ toString e.column

/-- A fault of a text with its place. -/
def Fault.locate (fault : Fault) (cs : List Char) : SerializedError :=
  let (line, column) := placeFrom 1 0 (byteCount cs - fault.left) cs
  ⟨fault.cause, line, column⟩

/-- The text that stores a value. -/
def encodeSerialized {α : Type} (shape : Shape α) (value : α) : String :=
  String.ofList (shape.write value)

/-- The value at the front of a text behind which there is only white space. -/
def Shape.readAll {α : Type} (shape : Shape α) (cs : List Char) : Except Fault α := do
  let (value, rest) ← shape.read depthLimit cs
  match skipBlanks rest with
  | [] => return value
  | rest => throw (.at .trailingCharacters rest)

/-- The value that a text stores. -/
def decodeSerialized {α : Type} (shape : Shape α) (text : String) : Except SerializedError α :=
  (shape.readAll text.toList).mapError fun fault => fault.locate text.toList

namespace Shape

/-- Values of another type that correspond one to one. -/
def map {α β : Type} (shape : Shape α) (forward : α → β) (backward : β → α) : Shape β where
  write value := shape.write (backward value)
  read levels cs := (fun (value, rest) => (forward value, rest)) <$> shape.read levels cs

/-! ### Scalars -/

/-- Reads a scalar that has to be accepted; a cause lies behind the scalar. -/
def readScalar {α : Type} (expected : String) (accept : Scalar → Except Cause α)
    (cs : List Char) : Except Fault (α × List Char) :=
  match skipBlanks cs with
  | [] => .error (.before .valueUnfinished [])
  | c :: rest =>
    if c = '[' then .error (.before (.wrongType .list expected) (c :: rest))
    else if c = '\x7b' then .error (.before (.wrongType .object expected) (c :: rest))
    else do
      let (s, rest) ← scalar (c :: rest)
      match accept s with
      | .ok value => return (value, rest)
      | .error cause => throw (.before cause rest)

/-- Truth values. -/
def boolean : Shape Bool where
  write value := Json.text (.bool value)
  read _ := readScalar "a boolean" fun
    | .bool value => .ok value
    | s => .error (.wrongType (.scalar s) "a boolean")

/-- Texts. -/
def text : Shape String where
  write := stringText
  read _ := readScalar "a string" fun
    | .string value => .ok value
    | s => .error (.wrongType (.scalar s) "a string")

/-- Whole numbers between two bounds. -/
def integer (name : String) (low high : Int) : Shape Int where
  write := intText
  read _ := readScalar name fun
    | .int value =>
      if low ≤ value ∧ value ≤ high then .ok value else .error (.wrongValue value name)
    | s => .error (.wrongType (.scalar s) name)

/-- Whole numbers of 32 bits with a sign. -/
def int32 : Shape Int32 :=
  (integer "i32" (-Int.pow 2 31) (Int.pow 2 31 - 1)).map Int32.ofInt Int32.toInt

/-- Whole numbers of 32 bits without a sign. -/
def uint32 : Shape UInt32 :=
  (integer "u32" 0 (Int.pow 2 32 - 1)).map (fun n => UInt32.ofNat n.toNat) fun n => n.toNat

/-! ### Values with parts -/

/-- All values. -/
def json : Shape Json where
  write := Json.text
  read := Json.value

/-- Reads what begins with one of two brackets; a way to read behind each is given, or the bracket
is refused like a scalar. -/
def readNested {α : Type} (expected : String)
    (list object : Option (Nat → List Char → Except Fault (α × List Char)))
    (levels : Nat) (cs : List Char) : Except Fault (α × List Char) :=
  let refuse := readScalar expected fun s => .error (.wrongType (.scalar s) expected)
  match skipBlanks cs, list, object with
  | '[' :: rest, some list, _ => descend levels ('[' :: rest) list
  | '\x7b' :: rest, _, some object => descend levels ('\x7b' :: rest) object
  | cs, _, _ => refuse cs

/-- Lists. -/
def list {α : Type} (item : Shape α) : Shape (List α) where
  write values := listText (values.map item.write)
  read := readNested "a sequence" (some fun levels => listBody (item.read levels)) none

/-- Values that may be absent, which is written as null. -/
def optional {α : Type} (inner : Shape α) : Shape (Option α) where
  write value := (value.map inner.write).getD (Json.text .null)
  read levels cs :=
    match skipBlanks cs with
    | 'n' :: rest => do return (none, ← word ['u', 'l', 'l'] rest)
    | cs => do
      let (value, rest) ← inner.read levels cs
      return (some value, rest)

/-! ### Records -/

/-- A field of a record. -/
structure Field (α : Type) where
  name : String
  shape : Shape α

/-- The text behind the closing brace, if that is next. -/
def afterBrace (cs : List Char) : List Char :=
  match skipBlanks cs with
  | '\x7d' :: rest => rest
  | rest => rest

/-- Reads the value of a field that was not read before. -/
def Field.read {α : Type} (field : Field α) (levels : Nat) (sofar : Option α) (cs : List Char) :
    Except Fault (α × List Char) :=
  if sofar.isSome then .error (.before (.duplicateField field.name) (afterBrace cs))
  else do field.shape.read levels (← colon cs)

/-- A field that was read. -/
def Field.found {α : Type} (field : Field α) (sofar : Option α) (rest : List Char) :
    Except Fault α :=
  match sofar with
  | some value => .ok value
  | none => .error (.before (.missingField field.name) rest)

/-- Reads a member of a record of two fields; one that belongs to no field is passed over. -/
def recordMember {α β : Type} (first : Field α) (second : Field β) (levels : Nat)
    (state : Option α × Option β) (key : String) (cs : List Char) :
    Except Fault ((Option α × Option β) × List Char) :=
  if key = first.name then do
    let (value, rest) ← first.read levels state.1 cs
    return ((some value, state.2), rest)
  else if key = second.name then do
    let (value, rest) ← second.read levels state.2 cs
    return ((state.1, some value), rest)
  else do return (state, ← skipValue (← colon cs))

/-- Reads the members of a record of two fields behind the opening brace. -/
def recordObject {α β : Type} (first : Field α) (second : Field β) (levels : Nat)
    (cs : List Char) : Except Fault ((α × β) × List Char) := do
  let ((a, b), rest) ← objectBody (recordMember first second levels) (none, none) cs
  let a ← first.found a rest
  let b ← second.found b rest
  return ((a, b), rest)

/-- The next item of a list that stands for a record; it has to be there. -/
def recordItem (title : String) (count : Nat) (cs : List Char) : Except Fault (List Char) := do
  match ← nextItem (count == 0) cs with
  | .item cs => return cs
  | .finished rest =>
    throw (.before (.wrongLength count ("struct " ++ title ++ " with 2 elements")) rest)

/-- Reads the fields of a record from a list behind the opening bracket. -/
def recordList {α β : Type} (title : String) (first : Field α) (second : Field β) (levels : Nat)
    (cs : List Char) : Except Fault ((α × β) × List Char) := do
  let (a, rest) ← first.shape.read levels (← recordItem title 0 cs)
  let (b, rest) ← second.shape.read levels (← recordItem title 1 rest)
  return ((a, b), ← listEnd rest)

/-- Records of two fields. They are written as objects; lists of the two values are read too. -/
def record {α β : Type} (title : String) (first : Field α) (second : Field β) :
    Shape (α × β) where
  write value := objectText
    [memberText first.name (first.shape.write value.1),
      memberText second.name (second.shape.write value.2)]
  read := readNested ("struct " ++ title) (some (recordList title first second))
    (some (recordObject first second))

end Shape

end EntityTable.Codec.Json
