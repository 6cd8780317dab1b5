import EntityTable.Column.Conversion
import EntityTable.Entity.Schema
import EntityTable.Source.Literal

/-! # Column plans

A plan is the decision how one stored field becomes a column: its storage, its modifiers and the
expressions that convert between the field and the column. Encoding takes a reference to the value,
decoding takes what was read from the row. Null is converted to null and back without the
templates. -/

namespace EntityTable.Column

open Source (Literal.quote Token Ty)
open Entity (Meaning StoredField)

/-- Why a field has the conversion that it has. -/
inductive Branch where
  | mapped
  | primitive
  | serializable
  deriving DecidableEq, Repr

/-- The name of a branch. -/
def Branch.name : Branch → String
  | mapped => "Mapped"
  | primitive => "Primitive"
  | serializable => "Serializable"

/-- The plan of a column. -/
structure Plan where
  /-- The name of the column, which is that of the field. -/
  column : String
  conversion : Conversion
  /-- In the order in which the modifiers are declared. -/
  modifiers : List Modifier
  branch : Branch

namespace Plan

/-- The storage type. -/
def storage (p : Plan) : Storage := p.conversion.storage

/-- The column has a modifier. -/
def has (p : Plan) (modifier : Modifier) : Bool := p.modifiers.contains modifier

/-- The column may be null. -/
def isNullable (p : Plan) : Bool := p.has .nullable

/-! ### Expressions -/

/-- The expression that stores a present value. -/
def encodeValue (p : Plan) (source : String) : String := p.conversion.encode.fill source

/-- The expression that reads a present value. -/
def decodeValue (p : Plan) (source : String) : String := p.conversion.decode.fill source

/-- The template applied to a source that may be null. -/
def fillNullable (isNullable : Bool) (template : Template) (source : String) : String :=
  if !isNullable || template.isIdentity then template.fill source
  else
    "match " ++ source ++ " \x7b Some(value) => Some(" ++ template.fill "value" ++
      "), None => None \x7d"

/-- The expression that stores a value of the field. -/
def encode (p : Plan) (source : String) : String :=
  fillNullable p.isNullable p.conversion.encode source

/-- The expression that reads a value of the field. -/
def decode (p : Plan) (source : String) : String :=
  fillNullable p.isNullable p.conversion.decode source

/-- The expression that reads the column from a row. -/
def read (p : Plan) (row : String) : String :=
  let ty := Token.textList p.conversion.readType.tokens
  let ty := if p.isNullable then "Option<" ++ ty ++ ">" else ty
  row ++ ".try_get::<" ++ ty ++ ", _>(" ++ Literal.quote p.column ++ ")?"

/-! ### Planning -/

/-- The modifiers of a field's column. -/
def modifiersOf (f : StoredField) : List Modifier :=
  (if f.isAutoIncrement then [.autoIncrement] else []) ++
    (if f.isLookupKey then [.indexed] else []) ++ (if f.isNullable then [.nullable] else [])

/-- The conversion of a field and the branch that it comes from. -/
def conversionOf (f : StoredField) : Except MappingError (Branch × Conversion) :=
  match f.meaning with
  | .mapped m => (Conversion.ofMapping f.name m).map fun conversion => (.mapped, conversion)
  | .primitive known => .ok (.primitive, .ofPrimitive known f.valueTy)
  | .serializable => .ok (.serializable, .ofText .serialized)
  | .unrecognized => .error (.unsupportedType f.name f.valueTy.display)

/-- The plan of a field. A key that the database assigns must be stored as an integer. -/
def ofField (f : StoredField) : Except MappingError Plan := do
  let (branch, conversion) ← conversionOf f
  if f.isAutoIncrement && !conversion.storage.isInteger then
    throw (.autoIncrementStorage f.name conversion.storage)
  return { column := f.name, conversion, modifiers := modifiersOf f, branch }

end Plan

end EntityTable.Column
