import EntityTable.Column.MappingError
import EntityTable.Entity.Meaning
import EntityTable.Source.Import

/-! # Conversions

A conversion says how a value is stored: the type of the column, the type that the column is read
as, and the templates for both directions. A value whose type is a column type is stored as it is,
and all others go through text by a pair of functions. A declared mapping puts the user's templates
around the conversion of the type that it stores the value as. -/

namespace EntityTable.Column

open Source (Import Ty)
open Entity (Meaning Primitive TypeMapping)

/-- The pairs of functions that store a value as text. -/
inductive TextForm where
  | dateTime
  | zonedDateTime
  | list
  | float
  | serialized
  deriving DecidableEq, Repr

/-- How a value is stored and read back. -/
structure Conversion where
  storage : Storage
  /-- The type that the column is read as. -/
  readType : Ty
  encode : Template
  decode : Template
  /-- What the templates need to have in scope. -/
  imports : List String

/-! ### Text forms -/

namespace TextForm

/-- The module that holds the functions. -/
def home : String := "table_dao::codec"

/-- What ends the names of both functions. -/
def stem : TextForm → String
  | dateTime => "date_time"
  | zonedDateTime => "zoned_date_time"
  | list => "list"
  | float => "float"
  | serialized => "serialized"

/-- The function that writes a value. -/
def encoder (f : TextForm) : String := "encode_" ++ f.stem

/-- The function that reads a value. -/
def decoder (f : TextForm) : String := "decode_" ++ f.stem

/-- How a failure in the given direction is passed on. -/
def onFailure (variant : String) : String :=
  ".map_err(|err| sqlx::Error::" ++ variant ++ "(Box::new(err)))?"

/-- The template that writes a value: floats are taken by value, and serialization may fail. -/
def encodeTemplate (f : TextForm) : Template where
  before := f.encoder ++ (if f = float then "(*" else "(")
  after := ")" ++ (if f = serialized then onFailure "Encode" else "")

/-- The template that reads a value: all but lists may fail. -/
def decodeTemplate (f : TextForm) : Template where
  before := f.decoder ++ "(&"
  after := ")" ++ (if f = list then "" else onFailure "Decode")

/-- The paths of both functions. -/
def imports (f : TextForm) : List String :=
  [home ++ "::" ++ f.decoder, home ++ "::" ++ f.encoder]

end TextForm

namespace Conversion

/-- A value stored as it is. -/
def identity (storage : Storage) (ty : Ty) : Conversion :=
  ⟨storage, ty, .identity, .identity, []⟩

/-- A value stored as text by a pair of functions. -/
def ofText (f : TextForm) : Conversion :=
  ⟨.text, .word "String", f.encodeTemplate, f.decodeTemplate, f.imports⟩

/-- The conversion of a primitive value whose type is spelled as given. -/
def ofPrimitive (primitive : Primitive) (ty : Ty) : Conversion :=
  match primitive with
  | .int32 => identity .integer ty
  | .int64 => identity .bigInt ty
  | .uuid => identity .uuid ty
  | .string => identity .text ty
  | .boolean => identity .boolean ty
  | .dateTime => ofText .dateTime
  | .zonedDateTime => ofText .zonedDateTime
  | .listOfString => ofText .list
  | .float32 => ofText .float

/-! ### Mapped values -/

/-- The template that a mapping gives for a direction, or the identity. -/
def mappingTemplate (field : String) (direction : Direction) (text : Option String) :
    Except MappingError Template :=
  match text with
  | none => .ok .identity
  | some text =>
    (Template.ofText text).mapError fun error =>
      .invalidTemplate field direction text (.text error)

/-- The conversion under the user's templates. The functions of a text form take a reference, while
the user's template yields a value. -/
def within (base : Conversion) (encode decode : Template) (imports : List String) : Conversion :=
  let inner : Template :=
    if base.encode.isIdentity || encode.isIdentity then encode
    else ⟨"&(" ++ encode.before, encode.after ++ ")"⟩
  { storage := base.storage
    readType := base.readType
    encode := base.encode.around inner
    decode := decode.around base.decode
    imports := base.imports ++ imports }

/-- The conversion that a mapping declares. With a column type the column is read as that type and
only the user's templates apply. -/
def ofMapping (field : String) (m : TypeMapping) : Except MappingError Conversion := do
  let encode ← mappingTemplate field .encode m.encode
  let decode ← mappingTemplate field .decode m.decode
  if let some path := m.imports.find? fun path => (Import.ofText? path).isNone then
    throw (.invalidImport field path)
  match m.columnType with
  | some name =>
    let some storage := Storage.ofName? name | throw (.unknownColumnType field name)
    return ⟨storage, storage.readType, encode, decode, m.imports⟩
  | none =>
    let some primitive := Primitive.ofTy? m.storeAs
      | throw (.unsupportedStoreAs field m.storeAs.display)
    return (ofPrimitive primitive m.storeAs).within encode decode m.imports

end Conversion

end EntityTable.Column
