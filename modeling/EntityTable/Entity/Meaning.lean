import EntityTable.Source.Tree.TypeView

/-! # Meaning of a field's type

How a value is stored follows from what its type means. Only the last word of a type's path counts,
so a type means the same under every path it is imported from. A mapping that the field declares
wins over the type, and a type with a meaning of its own wins over storage as serialized text. -/

namespace EntityTable.Entity

open Source (Ty)

/-- A mapping that a field declares: the type it is stored as, and how to get there and back. -/
structure TypeMapping where
  storeAs : Ty
  columnType : Option String
  encode : Option String
  decode : Option String
  imports : List String

/-- The types with a meaning of their own. -/
inductive Primitive where
  | int32
  | int64
  | uuid
  | string
  | boolean
  | listOfString
  | dateTime
  | zonedDateTime
  | float32
  deriving DecidableEq, Repr

/-- What the values of a field are. -/
inductive Meaning where
  | primitive (primitive : Primitive)
  | serializable
  | mapped (mapping : TypeMapping)
  | unrecognized

/-- The meaning of the words that name a primitive type. -/
def Primitive.ofWord? (word : String) : Option Primitive :=
  match word with
  | "i32" => some .int32
  | "i64" => some .int64
  | "Uuid" => some .uuid
  | "String" => some .string
  | "bool" => some .boolean
  | "NaiveDateTime" => some .dateTime
  | "DateTime" => some .zonedDateTime
  | "f32" => some .float32
  | _ => none

/-- The meaning of a type on its own; the only list with one is a list of strings. -/
def Primitive.ofTy? (ty : Ty) : Option Primitive :=
  match ty.listItem? with
  | some item => if item.lastWord? = some "String" then some .listOfString else none
  | none => ty.lastWord?.bind Primitive.ofWord?

namespace Meaning

/-- The meaning of a value type, given what else its field declares. -/
def classify (ty : Ty) (serializable : Bool) (mapping : Option TypeMapping) : Meaning :=
  match mapping, Primitive.ofTy? ty with
  | some given, _ => .mapped given
  | none, some known => .primitive known
  | none, none => if serializable then .serializable else .unrecognized

/-- The type has a meaning of its own. -/
def isPrimitive : Meaning → Bool
  | .primitive _ => true
  | _ => false

end Meaning

end EntityTable.Entity
