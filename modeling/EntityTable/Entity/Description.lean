import EntityTable.Entity.Meaning
import EntityTable.Entity.Roles

/-! # Descriptions

What is said about an entity before anything is checked: its name, options and fields, with all names
as raw texts. -/

namespace EntityTable.Entity

open Source (Ty)

/-- What is said about a field. -/
structure FieldDescription where
  name : String
  ty : Ty
  roles : Roles
  serializable : Bool
  mapping : Option TypeMapping

namespace FieldDescription

/-- A field without roles or mapping. -/
def plain (name : String) (ty : Ty) : FieldDescription := ⟨name, ty, .none, false, none⟩

/-- The field as a key. -/
def asPrimaryKey (f : FieldDescription) : FieldDescription :=
  { f with roles := { f.roles with primaryKey := true } }

/-- The field with the mark of a key that the database assigns, whether or not it is a key. -/
def withAutoIncrement (f : FieldDescription) : FieldDescription :=
  { f with roles := { f.roles with autoIncrement := true } }

/-- The field as a lookup key. -/
def asLookupKey (f : FieldDescription) : FieldDescription :=
  { f with roles := { f.roles with lookupKey := true } }

/-- The field excluded from storage. -/
def asNonSavable (f : FieldDescription) : FieldDescription :=
  { f with roles := { f.roles with nonSavable := true } }

/-- The field stored as serialized text if nothing else applies. -/
def asSerializable (f : FieldDescription) : FieldDescription := { f with serializable := true }

/-- The field stored through a mapping. -/
def mappedBy (mapping : TypeMapping) (f : FieldDescription) : FieldDescription :=
  { f with mapping := some mapping }

end FieldDescription

/-- What is said about an entity. -/
structure Description where
  name : String
  /-- The path of the module that the entity is imported from. -/
  home : Option String
  /-- The name of the generated type. -/
  className : Option String
  /-- The name of the table. -/
  table : Option String
  hideColumns : Bool
  fields : List FieldDescription

end EntityTable.Entity
