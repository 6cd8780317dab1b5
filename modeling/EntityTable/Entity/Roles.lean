/-! # Roles of a field

What a field is for: the key of the table, a column to look entities up by, or a value that is not
stored at all. -/

namespace EntityTable.Entity

/-- The roles that a field is declared with. -/
structure Roles where
  /-- The field is the key of the table. -/
  primaryKey : Bool
  /-- The database assigns the key. -/
  autoIncrement : Bool
  /-- Entities are looked up by the field. -/
  lookupKey : Bool
  /-- The field is not stored. -/
  nonSavable : Bool
  deriving DecidableEq, Repr

namespace Roles

/-- No role at all. -/
def none : Roles := ⟨false, false, false, false⟩

/-- The roles of a key. -/
def ofPrimaryKey : Roles := { none with primaryKey := true }

/-- The roles of a key that the database assigns. -/
def ofAutoIncrement : Roles := { none with primaryKey := true, autoIncrement := true }

/-- The roles of a lookup key. -/
def ofLookupKey : Roles := { none with lookupKey := true }

/-- The roles of a field that is not stored. -/
def ofNonSavable : Roles := { none with nonSavable := true }

/-- The field is a key that the database assigns. -/
def isAutoIncrement (r : Roles) : Bool := r.primaryKey && r.autoIncrement

/-- The field is a key and not stored. -/
def isConflicting (r : Roles) : Bool := r.nonSavable && (r.primaryKey || r.lookupKey)

end Roles

end EntityTable.Entity
