import EntityTable.Column.Plan

/-! # Plans of a table

The plans of the columns of one table, at most one for each column, in the order in which the columns
came in. Replacing a plan keeps its place. -/

namespace EntityTable.Column

open Entity (Schema StoredField)

/-- The plans of a table. -/
structure Plans where
  toList : List Plan

namespace Plans

/-- No plans. -/
def empty : Plans := ⟨[]⟩

/-- The names of the planned columns, in order. -/
def columns (ps : Plans) : List String := ps.toList.map Plan.column

/-- The plan of a column. -/
def get? (ps : Plans) (column : String) : Option Plan :=
  ps.toList.find? fun p => p.column == column

/-- A list of plans with one replaced, or added at the end. -/
def insertInto (plan : Plan) : List Plan → List Plan
  | [] => [plan]
  | p :: rest => if p.column = plan.column then plan :: rest else p :: insertInto plan rest

/-- Adds a plan in the place of the one for the same column, or at the end. -/
def insert (ps : Plans) (plan : Plan) : Plans := ⟨insertInto plan ps.toList⟩

/-- Removes the plan of a column. -/
def erase (ps : Plans) (column : String) : Plans :=
  ⟨ps.toList.eraseP fun p => p.column == column⟩

/-- The plan of a column, taken out of the plans, and those that are left. -/
def take (ps : Plans) (column : String) : Option Plan × Plans :=
  match ps.toList.findIdx? fun p => p.column == column with
  | some i => (ps.toList[i]?, ⟨ps.toList.eraseIdx i⟩)
  | none => (none, ps)

/-- The number of plans. -/
def size (ps : Plans) : Nat := ps.toList.length

/-- There are no plans. -/
def isEmpty (ps : Plans) : Bool := ps.toList.isEmpty

/-- The plans of the stored fields of a schema, in order; the first field that cannot be mapped
decides the error. -/
def resolve (s : Schema) : Except MappingError Plans :=
  s.storable.foldlM (fun ps field => return ps.insert (← Plan.ofField field)) empty

end Plans

end EntityTable.Column
