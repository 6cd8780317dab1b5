import EntityTable.Column.Plan
import EntityTable.Proofs.Outcome

/-! # Plans and modifiers

A plan says of its column what the field says of itself (`Plan.IsOf`). A column has a modifier
exactly if its field asks for it (`Plan.IsOf.has_eq`), so what is decided by a modifier and what is
decided by the field come out alike; and since the modifiers of a column are taken from one list of
all of them, they are in the order of their ranks (`pairwise_modifiersOf`). -/

namespace EntityTable.Column

open Entity (StoredField)

namespace Modifier

/-- All modifiers, in the order in which a column lists them. -/
def all : List Modifier := [.autoIncrement, .indexed, .nullable]

/-- The field asks for the modifier. -/
def isAskedBy (f : StoredField) : Modifier → Bool
  | autoIncrement => f.isAutoIncrement
  | indexed => f.isLookupKey
  | nullable => f.isNullable

theorem mem_all (m : Modifier) : m ∈ all := by cases m <;> decide

theorem pairwise_all : all.Pairwise fun a b => a.rank < b.rank := by decide

end Modifier

namespace Plan

theorem modifiersOf_eq (f : StoredField) :
    modifiersOf f = Modifier.all.filter (Modifier.isAskedBy f) := by
  -- Each condition of the definition is the filter of a list of one.
  have hsingle (m : Modifier) :
      (if m.isAskedBy f then [m] else []) = [m].filter (Modifier.isAskedBy f) := by
    rw [List.filter_cons, List.filter_nil]
  have hfilter : modifiersOf f = [Modifier.autoIncrement].filter (Modifier.isAskedBy f) ++
      [Modifier.indexed].filter (Modifier.isAskedBy f) ++
      [Modifier.nullable].filter (Modifier.isAskedBy f) := by
    rw [← hsingle, ← hsingle, ← hsingle]
    rfl
  rw [hfilter, ← List.filter_append, ← List.filter_append]
  rfl

theorem mem_modifiersOf {f : StoredField} {m : Modifier} :
    m ∈ modifiersOf f ↔ m.isAskedBy f = true := by
  rw [modifiersOf_eq, List.mem_filter, and_iff_right m.mem_all]

/-- **The modifiers of a column are in order**, and none is there twice. -/
theorem pairwise_modifiersOf (f : StoredField) :
    (modifiersOf f).Pairwise fun a b => a.rank < b.rank := by
  rw [modifiersOf_eq]
  exact Modifier.pairwise_all.filter _

/-- The plan is for the column of the field. -/
structure IsOf (p : Plan) (f : StoredField) : Prop where
  column : p.column = f.name
  conversion : conversionOf f = .ok (p.branch, p.conversion)
  modifiers : p.modifiers = modifiersOf f
  /-- The database numbers a key only if it is stored as an integer. -/
  numbered : f.isAutoIncrement = true → p.storage.isInteger = true

variable {p : Plan} {f : StoredField}

/-- A field whose conversion is known is planned unless the database cannot number its column. -/
theorem ofField_of_conversionOf {branch : Branch} {c : Conversion}
    (h : conversionOf f = .ok (branch, c)) : ofField f =
      if f.isAutoIncrement && !c.storage.isInteger then
        .error (.autoIncrementStorage f.name c.storage)
      else .ok ⟨f.name, c, modifiersOf f, branch⟩ := by
  rw [ofField, h]
  rfl

theorem isOf_of_ofField (h : ofField f = .ok p) : p.IsOf f := by
  obtain ⟨⟨branch, conversion⟩, hconversion, h⟩ := bind_eq_ok.mp h
  cases hkey : f.isAutoIncrement && !conversion.storage.isInteger with
  | true =>
    simp only [hkey, if_true] at h
    cases h
  | false =>
    simp only [hkey, Bool.false_eq_true, if_false] at h
    cases h
    refine ⟨rfl, hconversion, rfl, fun hauto => ?_⟩
    rw [hauto, Bool.true_and, Bool.not_eq_false'] at hkey
    exact hkey

/-- **A column has a modifier exactly if its field asks for it.** -/
theorem IsOf.has_eq (h : p.IsOf f) (m : Modifier) : p.has m = m.isAskedBy f := by
  rw [has, h.modifiers, Bool.eq_iff_iff, List.contains_iff_mem, mem_modifiersOf]

theorem IsOf.isNullable_eq (h : p.IsOf f) : p.isNullable = f.isNullable := h.has_eq .nullable

end Plan

end EntityTable.Column
