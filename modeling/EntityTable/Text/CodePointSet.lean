/-! # Sets of code points

A property of characters that a standard tabulates is kept as its inversion list: the increasing
list of the code points at which membership changes, the first of them being the first member. A
code point is a member iff the number of changes up to it is odd. -/

namespace EntityTable.Text

/-- A set of code points, given by the increasing list of the points where membership changes. -/
structure CodePointSet where
  /-- The first member, the first non-member after it, the next member, and so on. -/
  changes : List Nat

namespace CodePointSet

/-- An odd number of changes lies at or below a member. -/
def contains (s : CodePointSet) (c : Char) : Bool :=
  s.changes.countP (fun n => decide (n ≤ c.toNat)) % 2 == 1

end CodePointSet

end EntityTable.Text
