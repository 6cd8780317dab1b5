import EntityTable.Codec.FloatFormat

/-! # Decimals

A decimal is a natural number times a power of ten. This module writes decimals, rounds them to a
floating-point format, and finds the shortest decimal that rounds to a given number: on ever finer
grids of powers of ten it tests the two grid points around the number, and of the first grid with a
point that rounds to the number it takes the nearer one. All comparisons are exact. -/

namespace EntityTable.Codec

/-- The number `digits * 10 ^ exponent`. -/
structure Decimal where
  digits : Nat
  exponent : Int
  deriving DecidableEq, Repr

/-- The value of a decimal digit. -/
def digitValue (c : Char) : Nat := c.toNat - 48

/-- The number that digits write. -/
def digitsValue (cs : List Char) : Nat := cs.foldl (fun n c => 10 * n + digitValue c) 0

/-- The digits of a number. -/
def digitsOf (n : Nat) : List Char := Nat.toDigits 10 n

/-! ### Writing -/

namespace Decimal

/-- A decimal without an exponent: a point appears if there is something behind it. -/
def positional (d : Decimal) : List Char :=
  let digits := digitsOf d.digits
  match d.exponent with
  | .ofNat zeros => digits ++ List.replicate zeros '0'
  | .negSucc n =>
    let places := n + 1
    if places < digits.length then
      digits.take (digits.length - places) ++ '.' :: digits.drop (digits.length - places)
    else '0' :: '.' :: List.replicate (places - digits.length) '0' ++ digits

/-- The power of ten of the first digit. -/
def leadingExponent (d : Decimal) : Int := (digitsOf d.digits).length - 1 + d.exponent

/-- A decimal with its first digit before the point, and an exponent with a sign. -/
def scientific (d : Decimal) : List Char :=
  let mantissa := match digitsOf d.digits with
    | first :: second :: rest => first :: '.' :: second :: rest
    | digits => digits
  let power := d.leadingExponent
  mantissa ++ 'e' :: (if power < 0 then '-' else '+') :: digitsOf power.natAbs

/-! ### Rounding -/

/-- The pattern closest to a decimal. Decimals far outside the range of the format are settled by
the place of their first digit. -/
def round (f : FloatFormat) (d : Decimal) : Nat :=
  if d.digits = 0 then 0
  else if d.leadingExponent ≥ Nat.pow 2 (f.exponentBits - 1) then f.infinity
  else if d.leadingExponent + 1 < -f.scale then 0
  else
    min f.infinity <| match d.exponent with
      | .ofNat n => f.nearest (d.digits * Nat.pow 10 n * Nat.pow 2 f.scale) 1
      | .negSucc n => f.nearest (d.digits * Nat.pow 2 f.scale) (Nat.pow 10 (n + 1))

end Decimal

/-! ### The shortest decimal -/

/-- Which of two points at the same distance is taken. -/
inductive TieRule where
  | upper
  | even
  deriving DecidableEq, Repr

/-- The numbers that round to a given one, with the number itself, all in halves of the finest
grid's step. -/
structure RoundingInterval where
  low : Nat
  value : Nat
  high : Nat
  /-- The two ends belong to the interval. -/
  closed : Bool
  deriving Repr

namespace RoundingInterval

/-- The interval of a pattern other than zero. Its ends lie half-way to the two neighbours and round
to the even one of the two patterns. -/
def ofPattern (f : FloatFormat) (pattern : Nat) : RoundingInterval where
  low := Nat.pow 5 f.scale * (f.units (pattern - 1) + f.units pattern)
  value := Nat.pow 5 f.scale * (2 * f.units pattern)
  high := Nat.pow 5 f.scale * (f.units pattern + f.units (pattern + 1))
  closed := pattern % 2 = 0

/-- A point of the interval. -/
def contains (i : RoundingInterval) (x : Nat) : Bool :=
  if i.closed then decide (i.low ≤ x ∧ x ≤ i.high) else decide (i.low < x ∧ x < i.high)

/-- The point of the grid of the given step, counted in steps, that lies in the interval and is
nearest to its value. -/
def gridPoint? (i : RoundingInterval) (tie : TieRule) (step : Nat) : Option Nat :=
  let below := i.value / step
  let twice := 2 * (i.value % step)
  match i.contains (below * step), i.contains ((below + 1) * step) with
  | true, true =>
    if twice < step then some below
    else if step < twice then some (below + 1)
    else match tie with
      | .upper => some (below + 1)
      | .even => some (below + below % 2)
  | true, false => some below
  | false, true => some (below + 1)
  | false, false => none

/-- The first grid, from the given one down, with a point in the interval, and that point. The
finest grid holds the value itself. -/
def coarsest (i : RoundingInterval) (tie : TieRule) : Nat → Nat × Nat
  | 0 => (i.value / 2, 0)
  | grid + 1 =>
    match i.gridPoint? tie (2 * Nat.pow 10 (grid + 1)) with
    | some point => (point, grid + 1)
    | none => i.coarsest tie grid

end RoundingInterval

/-- The decimal with the fewest digits that rounds to a pattern other than zero, and the nearest of
those. The finest grid is that of the unit's last decimal place, the coarsest lies above all numbers
of the format. -/
def shortestDecimal (f : FloatFormat) (tie : TieRule) (pattern : Nat) : Decimal :=
  let (point, grid) := (RoundingInterval.ofPattern f pattern).coarsest tie
    (f.scale + Nat.pow 2 (f.exponentBits - 1) / 3 + 1)
  ⟨point, grid - f.scale⟩

end EntityTable.Codec
