/-! # Binary floating point

A format is fixed by the number of bits of its fraction and of its exponent. Apart from the sign, a
number is its bit *pattern*, a natural number. Patterns are in the order of the numbers they denote,
and each finite number is a whole multiple of the *unit*, the least positive number of the format.
So the arithmetic below is that of natural numbers: `units` says how many units a pattern denotes,
and `nearest` gives the pattern closest to a quotient of units, a tie going to the even pattern. -/

namespace EntityTable.Codec

/-- The widths of the two fields of a floating-point number. -/
structure FloatFormat where
  fractionBits : Nat
  exponentBits : Nat
  deriving DecidableEq, Repr

/-- The quotient rounded to the nearest natural number, a half going to the even one. -/
def roundQuotient (a b : Nat) : Nat :=
  let below := a / b
  let twice := 2 * (a % b)
  if twice < b ∨ (twice = b ∧ below % 2 = 0) then below else below + 1

namespace FloatFormat

/-- The format of 32 bits. -/
def single : FloatFormat := ⟨23, 8⟩

/-- The format of 64 bits. -/
def double : FloatFormat := ⟨52, 11⟩

/-- The unit is one divided by this power of two. -/
def scale (f : FloatFormat) : Nat := Nat.pow 2 (f.exponentBits - 1) - 2 + f.fractionBits

/-- The pattern of infinity; the patterns above it denote no number. -/
def infinity (f : FloatFormat) : Nat := (Nat.pow 2 f.exponentBits - 1) * Nat.pow 2 f.fractionBits

/-- The bit that stands for the sign. -/
def signBit (f : FloatFormat) : Nat := Nat.pow 2 (f.exponentBits + f.fractionBits)

/-- What a pattern denotes, in units, as if the exponent had no greatest value. -/
def units (f : FloatFormat) (pattern : Nat) : Nat :=
  let fraction := pattern % Nat.pow 2 f.fractionBits
  match pattern / Nat.pow 2 f.fractionBits with
  | 0 => fraction
  | exponent + 1 => (Nat.pow 2 f.fractionBits + fraction) * Nat.pow 2 exponent

/-- The pattern closest to `a / b` units, as if the exponent had no greatest value. -/
def nearest (f : FloatFormat) (a b : Nat) : Nat :=
  let shift := Nat.log2 (a / b) - f.fractionBits
  shift * Nat.pow 2 f.fractionBits + roundQuotient a (b * Nat.pow 2 shift)

/-- The pattern closest to a natural number. -/
def ofNat (f : FloatFormat) (n : Nat) : Nat := f.nearest (n * Nat.pow 2 f.scale) 1

/-- The product of two patterns. -/
def mul (f : FloatFormat) (x y : Nat) : Nat :=
  f.nearest (f.units x * f.units y) (Nat.pow 2 f.scale)

/-- The quotient of two patterns. -/
def div (f : FloatFormat) (x y : Nat) : Nat :=
  f.nearest (f.units x * Nat.pow 2 f.scale) (f.units y)

end FloatFormat

end EntityTable.Codec
