/-!
# Binary floating point

A `Binary64` is a number with a binary mantissa of 53 digits. `nearest` rounds a rational number to
the nearest of them; a number half-way between two goes to the one with the even mantissa.

The numbers here are not negative, and the exponent is not bounded: what is measured lies far inside
the bounds that the exponent has in storage.
-/

namespace ByteSearch.Number

/-- The integer nearest to a number; a half goes to the even neighbour. -/
def roundEven (x : Rat) : Int :=
  let floor := x.floor
  let rest := 2 * (x - floor)
  if 1 < rest ∨ (rest = 1 ∧ floor % 2 = 1) then floor + 1 else floor

/-- The number `mantissa * 2 ^ exponent`. -/
structure Binary64 where
  mantissa : Nat
  exponent : Int
  deriving DecidableEq, Repr

namespace Binary64

/-- The number of binary digits of a mantissa. -/
def precision : Nat := 53

/-- The least number that has more digits than a mantissa. -/
def mantissaBound : Nat := 1 <<< precision

/-- The value of a number. -/
def value (b : Binary64) : Rat :=
  (b.mantissa : Rat) * 2 ^ b.exponent

/-- The exponent of the greatest power of two that is not above a positive number. -/
def log2 (x : Rat) : Int :=
  let e : Int := x.num.natAbs.log2 - x.den.log2
  if x < 2 ^ e then e - 1 else e

/-- The number with the least exponent for a rounded mantissa. A mantissa that rounds up to one more
digit is halved. -/
def ofMantissa (m : Nat) (exponent : Int) : Binary64 :=
  if m = mantissaBound then ⟨m / 2, exponent + 1⟩ else ⟨m, exponent⟩

/-- The nearest number. -/
def nearest (x : Rat) : Binary64 :=
  if x ≤ 0 then ⟨0, 0⟩
  else
    let exponent := log2 x - (precision - 1)
    ofMantissa (roundEven (x / 2 ^ exponent)).toNat exponent

/-- The numbers that round to `b` lie between these bounds. Below a power of two the neighbours are
nearer to each other. -/
def bounds (b : Binary64) : Rat × Rat :=
  let unit : Rat := 2 ^ b.exponent
  let below := if 2 * b.mantissa = mantissaBound then unit / 4 else unit / 2
  (b.value - below, b.value + unit / 2)

/-- Whether a number rounds to `b`. The bounds themselves do if the mantissa is even. -/
def covers (b : Binary64) (x : Rat) : Bool :=
  let (low, high) := b.bounds
  if b.mantissa % 2 = 0 then low ≤ x ∧ x ≤ high else low < x ∧ x < high

end Binary64

end ByteSearch.Number
