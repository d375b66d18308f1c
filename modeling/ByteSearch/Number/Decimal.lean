import ByteSearch.Number.Binary64

/-!
# Decimal notation of binary numbers

* `Binary64.shortest` is the decimal number with the fewest digits that reads back as the binary
  one, and of those the nearest.
* `Decimal.text` writes a decimal number as the layout of numbers in JSON asks for: positionally,
  with at least one place behind the point, unless it is very large or very small.
* `fixed` writes a number with a fixed number of places; a half goes to the even neighbour.
-/

namespace ByteSearch.Number

/-- One with a number of zeros behind it. -/
def powerOfTen (zeros : Nat) : Nat :=
  Nat.pow 10 zeros

/-- The number `digits * 10 ^ exponent`. -/
structure Decimal where
  digits : Nat
  exponent : Int
  deriving DecidableEq, Repr

namespace Decimal

/-- The value of a number. -/
def value (d : Decimal) : Rat :=
  (d.digits : Rat) * 10 ^ d.exponent

/-- The decimal digits of a number. -/
def digitsOf (n : Nat) : List Char :=
  Nat.toDigits 10 n

theorem digitsOf_ne_nil (n : Nat) : digitsOf n ≠ [] :=
  Nat.toDigits_ne_nil

theorem isDigit_of_mem_digitsOf {n : Nat} {c : Char} (hc : c ∈ digitsOf n) : c.isDigit = true :=
  Nat.isDigit_of_mem_toDigits (by decide) (by decide) hc

@[simp] theorem ofDigitChars_digitsOf (n : Nat) : Nat.ofDigitChars 10 (digitsOf n) 0 = n :=
  Nat.ofDigitChars_ten_toDigits

/-- The number of zeros at the end of a number, at most the fuel. -/
def trailingZeros : Nat → Nat → Nat
  | 0, _ => 0
  | fuel + 1, n => if n % 10 = 0 then trailingZeros fuel (n / 10) + 1 else 0

/-- The same number without zeros at the end of its digits. -/
def trimmed (d : Decimal) : Decimal :=
  if d.digits = 0 then ⟨0, 0⟩
  else
    let zeros := trailingZeros (digitsOf d.digits).length d.digits
    ⟨d.digits / powerOfTen zeros, d.exponent + zeros⟩

/-- The digits with the point after the first `point` of them; the point may lie outside. There is a
digit on both sides of it. -/
def positional (digits : List Char) (point : Int) : List Char :=
  if point ≤ 0 then '0' :: '.' :: (List.replicate point.natAbs '0' ++ digits)
  else
    let whole := digits.take point.toNat
    let places := digits.drop point.toNat
    whole ++ List.replicate (point.toNat - digits.length) '0' ++
      '.' :: (if places.isEmpty then ['0'] else places)

/-- The digits with the point after the first of them and an exponent. -/
def scientific (digits : List Char) (exponent : Int) : List Char :=
  let places := digits.drop 1
  digits.take 1 ++ (if places.isEmpty then [] else '.' :: places) ++
    ['e', if exponent < 0 then '-' else '+'] ++ digitsOf exponent.natAbs

/-- The least and the greatest exponent of the first digit with which a number is written
positionally. -/
def positionalExponents : Int × Int :=
  (-5, 15)

/-- The text of a number. -/
def text (d : Decimal) : List Char :=
  let d := d.trimmed
  let digits := digitsOf d.digits
  let first := d.exponent + digits.length - 1
  if d.digits = 0 then positional digits 1
  else if positionalExponents.1 ≤ first ∧ first ≤ positionalExponents.2 then
    positional digits (first + 1)
  else scientific digits first

end Decimal

namespace Binary64

/-- The exponent of the greatest power of ten that is not above a positive number. -/
def log10 (x : Rat) : Int :=
  let e : Int := ((Decimal.digitsOf x.num.natAbs).length : Int) - (Decimal.digitsOf x.den).length
  if x < 10 ^ e then e - 1 else e

/-- The decimal number with `count` digits that is nearest to `b` among those that read back as `b`,
if there is one. Only the two neighbours of `b` come into question. -/
def readBack? (b : Binary64) (count : Nat) : Option Decimal :=
  let exponent := log10 b.value - (count - 1)
  let scaled := b.value / 10 ^ exponent
  let nearest := (roundEven scaled).toNat
  let other := if (nearest : Rat) ≤ scaled then nearest + 1 else nearest - 1
  [nearest, other].map (Decimal.mk · exponent) |>.find? (b.covers ·.value)

/-- The decimal number with the fewest digits that reads back as `b`. Seventeen digits always do. -/
def shortest (b : Binary64) : Decimal :=
  if b.mantissa = 0 then ⟨0, 0⟩
  else ((List.range 17).findSome? fun n => b.readBack? (n + 1)).getD ⟨0, 0⟩

end Binary64

/-- A number with a fixed number of places. -/
def fixed (places : Nat) (x : Rat) : List Char :=
  let scaled := (roundEven (x * powerOfTen places)).toNat
  let fraction := Decimal.digitsOf (scaled % powerOfTen places)
  Decimal.digitsOf (scaled / powerOfTen places) ++
    '.' :: (List.replicate (places - fraction.length) '0' ++ fraction)

end ByteSearch.Number
