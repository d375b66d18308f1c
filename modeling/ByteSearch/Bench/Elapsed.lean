import ByteSearch.Number.Decimal

/-!
# Elapsed time

A measured time is a number of nanoseconds. Reports give it in milliseconds: the nanoseconds are
rounded to binary floating point, divided by a million, and rounded again. Log entries give it with
the largest unit of which there is at least one.
-/

namespace ByteSearch.Bench

/-- A measured time. -/
structure Elapsed where
  nanoseconds : Nat
  deriving DecidableEq, Repr

namespace Elapsed

/-- The time in milliseconds. -/
def milliseconds (t : Elapsed) : Number.Binary64 :=
  .nearest ((Number.Binary64.nearest t.nanoseconds).value / 1000000)

/-- A number with some decimal places, as far as they are not zero at the end. -/
def withPlaces (n : Nat) (places : Nat) (unit : String) : String :=
  let whole := toString (n / Number.powerOfTen places)
  let rest := Number.Decimal.digitsOf (n % Number.powerOfTen places)
  let digits := List.replicate (places - rest.length) '0' ++ rest
  let shown := (digits.reverse.dropWhile (· = '0')).reverse
  whole ++ (if shown.isEmpty then "" else String.ofList ('.' :: shown)) ++ unit

/-- The time with its unit. -/
def text (t : Elapsed) : String :=
  let n := t.nanoseconds
  if n ≥ 1000000000 then withPlaces n 9 "s"
  else if n ≥ 1000000 then withPlaces n 6 "ms"
  else if n ≥ 1000 then withPlaces n 3 "µs"
  else toString n ++ "ns"

end Elapsed

end ByteSearch.Bench
