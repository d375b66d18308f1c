/-!
# Sets of numbers as closed ranges

A set of code points or of byte values is a list of closed ranges. `normalize` sorts the ranges and
joins those that overlap or touch, so that a set has few ranges and they ascend; the other
operations keep that form.
-/

namespace ByteSearch.Text

/-- A closed range of numbers. -/
structure Range where
  low : Nat
  high : Nat
  deriving DecidableEq, Repr, Hashable

/-- A set of numbers, as a list of closed ranges. -/
abbrev Ranges := List Range

namespace Range

/-- The numbers of a range. -/
def contains (r : Range) (n : Nat) : Bool :=
  r.low ≤ n && n ≤ r.high

/-- How many numbers a range holds. -/
def size (r : Range) : Nat :=
  r.high + 1 - r.low

end Range

namespace Ranges

/-- The numbers of a set. -/
def contains (s : Ranges) (n : Nat) : Bool :=
  s.any (·.contains n)

/-- The set with one member. -/
def single (n : Nat) : Ranges :=
  [⟨n, n⟩]

/-- Puts a range in front of ascending ranges, joined with those that it overlaps or touches. The
range must not begin after the first of them. -/
def join (r : Range) : Ranges → Ranges
  | [] => [r]
  | s :: rest =>
    if s.low ≤ r.high + 1 then join ⟨r.low, max r.high s.high⟩ rest else r :: s :: rest

/-- Sorts the ranges, drops the empty ones and joins those that overlap or touch. -/
def normalize (s : Ranges) : Ranges :=
  ((s.filter fun r => r.low ≤ r.high).mergeSort fun a b => a.low ≤ b.low).foldr join []

/-- The numbers of either set. -/
def union (s t : Ranges) : Ranges :=
  normalize (s ++ t)

/-- The numbers of both sets. -/
def inter (s t : Ranges) : Ranges :=
  normalize (s.flatMap fun a => t.map fun b => ⟨max a.low b.low, min a.high b.high⟩)

/-- The numbers from `start` to `top` that lie in none of the ascending ranges. -/
def gaps (top start : Nat) : Ranges → Ranges
  | [] => [⟨start, top⟩]
  | r :: rest =>
    if r.low ≤ start then gaps top (max start (r.high + 1)) rest
    else ⟨start, min top (r.low - 1)⟩ :: gaps top (max start (r.high + 1)) rest

/-- The numbers up to `top` that are not in the set. -/
def complement (top : Nat) (s : Ranges) : Ranges :=
  normalize (gaps top 0 (normalize s))

/-- The numbers of `s` that are not in `t`. -/
def diff (top : Nat) (s t : Ranges) : Ranges :=
  inter s (complement top t)

/-- The numbers of exactly one of the sets. -/
def symmDiff (top : Nat) (s t : Ranges) : Ranges :=
  union (diff top s t) (diff top t s)

end Ranges

end ByteSearch.Text
