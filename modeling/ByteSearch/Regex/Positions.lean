import ByteSearch.Text.Ranges
import ByteSearch.Text.Utf8

/-!
# Sets of positions

The positions of a haystack are the numbers from zero to its length: the places between its bytes. A
set of positions is a natural number whose binary digits say which positions belong to it, so that
whole sets are joined, cut and moved by one operation on numbers.

An `Index` holds, for each byte, the offsets at which it stands. All other sets of positions that an
expression asks for are computed from it.
-/

namespace ByteSearch.Regex

open ByteSearch.Text (Ranges)

/-- A set of positions, as a number: position `i` belongs to it if binary digit `i` is one. -/
abbrev Positions := Nat

namespace Positions

/-- The set with one position. -/
def single (i : Nat) : Positions :=
  1 <<< i

/-- The positions from zero to `n`. -/
def upTo (n : Nat) : Positions :=
  single (n + 1) - 1

/-- The positions of `s` that are not in `t`. -/
def diff (s t : Positions) : Positions :=
  s ^^^ (s &&& t)

/-- The members up to `n`, in ascending order. -/
def toList (n : Nat) (s : Positions) : List Nat :=
  (List.range (n + 1)).filter s.testBit

@[simp] theorem mem_toList {n i : Nat} {s : Positions} :
    i ∈ toList n s ↔ i ≤ n ∧ s.testBit i = true := by
  rw [toList, List.mem_filter, List.mem_range, Nat.lt_add_one_iff]

theorem testBit_upTo (n i : Nat) : (upTo n).testBit i = decide (i ≤ n) := by
  rw [upTo, single, Nat.one_shiftLeft, Nat.testBit_two_pow_sub_one]
  exact decide_eq_decide.2 Nat.lt_add_one_iff

theorem testBit_diff (s t : Positions) (i : Nat) :
    (diff s t).testBit i = (s.testBit i && !t.testBit i) := by
  simp only [diff, Nat.testBit_xor, Nat.testBit_and]
  cases s.testBit i <;> cases t.testBit i <;> rfl

end Positions

/-- The offsets of every byte in a haystack. -/
structure Index where
  size : Nat
  offsets : Array Positions

namespace Index

/-- Adds a byte and its offset. -/
def insert (offsets : Array Positions) (b : UInt8) (i : Nat) : Array Positions :=
  offsets.modify b.toNat (· ||| Positions.single i)

/-- The index of a haystack. -/
def ofBuffer (h : Buffer) : Index :=
  ⟨h.size, (h.foldl (fun (offsets, i) b => (insert offsets b i, i + 1))
    (Array.replicate 256 0, 0)).1⟩

/-- The offsets of a byte. -/
def offsetsOf (ix : Index) (b : UInt8) : Positions :=
  ix.offsets[b.toNat]?.getD 0

/-- The offsets of the bytes of a set. -/
def offsetsIn (ix : Index) (s : Ranges) : Positions :=
  (List.range 256).foldl
    (fun found n => if s.contains n then found ||| ix.offsets[n]?.getD 0 else found) 0

/-- All positions. -/
def positions (ix : Index) : Positions :=
  Positions.upTo ix.size

end Index

/-- The character whose encoding begins at an offset, if there is one. -/
def charAt? (h : Buffer) (i : Nat) : Option Char :=
  match Utf8.pieces (h.extract i (i + 4)).toList with
  | .char c :: _ => some c
  | _ => none

/-- The offsets at which a character of a set begins whose encoding has `width` bytes. -/
def charOffsets (h : Buffer) (s : Ranges) (width : Nat) : Positions :=
  (List.range h.size).foldl (fun found i =>
    match charAt? h i with
    | some c =>
      if (Bytes.ofChar c).length == width && s.contains c.toNat then found ||| Positions.single i
      else found
    | none => found) 0

end ByteSearch.Regex
