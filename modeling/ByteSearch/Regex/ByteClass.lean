import ByteSearch.Regex.Expr

/-!
# Classes of bytes

Bytes that an automaton cannot tell apart form a class: its transitions are kept per class and not
per byte. The classes are intervals. A range of bytes that occurs in the automaton begins and ends
a class, and so do the bytes that assertions ask about.
-/

namespace ByteSearch.Regex

open ByteSearch.Text (Range Ranges)

/-- The bytes that an assertion asks about. -/
def Look.ranges : Look → Ranges
  | textStart | textEnd => []
  | lineStart | lineEnd => [⟨0x0A, 0x0A⟩]
  | crlfStart | crlfEnd => [⟨0x0A, 0x0A⟩, ⟨0x0D, 0x0D⟩]
  | wordBoundary | notWordBoundary | wordStart | wordEnd | wordStartHalf | wordEndHalf
  | unicodeWord => wordRanges

/-- A division of the bytes into classes: the number of the class of each byte. -/
structure ByteClasses where
  numbers : Array Nat

namespace ByteClasses

/-- The division in which every range begins and ends a class. -/
def ofRanges (s : Ranges) : ByteClasses :=
  let isLast := s.foldl (fun isLast r =>
    (if r.low = 0 then isLast else isLast.setIfInBounds (r.low - 1) true).setIfInBounds r.high true)
    (Array.replicate 256 false)
  ⟨(isLast.foldl (fun (numbers, n) last => (numbers.push n, if last then n + 1 else n))
    ((#[] : Array Nat), 0)).1⟩

/-- The class of a byte. -/
def classOf (c : ByteClasses) (b : UInt8) : Nat :=
  c.numbers[b.toNat]?.getD 0

/-- The number of classes. -/
def count (c : ByteClasses) : Nat :=
  c.classOf 0xFF + 1

/-- The length of a row of transitions: a power of two with a place for each class and one for the
end of the haystack. -/
def stride (c : ByteClasses) : Nat :=
  (c.count + 1).nextPowerOfTwo

end ByteClasses

end ByteSearch.Regex
