import ByteSearch.Search.BruteForce

/-!
# Looking for one byte

To look for one byte is the business of a `ByteFinder`: it names positions, one after the other. The
strategy `firstByteBy` records what a finder names for the first byte of the pattern and never looks
at the haystack itself. A finder is lawful if it names all positions of the byte, from the front to
the back. `positionsOf` is one, and the strategy with it is `firstByte`.
-/

namespace ByteSearch.Search

/-- The positions that are named for a byte, in the order in which they are named. -/
abbrev ByteFinder := UInt8 → Buffer → List Nat

/-- All positions of the byte are named, each of them once, in ascending order. -/
structure ByteFinder.Lawful (find : ByteFinder) : Prop where
  ascending (b : UInt8) (h : Buffer) : (find b h).Pairwise (· < ·)
  mem_iff (b : UInt8) (h : Buffer) (i : Nat) : i ∈ find b h ↔ h[i]? = some b

theorem lawful_positionsOf : ByteFinder.Lawful positionsOf where
  ascending _ _ := List.pairwise_lt_range.filter _
  mem_iff b h i := by
    rw [positionsOf, List.mem_filter, List.mem_range, beq_iff_eq]
    refine and_iff_right_of_imp fun hb => ?_
    obtain ⟨hi, -⟩ := Array.getElem?_eq_some_iff.1 hb
    exact hi

/-- The strategy that records what a finder names for the first byte. -/
def firstByteBy (find : ByteFinder) : Strategy where
  exact := false
  run h p := .recording (find p.first h)

theorem firstByteBy_positionsOf : firstByteBy positionsOf = firstByte := rfl

end ByteSearch.Search
