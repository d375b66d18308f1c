import ByteSearch.Search.Occurrence
import ByteSearch.Search.Strategy

/-!
# Strategies that look at every offset

* `firstByte` records every position of the pattern's first byte and ignores the rest. It counts too
  much whenever that byte stands outside an occurrence, so it is not exact.
* `bruteForce` compares the whole pattern at every start offset at which it fits.
* `nothing` finds nothing and succeeds. It takes a place in a list of strategies.
-/

namespace ByteSearch.Search

/-- The positions of a byte. -/
def positionsOf (b : UInt8) (h : Buffer) : List Nat :=
  (List.range h.size).filter fun i => h[i]? == some b

/-- The offsets at which a byte string occurs. -/
def occurrences (h : Buffer) (w : Bytes) : List Nat :=
  (List.range (candidateStarts h.size w.length)).filter (agreesAt h w)

/-- The strategy that records every position of the first byte. -/
def firstByte : Strategy where
  exact := false
  run h p := .recording (positionsOf p.first h)

/-- The strategy that compares the pattern at every start offset. -/
def bruteForce : Strategy where
  exact := true
  run h p := .recording (occurrences h p.bytes)

/-- The strategy that finds nothing. -/
def nothing : Strategy where
  exact := false
  run _ _ := ⟨[], none, []⟩

end ByteSearch.Search
