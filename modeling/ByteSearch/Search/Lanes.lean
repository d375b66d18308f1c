import ByteSearch.Search.Occurrence
import ByteSearch.Search.Strategy

/-!
# Brute force with one counter for each lane

Start offsets are taken in blocks of `laneCount` consecutive ones, and each position in a block adds
to a counter of its own, so that no step waits for the one before it. The offsets after the last
full block form a shorter one. The counters are added up at the end, and the sink hears of the total
only.

A pattern has as many lanes as bytes, but at most `maxLanes`.
-/

namespace ByteSearch.Search

/-- The number of counters. -/
def maxLanes : Nat := 16

/-- The number of lanes for a pattern. -/
def laneCount (p : Pattern) : Nat :=
  min p.length maxLanes

theorem laneCount_pos (p : Pattern) : 0 < laneCount p :=
  Nat.lt_min.2 ⟨p.length_pos, by decide⟩

theorem laneCount_le (p : Pattern) : laneCount p ≤ maxLanes :=
  Nat.min_le_right ..

namespace Lanes

/-- The counters, one for each possible lane. -/
abbrev Counters := Vector Nat maxLanes

/-- One if the slice of `h` from `start` on, as long as `w`, is `w`, and zero otherwise. -/
def hitAt (h : Buffer) (w : Array UInt8) (start : Nat) : Nat :=
  if h.extract start (start + w.size) == w then 1 else 0

/-- Adds to one counter. -/
def bump (acc : Counters) (lane hits : Nat) : Counters :=
  if h : lane < maxLanes then acc.set lane (acc[lane] + hits) h else acc

/-- Adds what the block of `width` offsets from `base` on holds, each offset in its own lane. -/
def addBlock (h : Buffer) (w : Array UInt8) (acc : Counters) (base width : Nat) : Counters :=
  (List.range width).foldl (fun acc lane => bump acc lane (hitAt h w (base + lane))) acc

/-- The counters after the first `blocks` full blocks of `lanes` offsets. -/
def afterBlocks (h : Buffer) (w : Array UInt8) (lanes blocks : Nat) : Counters :=
  (List.range blocks).foldl (fun acc block => addBlock h w acc (block * lanes) lanes)
    (Vector.replicate maxLanes 0)

/-- The counters after the first `starts` offsets: the full blocks, then what is left. -/
def counters (h : Buffer) (w : Array UInt8) (lanes starts : Nat) : Counters :=
  let blocks := starts / lanes
  addBlock h w (afterBlocks h w lanes blocks) (blocks * lanes) (starts - blocks * lanes)

end Lanes

/-- The log target of the strategy. -/
def lanesTarget : String := "scancore::strategy::vectorized"

/-- The strategy that counts in lanes. -/
def inLanes : Strategy where
  exact := true
  run h p :=
    let starts := candidateStarts h.size p.length
    let lanes := laneCount p
    let total := (Lanes.counters h p.bytes.toArray lanes starts).foldl (· + ·) 0
    ⟨[.absorb total], none,
      [⟨.trace, lanesTarget, "vectorized scan folded accumulators",
        [("lanes", lanes), ("starts", starts), ("total", total)]⟩]⟩

end ByteSearch.Search
