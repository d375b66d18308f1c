import ByteSearch.Number.WordArithmetic
import ByteSearch.Search.BruteForce
import ByteSearch.Search.Lanes

/-!
# Scans that compute in words

Brute force and the count in lanes can also be written with every offset, length and counter in a
word, for any arithmetic of words. The haystack and the counters are read only through functions
that fault where there is nothing to read (`byteAt`, `slice`, `slotsBelow`, `slotAt`), and every
result that might be no word is left to the arithmetic.
-/

namespace ByteSearch.Search.Words

open ByteSearch.Number

/-- No byte string in memory is as long as this. -/
def lengthLimit : Nat := 0x8000000000000000

/-- The counters, one for each possible lane. -/
abbrev Counters := Vector UInt64 maxLanes

/-- The difference of two lengths, unless it is negative. -/
def difference? (size width : UInt64) : Option UInt64 :=
  if width ≤ size then some (size - width) else none

/-- The number of offsets at which a string of length `width` fits into a buffer of `size` bytes. -/
def candidateStarts (ar : Arithmetic) (size width : UInt64) : Faulting UInt64 :=
  match difference? size width with
  | none => .ok 0
  | some last => ar.add last 1

/-! ## Brute force -/

/-- The byte at an offset. -/
def byteAt (h : Buffer) (i : UInt64) : Faulting UInt8 :=
  match h[i.toNat]? with
  | none => .error .outOfBounds
  | some b => .ok b

/-- Compares the pattern with the haystack at a start offset, from place `j` of the pattern on, up
to the first difference. The match is recorded at the last byte. -/
def compareFrom (ar : Arithmetic) (h : Buffer) (last start : UInt64) :
    UInt64 → Bytes → List Step → Faulting (List Step)
  | _, [], steps => .ok steps
  | j, b :: bytes, steps => do
    let next ← ar.add j 1
    let found ← byteAt h (← ar.add start j)
    if b ≠ found then .ok steps
    else
      compareFrom ar h last start next bytes
        (if j = last then steps ++ [.record ⟨start.toNat, Pattern.identifier⟩] else steps)

/-- Compares the pattern at a start offset. -/
def compareAt (ar : Arithmetic) (h : Buffer) (p : Pattern) (last : UInt64) (steps : List Step)
    (start : UInt64) : Faulting (List Step) :=
  compareFrom ar h last start 0 p.bytes steps

/-- The steps of brute force. -/
def bruteForce (ar : Arithmetic) (h : Buffer) (p : Pattern) : Faulting (List Step) := do
  let width := UInt64.ofNat p.length
  let last ← ar.sub width 1
  let starts ← candidateStarts ar (.ofNat h.size) width
  (below starts).foldlM (compareAt ar h p last) []

/-! ## Lanes -/

/-- The number of lanes for a pattern of length `width`. -/
def lanesFor (width : UInt64) : UInt64 :=
  if width ≤ UInt64.ofNat maxLanes then width else UInt64.ofNat maxLanes

/-- The bytes from `start` on, up to `stop`. -/
def slice (h : Buffer) (start stop : UInt64) : Faulting Buffer :=
  if start.toNat ≤ stop.toNat ∧ stop.toNat ≤ h.size then .ok (h.extract start.toNat stop.toNat)
  else .error .outOfBounds

/-- One if the slice of `h` from `start` on, as long as `w`, is `w`, and zero otherwise. -/
def hitAt (ar : Arithmetic) (h : Buffer) (w : Array UInt8) (start : UInt64) : Faulting UInt64 := do
  let found ← slice h start (← ar.add start (.ofNat w.size))
  return if found == w then 1 else 0

/-- The places of the first counters. -/
def slotsBelow (lanes : UInt64) : Faulting (List (Fin maxLanes)) :=
  if h : lanes.toNat ≤ maxLanes then .ok (List.ofFn fun i : Fin lanes.toNat => i.castLE h)
  else .error .outOfBounds

/-- The place of the counter of a lane. -/
def slotAt (lane : UInt64) : Faulting (Fin maxLanes) :=
  if h : lane.toNat < maxLanes then .ok ⟨lane.toNat, h⟩ else .error .outOfBounds

/-- Adds to one counter. -/
def bump (ar : Arithmetic) (acc : Counters) (slot : Fin maxLanes) (hits : UInt64) :
    Faulting Counters := do
  let sum ← ar.add (acc.get slot) hits
  return acc.set slot sum

/-- Adds the hit at an offset of a full block to the counter at a place. -/
def blockRound (ar : Arithmetic) (h : Buffer) (w : Array UInt8) (base : UInt64) (acc : Counters)
    (lane : UInt64) (slot : Fin maxLanes) : Faulting Counters := do
  let hits ← hitAt ar h w (← ar.add base lane)
  bump ar acc slot hits

/-- Adds what a full block holds. Its counters are gone through one after the other, and their
number is that of the lane. -/
def addBlock (ar : Arithmetic) (h : Buffer) (w : Array UInt8) (lanes : UInt64) (acc : Counters)
    (block : UInt64) : Faulting Counters := do
  let base ← ar.mul block lanes
  let slots ← slotsBelow lanes
  countingRounds ar (blockRound ar h w base) slots acc

/-- Adds the hit at an offset behind the full blocks to the counter of a lane. -/
def restRound (ar : Arithmetic) (h : Buffer) (w : Array UInt8) (acc : Counters)
    (lane start : UInt64) : Faulting Counters := do
  let hits ← hitAt ar h w start
  bump ar acc (← slotAt lane) hits

/-- Adds what is left behind the full blocks. The offsets are gone through one after the other, and
their number is that of the lane. -/
def addRest (ar : Arithmetic) (h : Buffer) (w : Array UInt8) (base starts : UInt64)
    (acc : Counters) : Faulting Counters :=
  countingRounds ar (restRound ar h w) (between base starts) acc

/-- The counters after the first `starts` offsets: the full blocks, then what is left. -/
def counters (ar : Arithmetic) (h : Buffer) (w : Array UInt8) (lanes starts : UInt64) :
    Faulting Counters := do
  let blocks ← Arithmetic.div starts lanes
  let acc ← (below blocks).foldlM (addBlock ar h w lanes) (Vector.replicate maxLanes 0)
  addRest ar h w (← ar.mul blocks lanes) starts acc

/-- The counters together. -/
def total (ar : Arithmetic) (acc : Counters) : Faulting UInt64 :=
  acc.toList.foldlM ar.add 0

/-- The steps of the count in lanes. -/
def inLanes (ar : Arithmetic) (h : Buffer) (p : Pattern) : Faulting (List Step) := do
  let width := UInt64.ofNat p.length
  let starts ← candidateStarts ar (.ofNat h.size) width
  let acc ← counters ar h p.bytes.toArray (lanesFor width) starts
  let total ← total ar acc
  return [.absorb total.toNat]

end ByteSearch.Search.Words
