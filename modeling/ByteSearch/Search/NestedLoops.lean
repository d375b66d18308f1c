import ByteSearch.Search.Occurrence
import ByteSearch.Search.Strategy

/-!
# Brute force in two loops

Brute force can also be written as a loop within a loop. The outer loop goes over the start offsets
at which the pattern fits, and the inner one over the bytes of the pattern. The inner loop is left
at the first difference and gives no answer of its own: a match is recorded within it, when the last
byte of the pattern has been compared.

The loops read the haystack by its offsets. They come to nothing if one of these is not in the
haystack.
-/

namespace ByteSearch.Search.NestedLoops

/-- The inner loop at a start offset, from place `j` of the pattern on: `bytes` are left to be
compared. `last` is the place of the last byte. -/
def compareFrom (h : Buffer) (last start : Nat) : Nat → Bytes → List Step → Option (List Step)
  | _, [], steps => some steps
  | j, b :: bytes, steps =>
    match h[start + j]? with
    | none => none
    | some found =>
      if b ≠ found then some steps
      else
        compareFrom h last start (j + 1) bytes
          (if j = last then steps ++ [.record ⟨start, Pattern.identifier⟩] else steps)

/-- The steps of both loops. -/
def steps (h : Buffer) (p : Pattern) : Option (List Step) :=
  (List.range (candidateStarts h.size p.length)).foldlM
    (fun steps start => compareFrom h (p.length - 1) start 0 p.bytes steps) []

end ByteSearch.Search.NestedLoops
