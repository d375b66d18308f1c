import ByteSearch.Proofs.Occurrences
import ByteSearch.Search.Lanes
import Mathlib.Algebra.GroupWithZero.Nat

/-!
# Counting in lanes is brute force

Every start offset adds to exactly one counter, so the counters together hold as many hits as there
are occurrences among the offsets that were looked at. `total_addBlock` says this of one block,
`total_afterBlocks` of all full blocks, and `total_counters` of the blocks with what is left behind
them.

Main statement: `inLanes_refines_bruteForce`.
-/

namespace ByteSearch.Search

namespace Lanes

/-- The counters together. -/
def total (acc : Counters) : Nat :=
  acc.foldl (· + ·) 0

theorem total_eq_sum (acc : Counters) : total acc = acc.toList.sum := by
  rw [total, List.sum_eq_foldl, ← Vector.foldl_toList]

theorem total_replicate_zero : total (Vector.replicate maxLanes 0) = 0 := by
  simp [total_eq_sum]

theorem sum_set_add {l : List Nat} {i : Nat} (hi : i < l.length) (k : Nat) :
    (l.set i (l[i] + k)).sum = l.sum + k := by
  induction l generalizing i with
  | nil => simp at hi
  | cons a l ih =>
    cases i with
    | zero =>
      simp only [List.set_cons_zero, List.getElem_cons_zero, List.sum_cons]
      omega
    | succ i =>
      simp only [List.set_cons_succ, List.getElem_cons_succ, List.sum_cons]
      rw [ih (by simpa using hi)]
      omega

theorem total_bump {lane : Nat} (hlane : lane < maxLanes) (acc : Counters) (hits : Nat) :
    total (bump acc lane hits) = total acc + hits := by
  rw [bump, dif_pos hlane, total_eq_sum, total_eq_sum, Vector.toList_set]
  have hsum := sum_set_add (l := acc.toList) (i := lane) (by simpa using hlane) hits
  rw [Vector.getElem_toList] at hsum
  exact hsum

theorem hitAt_eq {h : Buffer} {w : Bytes} {start : Nat} (hfits : start + w.length ≤ h.size) :
    hitAt h w.toArray start = if OccursAt h w start then 1 else 0 := by
  simp only [hitAt, List.size_toArray, beq_iff_eq, extract_eq_iff hfits]

/-- A block adds the occurrences at its offsets. The offsets must fit, and there must be a lane for
each of them. -/
theorem total_addBlock {h : Buffer} {w : Bytes} {base width : Nat} (acc : Counters)
    (hwidth : width ≤ maxLanes) (hfits : base + width ≤ candidateStarts h.size w.length) :
    total (addBlock h w.toArray acc base width) + Nat.count (OccursAt h w) base =
      total acc + Nat.count (OccursAt h w) (base + width) := by
  induction width with
  | zero => rfl
  | succ width ih =>
    have hstart := lt_candidateStarts_iff.1
      (show base + width < candidateStarts h.size w.length by omega)
    have hstep : addBlock h w.toArray acc base (width + 1) =
        bump (addBlock h w.toArray acc base width) width (hitAt h w.toArray (base + width)) := by
      simp [addBlock, List.range_succ]
    rw [hstep, total_bump (by omega), hitAt_eq hstart, ← Nat.add_assoc base, Nat.count_succ]
    have := ih (by omega) (by omega)
    omega

theorem total_afterBlocks {h : Buffer} {w : Bytes} {lanes blocks : Nat} (hlanes : lanes ≤ maxLanes)
    (hfits : blocks * lanes ≤ candidateStarts h.size w.length) :
    total (afterBlocks h w.toArray lanes blocks) = Nat.count (OccursAt h w) (blocks * lanes) := by
  induction blocks with
  | zero => simp [afterBlocks, total_replicate_zero]
  | succ blocks ih =>
    rw [Nat.succ_mul] at hfits ⊢
    have hstep : afterBlocks h w.toArray lanes (blocks + 1) =
        addBlock h w.toArray (afterBlocks h w.toArray lanes blocks) (blocks * lanes) lanes := by
      simp [afterBlocks, List.range_succ]
    have hblock := total_addBlock (afterBlocks h w.toArray lanes blocks) hlanes hfits
    rw [hstep]
    rw [ih (by omega)] at hblock
    omega

/-- The offsets behind the last full block are fewer than the lanes, so each of them has a lane. -/
theorem total_counters {h : Buffer} {w : Bytes} {lanes : Nat} (hpos : 0 < lanes)
    (hlanes : lanes ≤ maxLanes) :
    total (counters h w.toArray lanes (candidateStarts h.size w.length)) = occurrenceCount h w := by
  generalize hstarts : candidateStarts h.size w.length = starts
  have hfull : starts / lanes * lanes ≤ starts := Nat.div_mul_le_self starts lanes
  have hrest : starts - starts / lanes * lanes < lanes := by
    have := Nat.lt_div_mul_add hpos (a := starts)
    omega
  have hblocks : total (afterBlocks h w.toArray lanes (starts / lanes)) =
      Nat.count (OccursAt h w) (starts / lanes * lanes) :=
    total_afterBlocks hlanes (by omega)
  have htail := total_addBlock (h := h) (w := w) (afterBlocks h w.toArray lanes (starts / lanes))
    (show starts - starts / lanes * lanes ≤ maxLanes by omega)
    (show starts / lanes * lanes + (starts - starts / lanes * lanes) ≤ _ by omega)
  rw [hblocks, Nat.add_sub_cancel' hfull] at htail
  rw [occurrenceCount_eq, hstarts, counters]
  omega

end Lanes

/-- The run consists of one step, which adds the number of occurrences. -/
theorem inLanes_steps (h : Buffer) (p : Pattern) :
    (inLanes.run h p).steps = [.absorb (occurrenceCount h p.bytes)] := by
  have htotal := Lanes.total_counters (h := h) (w := p.bytes) (laneCount_pos p) (laneCount_le p)
  simp only [inLanes]
  rw [← htotal]
  rfl

theorem count_inLanes {σ : Type} [Sink σ] [ModularSink σ] (s : σ) (h : Buffer) (p : Pattern) :
    Sink.count ((inLanes.run h p).into s) =
      (Sink.count s + occurrenceCount h p.bytes) % ModularSink.modulus σ := by
  rw [Run.into, inLanes_steps, Sink.run_cons, Sink.run_nil, ModularSink.count_absorb]

/-- **Counting in lanes refines brute force.** On every haystack and for every pattern both succeed,
and counting in lanes sends the sink the number of occurrences in one step, and no match. From the
same state they leave the same count: in all sinks that count up to multiples of a modulus, and so
in those with numbers and in those with words, where the count may start again at zero on the way.
-/
theorem inLanes_refines_bruteForce (h : Buffer) (p : Pattern) :
    (bruteForce.run h p).failure = none ∧ (inLanes.run h p).failure = none ∧
      (inLanes.run h p).steps = [.absorb (occurrenceCount h p.bytes)] ∧
      (∀ {σ : Type} [Sink σ] [ModularSink σ] (s : σ),
        Sink.count ((inLanes.run h p).into s) = Sink.count ((bruteForce.run h p).into s)) ∧
      (∀ s : WordCounter, (inLanes.run h p).into s = (bruteForce.run h p).into s) ∧
      ∀ s : WordCollector,
        Sink.count ((inLanes.run h p).into s) = Sink.count ((bruteForce.run h p).into s) := by
  have hcount {σ : Type} [Sink σ] [ModularSink σ] (s : σ) :
      Sink.count ((inLanes.run h p).into s) = Sink.count ((bruteForce.run h p).into s) := by
    rw [count_inLanes, ModularSink.count_bruteForce]
  refine ⟨rfl, rfl, inLanes_steps h p, hcount, fun s => ?_, hcount⟩
  exact congrArg WordCounter.mk (UInt64.toNat_inj.1 (hcount s))

/-- Overlapping occurrences of `aba` in `ababababab`, counted on top of what a collector holds whose
count is one below the greatest word: the count starts again at zero. -/
theorem inLanes_refines_bruteForce_overlapping :
    Sink.count ((inLanes.run #[0x61, 0x62, 0x61, 0x62, 0x61, 0x62, 0x61, 0x62, 0x61, 0x62]
      ⟨[0x61, 0x62, 0x61], by decide⟩).into
        (⟨#[⟨7, 0⟩], 18446744073709551613⟩ : WordCollector)) = 2 := by
  have hrefines := inLanes_refines_bruteForce
    #[0x61, 0x62, 0x61, 0x62, 0x61, 0x62, 0x61, 0x62, 0x61, 0x62] ⟨[0x61, 0x62, 0x61], by decide⟩
  rw [hrefines.2.2.2.2.2]
  decide +kernel

end ByteSearch.Search
