import ByteSearch.Proofs.LaneRemainders
import ByteSearch.Proofs.RecordedOffsets
import ByteSearch.Search.WordScans

/-!
# Scans in words come to no fault

As long as haystack and pattern are shorter than `lengthLimit`, brute force and the count in lanes
compute nothing that is no word, and ask for no byte and no counter that does not exist. So in any
arithmetic they tell their sink what they tell it when they compute with numbers (`bruteForce_eq`,
`inLanes_eq`).

The counters in words stand for counters (`ofNumbers`). A round of either loop over offsets leads
from the counters after some offsets (`Lanes.tally`) to those after one offset more
(`charge_tally`): a counter never exceeds the number of offsets in front, which is a word
(`Lanes.IsTally.getElem_le`).

Main statement: `scans_without_fault`.
-/

namespace ByteSearch.Search.Words

open ByteSearch.Number

variable {h : Buffer} {w : Bytes}

theorem lt_size_of_lt_lengthLimit {n : Nat} (hn : n < lengthLimit) : n < UInt64.size :=
  Nat.lt_trans hn (by decide)

theorem candidateStarts_ofNat (ar : Arithmetic) {size width : Nat} (hsize : size < lengthLimit)
    (hwidth : width < lengthLimit) :
    candidateStarts ar (.ofNat size) (.ofNat width) =
      .ok (.ofNat (Search.candidateStarts size width)) := by
  have hsize' := lt_size_of_lt_lengthLimit hsize
  have hsizeWord : (UInt64.ofNat size).toNat = size := UInt64.toNat_ofNat_of_lt' hsize'
  have hwidthWord : (UInt64.ofNat width).toNat = width :=
    UInt64.toNat_ofNat_of_lt' (lt_size_of_lt_lengthLimit hwidth)
  have hle : UInt64.ofNat width ≤ UInt64.ofNat size ↔ width ≤ size := by
    rw [UInt64.le_iff_toNat_le, hsizeWord, hwidthWord]
  rw [candidateStarts, difference?, Search.candidateStarts]
  by_cases hfits : width ≤ size
  · rw [if_pos (hle.2 hfits), if_pos hfits, ← UInt64.ofNat_sub hfits]
    have hlimit : lengthLimit < UInt64.size := by decide
    exact ar.add_ofNat (b := 1) (by omega)
  · rw [if_neg (mt hle.1 hfits), if_neg hfits]
    rfl

/-- Of a string without bytes there would be one start offset more than words. -/
example : candidateStarts .checked 0xFFFFFFFFFFFFFFFF 0 = .error .overflow := by decide

/-! ## Brute force -/

theorem byteAt_of_getElem? {i : Nat} (hi : i < UInt64.size) {b : UInt8} (hread : h[i]? = some b) :
    byteAt h (.ofNat i) = .ok b := by
  rw [byteAt, UInt64.toNat_ofNat_of_lt' hi, hread]

/-- If the inner loop over numbers reads bytes of the haystack only, then so does the one over
words. -/
theorem compareFrom_of_some (ar : Arithmetic) {last start j : Nat} {bytes : Bytes}
    {steps found : List Step} (hlast : last < UInt64.size)
    (hfits : start + (j + bytes.length) < UInt64.size)
    (hrun : NestedLoops.compareFrom h last start j bytes steps = some found) :
    compareFrom ar h (.ofNat last) (.ofNat start) (.ofNat j) bytes steps = .ok found := by
  induction bytes generalizing j steps with
  | nil =>
    rw [NestedLoops.compareFrom, Option.some.injEq] at hrun
    rw [compareFrom, hrun]
  | cons b bytes ih =>
    rw [List.length_cons] at hfits
    have hnext : ar.add (.ofNat j) 1 = .ok (.ofNat (j + 1)) := ar.add_ofNat (b := 1) (by omega)
    have hoffset : ar.add (.ofNat start) (.ofNat j) = .ok (.ofNat (start + j)) :=
      ar.add_ofNat (by omega)
    have hplace : UInt64.ofNat j = UInt64.ofNat last ↔ j = last := by
      rw [← UInt64.toNat_inj, UInt64.toNat_ofNat_of_lt' hlast,
        UInt64.toNat_ofNat_of_lt' (by omega)]
    have hstart : (UInt64.ofNat start).toNat = start := UInt64.toNat_ofNat_of_lt' (by omega)
    rw [NestedLoops.compareFrom] at hrun
    cases hread : h[start + j]? with
    | none => rw [hread] at hrun; cases hrun
    | some c =>
      rw [hread] at hrun
      rw [compareFrom, hnext, ok_bind, hoffset, ok_bind, byteAt_of_getElem? (by omega) hread,
        ok_bind]
      by_cases hb : b = c
      · simp only [hb, ne_eq, not_true_eq_false, if_false, hplace, hstart] at hrun ⊢
        exact ih (by omega) hrun
      · simp only [hb, ne_eq, not_false_eq_true, if_true, Option.some.injEq] at hrun ⊢
        rw [hrun]

/-- The steps that brute force sends its sink for the first `n` start offsets. -/
def stepsBelow (h : Buffer) (p : Pattern) (n : Nat) : List Step :=
  ((List.range n).filter (agreesAt h p.bytes)).map fun i => .record ⟨i, Pattern.identifier⟩

theorem compareFrom_stepsBelow {p : Pattern} {n : Nat} (hfits : n + p.length ≤ h.size) :
    NestedLoops.compareFrom h (p.length - 1) n 0 p.bytes (stepsBelow h p n) =
      some (stepsBelow h p (n + 1)) := by
  have hround : [n].foldlM (fun steps start =>
      NestedLoops.compareFrom h (p.length - 1) start 0 p.bytes steps) (stepsBelow h p n) = _ :=
    NestedLoops.foldlM_compareFrom (by simpa using hfits) (stepsBelow h p n)
  rw [List.foldlM_cons] at hround
  simp only [List.foldlM_nil, bind_pure] at hround
  rw [hround, stepsBelow, stepsBelow, List.range_succ, List.filter_append, List.map_append]

theorem compareAt_stepsBelow (ar : Arithmetic) {p : Pattern} {n : Nat}
    (hsize : h.size < lengthLimit) (hfits : n + p.length ≤ h.size) :
    compareAt ar h p (.ofNat (p.length - 1)) (stepsBelow h p n) (.ofNat n) =
      .ok (stepsBelow h p (n + 1)) := by
  have hsize' := lt_size_of_lt_lengthLimit hsize
  have hbytes : n + (0 + p.bytes.length) < UInt64.size := by
    rw [Nat.zero_add]
    exact Nat.lt_of_le_of_lt hfits hsize'
  exact compareFrom_of_some ar (by omega) hbytes (compareFrom_stepsBelow hfits)

theorem bruteForce_eq (ar : Arithmetic) {p : Pattern} (hsize : h.size < lengthLimit)
    (hlength : p.length < lengthLimit) :
    bruteForce ar h p = .ok (Search.bruteForce.run h p).steps := by
  have hsize' := lt_size_of_lt_lengthLimit hsize
  have hstarts := candidateStarts_le h.size p.length_pos
  have hlast : ar.sub (.ofNat p.length) 1 = .ok (.ofNat (p.length - 1)) :=
    ar.sub_ofNat (b := 1) p.length_pos (lt_size_of_lt_lengthLimit hlength)
  rw [bruteForce, hlast, ok_bind, candidateStarts_ofNat ar hsize hlength, ok_bind]
  exact foldlM_below (by omega) (stepsBelow h p) fun n hn =>
    compareAt_stepsBelow ar hsize (lt_candidateStarts_iff.1 hn)

/-! ## Lanes -/

theorem lanesFor_ofNat {p : Pattern} (hlength : p.length < lengthLimit) :
    lanesFor (.ofNat p.length) = .ofNat (laneCount p) := by
  have hword : (UInt64.ofNat p.length).toNat = p.length :=
    UInt64.toNat_ofNat_of_lt' (lt_size_of_lt_lengthLimit hlength)
  have hle : UInt64.ofNat p.length ≤ UInt64.ofNat maxLanes ↔ p.length ≤ maxLanes := by
    rw [UInt64.le_iff_toNat_le, hword]
    rfl
  rw [lanesFor, laneCount]
  by_cases hfew : p.length ≤ maxLanes
  · rw [if_pos (hle.2 hfew), Nat.min_eq_left hfew]
  · rw [if_neg (mt hle.1 hfew), Nat.min_eq_right (Nat.le_of_not_le hfew)]

theorem hitAt_ofNat (ar : Arithmetic) (hsize : h.size < lengthLimit) {start : Nat}
    {w : Array UInt8} (hfits : start + w.size ≤ h.size) :
    hitAt ar h w (.ofNat start) = .ok (.ofNat (Lanes.hitAt h w start)) := by
  have hsize' := lt_size_of_lt_lengthLimit hsize
  have hstart : (UInt64.ofNat start).toNat = start := UInt64.toNat_ofNat_of_lt' (by omega)
  have hstop : (UInt64.ofNat (start + w.size)).toNat = start + w.size :=
    UInt64.toNat_ofNat_of_lt' (by omega)
  rw [hitAt, ar.add_ofNat (by omega), ok_bind, slice, hstart, hstop,
    if_pos ⟨Nat.le_add_right start w.size, hfits⟩, ok_bind, Lanes.hitAt]
  split <;> rfl

theorem exists_slotsBelow {lanes : Nat} (hlanes : lanes ≤ maxLanes) :
    ∃ slots, slotsBelow (.ofNat lanes) = .ok slots ∧ slots.length = lanes ∧
      ∀ k (hk : k < slots.length), slots[k].val = k := by
  have hword : (UInt64.ofNat lanes).toNat = lanes :=
    UInt64.toNat_ofNat_of_lt' (Nat.lt_of_le_of_lt hlanes (by decide))
  have hfew : (UInt64.ofNat lanes).toNat ≤ maxLanes := hword.le.trans hlanes
  refine ⟨_, dif_pos hfew, ?_, fun k hk => ?_⟩
  · rw [List.length_ofFn, hword]
  · rw [List.getElem_ofFn]
    rfl

theorem slotAt_ofNat {lane : Nat} (hlane : lane < maxLanes) :
    slotAt (.ofNat lane) = .ok ⟨lane, hlane⟩ := by
  have hword : (UInt64.ofNat lane).toNat = lane :=
    UInt64.toNat_ofNat_of_lt' (Nat.lt_trans hlane (by decide))
  rw [slotAt, dif_pos (hword.trans_lt hlane)]
  simp only [hword]

/-- The counters in words that stand for counters. -/
def ofNumbers (acc : Lanes.Counters) : Counters :=
  acc.map .ofNat

theorem get_ofNumbers (acc : Lanes.Counters) (slot : Fin maxLanes) :
    (ofNumbers acc).get slot = .ofNat (acc.get slot) :=
  Vector.getElem_map ..

theorem bump_ofNumbers (ar : Arithmetic) (acc : Lanes.Counters) (slot : Fin maxLanes) {hits : Nat}
    (hsum : acc.get slot + hits < UInt64.size) :
    bump ar (ofNumbers acc) slot (.ofNat hits) = .ok (ofNumbers (Lanes.bump acc slot hits)) := by
  rw [bump, get_ofNumbers, ar.add_ofNat hsum, ok_bind, Lanes.bump, dif_pos slot.isLt,
    ofNumbers, ofNumbers, Vector.map_set]
  rfl

/-- The base of a block that ends within the first `n` offsets. -/
theorem mul_block (ar : Arithmetic) {lanes block n : Nat} (hpos : 0 < lanes)
    (hn : n < UInt64.size) (hend : (block + 1) * lanes ≤ n) :
    ar.mul (.ofNat block) (.ofNat lanes) = .ok (.ofNat (block * lanes)) := by
  have hblock : block ≤ block * lanes := Nat.le_mul_of_pos_right block hpos
  rw [Nat.succ_mul] at hend
  exact ar.mul_ofNat (by omega) (by omega) (by omega)

theorem exists_base (ar : Arithmetic) {lanes block n : Nat} (hpos : 0 < lanes)
    (hn : n < UInt64.size) (hblock : block < n / lanes) :
    ∃ base, ar.mul (.ofNat block) (.ofNat lanes) = .ok base ∧ base.toNat = block * lanes ∧
      base.toNat + lanes ≤ n := by
  have hend : (block + 1) * lanes ≤ n := (Nat.le_div_iff_mul_le hpos).1 hblock
  have hmul := mul_block ar hpos hn hend
  rw [Nat.succ_mul] at hend
  have hbase : (UInt64.ofNat (block * lanes)).toNat = block * lanes :=
    UInt64.toNat_ofNat_of_lt' (by omega)
  exact ⟨_, hmul, hbase, hbase.symm ▸ hend⟩

section

variable (ar : Arithmetic) {lanes : Nat} (hsize : h.size < lengthLimit) (hpos : 0 < lanes)
  (hlanes : lanes ≤ maxLanes)

include hsize hpos hlanes

/-- What both loops do at an offset: from the counters after the offsets in front of it they come to
those after one offset more. -/
theorem charge_tally {start : Nat} (hstart : start < Search.candidateStarts h.size w.length)
    {slot : Fin maxLanes} (hslot : slot.val = start % lanes) :
    (do
      let hits ← hitAt ar h w.toArray (.ofNat start)
      bump ar (ofNumbers (Lanes.tally h w lanes start)) slot hits) =
      .ok (ofNumbers (Lanes.tally h w lanes (start + 1))) := by
  have hfits := lt_candidateStarts_iff.1 hstart
  have hcounter := (Lanes.isTally_tally hpos hlanes hstart.le).getElem_le slot slot.isLt
  have hhit : Lanes.hitAt h w.toArray start ≤ 1 := by
    rw [Lanes.hitAt]
    split <;> omega
  have hlimit : lengthLimit < UInt64.size := by decide
  have hnext : Lanes.tally h w lanes (start + 1) =
      Lanes.bump (Lanes.tally h w lanes start) (start % lanes) (Lanes.hitAt h w.toArray start) :=
    Lanes.visitInOrder_succ lanes start _
  have hsum :
      (Lanes.tally h w lanes start).get slot + Lanes.hitAt h w.toArray start < UInt64.size := by
    have hle : (Lanes.tally h w lanes start).get slot ≤ start := hcounter
    omega
  rw [hitAt_ofNat ar hsize hfits, ok_bind, bump_ofNumbers ar _ slot hsum, hslot, hnext]

variable (hwidth : 0 < w.length)

include hwidth

theorem addBlock_tally {block : Nat}
    (hfits : (block + 1) * lanes ≤ Search.candidateStarts h.size w.length) :
    addBlock ar h w.toArray (.ofNat lanes) (ofNumbers (Lanes.tally h w lanes (block * lanes)))
        (.ofNat block) =
      .ok (ofNumbers (Lanes.tally h w lanes ((block + 1) * lanes))) := by
  have hstarts := candidateStarts_le h.size hwidth
  have hsize' := lt_size_of_lt_lengthLimit hsize
  have hbase := mul_block ar hpos (by omega) hfits
  rw [Nat.succ_mul] at hfits ⊢
  obtain ⟨slots, hslots, hlength, hslot⟩ := exists_slotsBelow hlanes
  have hround : ∀ k (hk : k < slots.length),
      blockRound ar h w.toArray (.ofNat (block * lanes))
          (ofNumbers (Lanes.tally h w lanes (block * lanes + k))) (.ofNat k) slots[k] =
        .ok (ofNumbers (Lanes.tally h w lanes (block * lanes + (k + 1)))) := by
    intro k hk
    have hremainder : slots[k].val = (block * lanes + k) % lanes := by
      rw [hslot k hk, Nat.mul_add_mod_of_lt (hlength ▸ hk)]
    rw [blockRound, ar.add_ofNat (by omega), ok_bind]
    exact charge_tally ar hsize hpos hlanes (by omega) hremainder
  have hrounds := countingRounds_of_rounds ar (by omega)
    (fun k => ofNumbers (Lanes.tally h w lanes (block * lanes + k))) hround
  rw [hlength] at hrounds
  rw [addBlock, hbase, ok_bind, hslots, ok_bind]
  exact hrounds

variable {starts : Nat} (hstarts : starts = Search.candidateStarts h.size w.length)

include hstarts

theorem addRest_tally :
    addRest ar h w.toArray (.ofNat (starts / lanes * lanes)) (.ofNat starts)
        (ofNumbers (Lanes.tally h w lanes (starts / lanes * lanes))) =
      .ok (ofNumbers (Lanes.tally h w lanes starts)) := by
  have hle : starts ≤ h.size := hstarts ▸ candidateStarts_le h.size hwidth
  have hsize' := lt_size_of_lt_lengthLimit hsize
  have hrest := Lanes.rest_lt hpos starts
  have hall := Lanes.div_mul_add_rest starts lanes
  generalize hbase : starts / lanes * lanes = base at hrest hall ⊢
  have hbetween : between (.ofNat base) (.ofNat starts) =
      (List.range' base (starts - base)).map .ofNat := by
    rw [between, UInt64.toNat_ofNat_of_lt' (by omega), UInt64.toNat_ofNat_of_lt' (by omega)]
  have hlength : (between (.ofNat base) (.ofNat starts)).length = starts - base := by
    rw [hbetween, List.length_map, List.length_range']
  have hround : ∀ k (hk : k < (between (.ofNat base) (.ofNat starts)).length),
      restRound ar h w.toArray (ofNumbers (Lanes.tally h w lanes (base + k))) (.ofNat k)
          (between (.ofNat base) (.ofNat starts))[k] =
        .ok (ofNumbers (Lanes.tally h w lanes (base + (k + 1)))) := by
    intro k hk
    rw [hlength] at hk
    have hoffset : (between (.ofNat base) (.ofNat starts))[k] = .ofNat (base + k) := by
      simp only [hbetween, List.getElem_map, List.getElem_range', Nat.one_mul]
    -- what is left begins at a multiple of the number of lanes too, so its rounds number the lanes
    have hremainder : k = (base + k) % lanes := by
      rw [← hbase, Nat.mul_add_mod_of_lt (by omega)]
    rw [restRound, hoffset, slotAt_ofNat (show k < maxLanes by omega)]
    exact charge_tally ar hsize hpos hlanes (by omega) hremainder
  have hrounds := countingRounds_of_rounds ar (by omega)
    (fun k => ofNumbers (Lanes.tally h w lanes (base + k))) hround
  rw [hlength, hall] at hrounds
  exact hrounds

theorem counters_tally :
    counters ar h w.toArray (.ofNat lanes) (.ofNat starts) =
      .ok (ofNumbers (Lanes.tally h w lanes starts)) := by
  have hle : starts ≤ h.size := hstarts ▸ candidateStarts_le h.size hwidth
  have hsize' := lt_size_of_lt_lengthLimit hsize
  have hfull : starts / lanes * lanes ≤ starts := Nat.div_mul_le_self starts lanes
  have hfew : starts / lanes ≤ starts := Nat.div_le_self starts lanes
  have hlanes' : lanes < UInt64.size := Nat.lt_of_le_of_lt hlanes (by decide)
  have hzero : ofNumbers (Lanes.tally h w lanes (0 * lanes)) = Vector.replicate maxLanes 0 := by
    rw [Nat.zero_mul]
    exact Vector.map_replicate
  have hblocks := foldlM_below (n := starts / lanes) (by omega)
    (fun blocks => ofNumbers (Lanes.tally h w lanes (blocks * lanes))) fun block hblock =>
      addBlock_tally ar hsize hpos hlanes hwidth
        (hstarts ▸ (Nat.mul_le_mul_right lanes hblock).trans hfull)
  rw [hzero] at hblocks
  rw [counters, Arithmetic.div_ofNat (by omega) hlanes' hpos, ok_bind, hblocks, ok_bind,
    ar.mul_ofNat (by omega) hlanes' (by omega), ok_bind]
  exact addRest_tally ar hsize hpos hlanes hwidth hstarts

end

/-- Numbers whose sum fits into a word, added to another one after the other. -/
theorem foldlM_add_ofNat (ar : Arithmetic) {numbers : List Nat} {n : Nat}
    (hsum : n + numbers.sum < UInt64.size) :
    (numbers.map .ofNat).foldlM ar.add (.ofNat n) = .ok (.ofNat (n + numbers.sum)) := by
  induction numbers generalizing n with
  | nil => rfl
  | cons a numbers ih =>
    rw [List.sum_cons, ← Nat.add_assoc] at hsum ⊢
    rw [List.map_cons, List.foldlM_cons, ar.add_ofNat (by omega), ok_bind]
    exact ih hsum

theorem total_ofNumbers (ar : Arithmetic) {acc : Lanes.Counters}
    (hsum : Lanes.total acc < UInt64.size) :
    total ar (ofNumbers acc) = .ok (.ofNat (Lanes.total acc)) := by
  rw [Lanes.total_eq_sum] at hsum ⊢
  have hall := foldlM_add_ofNat ar (n := 0) (by rw [Nat.zero_add]; exact hsum)
  rw [Nat.zero_add] at hall
  rw [total, ofNumbers, Vector.toList_map]
  exact hall

theorem total_tally {lanes : Nat} (hpos : 0 < lanes) (hlanes : lanes ≤ maxLanes) :
    Lanes.total (Lanes.tally h w lanes (Search.candidateStarts h.size w.length)) =
      occurrenceCount h w := by
  rw [← Lanes.counters_eq_tally h w hpos]
  exact Lanes.total_counters hpos hlanes

section

variable (ar : Arithmetic) {p : Pattern} (hsize : h.size < lengthLimit)
  (hlength : p.length < lengthLimit)

include hsize

theorem candidateStarts_lt (p : Pattern) : Search.candidateStarts h.size p.length < UInt64.size :=
  Nat.lt_of_le_of_lt (candidateStarts_le h.size p.length_pos) (lt_size_of_lt_lengthLimit hsize)

theorem counters_eq :
    counters ar h p.bytes.toArray (.ofNat (laneCount p))
        (.ofNat (Search.candidateStarts h.size p.length)) =
      .ok (ofNumbers (Lanes.tally h p.bytes (laneCount p)
        (Search.candidateStarts h.size p.length))) :=
  counters_tally ar hsize (laneCount_pos p) (laneCount_le p) p.length_pos rfl

theorem total_counters :
    total ar (ofNumbers (Lanes.tally h p.bytes (laneCount p)
        (Search.candidateStarts h.size p.length))) =
      .ok (.ofNat (occurrenceCount h p.bytes)) := by
  have htotal := total_tally (h := h) (w := p.bytes) (laneCount_pos p) (laneCount_le p)
  have hle := occurrenceCount_le_candidateStarts h p.bytes
  rw [← htotal] at hle ⊢
  exact total_ofNumbers ar (hle.trans_lt (candidateStarts_lt hsize p))

include hlength

theorem inLanes_eq : inLanes ar h p = .ok (Search.inLanes.run h p).steps := by
  have hle : occurrenceCount h p.bytes < UInt64.size :=
    (occurrenceCount_le_candidateStarts h p.bytes).trans_lt (candidateStarts_lt hsize p)
  rw [inLanes, candidateStarts_ofNat ar hsize hlength, ok_bind, lanesFor_ofNat hlength,
    counters_eq ar hsize, ok_bind, total_counters ar hsize, ok_bind, inLanes_steps,
    UInt64.toNat_ofNat_of_lt' hle]
  rfl

end

/-- **No faults.** In any arithmetic, a haystack is searched for a pattern without a fault if both
are shorter than `lengthLimit`, whichever of them is longer. So every byte, slice and counter that
is asked for exists; and as this holds of checked arithmetic, every result fits into a word, and
wrapping arithmetic cuts none down.

The start offsets are those at which the pattern fits. There are lanes, and not too many. Every
block lies within the start offsets. Each counter is at most the number of start offsets, and so is
their sum. Both strategies tell their sink what they tell it when they compute with numbers. -/
theorem scans_without_fault (ar : Arithmetic) (h : Buffer) (p : Pattern)
    (hsize : h.size < lengthLimit) (hlength : p.length < lengthLimit) :
    let lanes := lanesFor (.ofNat p.length)
    0 < lanes.toNat ∧ lanes.toNat ≤ maxLanes ∧ ∃ starts acc sum,
      candidateStarts ar (.ofNat h.size) (.ofNat p.length) = .ok starts ∧
      (∀ i, i < starts.toNat ↔ i + p.length ≤ h.size) ∧
      (∀ block, block < starts.toNat / lanes.toNat → ∃ base,
        ar.mul (.ofNat block) lanes = .ok base ∧ base.toNat = block * lanes.toNat ∧
          base.toNat + lanes.toNat ≤ starts.toNat) ∧
      counters ar h p.bytes.toArray lanes starts = .ok acc ∧
      (∀ slot, (acc.get slot).toNat ≤ starts.toNat) ∧
      total ar acc = .ok sum ∧ sum.toNat ≤ starts.toNat ∧
      bruteForce ar h p = .ok (Search.bruteForce.run h p).steps ∧
      inLanes ar h p = .ok (Search.inLanes.run h p).steps ∧
      (Search.inLanes.run h p).steps = [.absorb sum.toNat] := by
  intro lanes
  have hlanes : lanes = .ofNat (laneCount p) := lanesFor_ofNat hlength
  have hlanes' : lanes.toNat = laneCount p := by
    rw [hlanes]
    exact UInt64.toNat_ofNat_of_lt' (Nat.lt_of_le_of_lt (laneCount_le p) (by decide))
  have hlt := candidateStarts_lt hsize p
  have hstarts : (UInt64.ofNat (Search.candidateStarts h.size p.length)).toNat =
      Search.candidateStarts h.size p.length := UInt64.toNat_ofNat_of_lt' hlt
  have hle := occurrenceCount_le_candidateStarts h p.bytes
  have hsum : (UInt64.ofNat (occurrenceCount h p.bytes)).toNat = occurrenceCount h p.bytes :=
    UInt64.toNat_ofNat_of_lt' (hle.trans_lt hlt)
  have htally : Lanes.IsTally h p.bytes (laneCount p) (Search.candidateStarts h.size p.length) _ :=
    Lanes.isTally_tally (laneCount_pos p) (laneCount_le p) (Nat.le_refl _)
  rw [hlanes']
  refine ⟨laneCount_pos p, laneCount_le p, _, _, _, candidateStarts_ofNat ar hsize hlength,
    fun i => ?_, fun block hblock => ?_, hlanes ▸ counters_eq ar hsize, fun slot => ?_,
    total_counters ar hsize, ?_, bruteForce_eq ar hsize hlength, inLanes_eq ar hsize hlength, ?_⟩
  · rw [hstarts]
    exact lt_candidateStarts_iff
  · rw [hstarts] at hblock ⊢
    rw [hlanes]
    exact exists_base ar (laneCount_pos p) hlt hblock
  · have hcounter := htally.getElem_le slot slot.isLt
    rw [get_ofNumbers, hstarts]
    exact (UInt64.toNat_ofNat_of_lt' (hcounter.trans_lt hlt)).trans_le hcounter
  · rw [hstarts, hsum]
    exact hle
  · rw [hsum]
    exact inLanes_steps h p

/-- A pattern of one byte more than the haystack, where the number of start offsets is guarded, and
one whose occurrences overlap. -/
theorem scans_without_fault_longer_pattern :
    bruteForce .checked #[0x61, 0x62, 0x63] ⟨[0x61, 0x62, 0x63, 0x64], by decide⟩ = .ok [] ∧
      inLanes .checked #[0x61, 0x62, 0x63] ⟨[0x61, 0x62, 0x63, 0x64], by decide⟩ =
        .ok [.absorb 0] ∧
      inLanes .wrapping #[0x61, 0x61, 0x61, 0x61] ⟨[0x61, 0x61], by decide⟩ =
        .ok [.absorb 3] := by
  obtain ⟨-, -, -, -, -, -, -, -, -, -, -, -, hnone, hzero, -⟩ := scans_without_fault .checked
    #[0x61, 0x62, 0x63] ⟨[0x61, 0x62, 0x63, 0x64], by decide⟩ (by decide) (by decide)
  obtain ⟨-, -, -, -, -, -, -, -, -, -, -, -, -, hthree, -⟩ := scans_without_fault .wrapping
    #[0x61, 0x61, 0x61, 0x61] ⟨[0x61, 0x61], by decide⟩ (by decide) (by decide)
  rw [hnone, hzero, hthree]
  decide

end ByteSearch.Search.Words
