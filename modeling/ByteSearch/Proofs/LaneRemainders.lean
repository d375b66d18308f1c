import ByteSearch.Proofs.LaneTotals

/-!
# Which lane counts which offset

The blocks begin at multiples of the number of lanes, the shorter one behind them included, and so
the place of an offset in its block is the remainder that it leaves. The loops over the blocks are
first taken apart from what they do at an offset (`visitAll`): whatever that is, they do it for
every offset once, in ascending order (`visitAll_eq`). With one hit or none to be added at each
offset, a counter then holds the occurrences whose offsets leave its lane as their remainder. This
holds of the counters when they are all zero, one more offset preserves it (`IsTally.next`), and so
it holds however far the loops have come (`isTally_tally`).

Main statement: `counters_by_remainder`.
-/

namespace ByteSearch.Search

namespace Lanes

/-! ## The loops apart from what they do -/

section

variable {α : Type} (visit : α → Nat → Nat → α)

/-- Visits the `width` offsets from `base` on, each in its own lane. -/
def visitBlock (base width : Nat) (a : α) : α :=
  (List.range width).foldl (fun a lane => visit a (base + lane) lane) a

/-- Visits the offsets of the first `blocks` full blocks. -/
def visitBlocks (lanes blocks : Nat) (a : α) : α :=
  (List.range blocks).foldl (fun a block => visitBlock visit (block * lanes) lanes a) a

/-- Visits the offsets of all full blocks, then what is left of the first `starts` offsets. -/
def visitAll (lanes starts : Nat) (a : α) : α :=
  let blocks := starts / lanes
  visitBlock visit (blocks * lanes) (starts - blocks * lanes) (visitBlocks visit lanes blocks a)

/-- Visits the first `n` offsets in ascending order, each in the lane of its remainder. -/
def visitInOrder (lanes n : Nat) (a : α) : α :=
  (List.range n).foldl (fun a start => visit a start (start % lanes)) a

variable {visit}

theorem visitInOrder_succ (lanes n : Nat) (a : α) :
    visitInOrder visit lanes (n + 1) a = visit (visitInOrder visit lanes n a) n (n % lanes) := by
  simp [visitInOrder, List.range_succ]

/-- A block goes on where the visit of all offsets in front of it has come to. -/
theorem visitBlock_visitInOrder {lanes width : Nat} (blocks : Nat) (hwidth : width ≤ lanes)
    (a : α) :
    visitBlock visit (blocks * lanes) width (visitInOrder visit lanes (blocks * lanes) a) =
      visitInOrder visit lanes (blocks * lanes + width) a := by
  rw [visitInOrder, visitInOrder, visitBlock, List.range_add, List.foldl_append, List.foldl_map]
  refine List.foldl_ext _ _ _ fun a lane hlane => ?_
  have hlt : lane < lanes := Nat.lt_of_lt_of_le (List.mem_range.1 hlane) hwidth
  rw [Nat.mul_add_mod_of_lt hlt]

theorem visitBlocks_eq (lanes blocks : Nat) (a : α) :
    visitBlocks visit lanes blocks a = visitInOrder visit lanes (blocks * lanes) a := by
  induction blocks with
  | zero => simp [visitBlocks, visitInOrder]
  | succ blocks ih =>
    have hstep : visitBlocks visit lanes (blocks + 1) a =
        visitBlock visit (blocks * lanes) lanes (visitBlocks visit lanes blocks a) := by
      simp [visitBlocks, List.range_succ]
    rw [hstep, ih, visitBlock_visitInOrder blocks (Nat.le_refl lanes), Nat.succ_mul]

theorem div_mul_add_rest (starts lanes : Nat) :
    starts / lanes * lanes + (starts - starts / lanes * lanes) = starts :=
  Nat.add_sub_cancel' (Nat.div_mul_le_self starts lanes)

theorem rest_lt {lanes : Nat} (hpos : 0 < lanes) (starts : Nat) :
    starts - starts / lanes * lanes < lanes := by
  have := Nat.lt_div_mul_add hpos (a := starts)
  omega

theorem visitAll_eq {lanes : Nat} (hpos : 0 < lanes) (starts : Nat) (a : α) :
    visitAll visit lanes starts a = visitInOrder visit lanes starts a := by
  have hrest := rest_lt hpos starts
  rw [visitAll, visitBlocks_eq, visitBlock_visitInOrder _ (by omega), div_mul_add_rest]

end

/-! ## The counters -/

variable {h : Buffer} {w : Bytes} {lanes : Nat}

/-- What the counters hold after the first `n` offsets: in each lane the occurrences whose offsets
leave it as their remainder, and nothing in the lanes that are not used. -/
structure IsTally (h : Buffer) (w : Bytes) (lanes n : Nat) (acc : Counters) : Prop where
  used : ∀ lane (hlane : lane < maxLanes), lane < lanes →
    acc[lane] = Nat.count (fun start => OccursAt h w start ∧ start % lanes = lane) n
  unused : ∀ lane (hlane : lane < maxLanes), lanes ≤ lane → acc[lane] = 0

/-- Adds to the counter of a lane the hit at an offset. -/
def charge (h : Buffer) (w : Array UInt8) (acc : Counters) (start lane : Nat) : Counters :=
  bump acc lane (hitAt h w start)

theorem afterBlocks_eq_visitBlocks (h : Buffer) (w : Array UInt8) (lanes blocks : Nat) :
    afterBlocks h w lanes blocks =
      visitBlocks (charge h w) lanes blocks (Vector.replicate maxLanes 0) := rfl

theorem counters_eq_visitAll (h : Buffer) (w : Array UInt8) (lanes starts : Nat) :
    counters h w lanes starts =
      visitAll (charge h w) lanes starts (Vector.replicate maxLanes 0) := rfl

theorem getElem_bump (acc : Counters) {lane other : Nat} (hlane : lane < maxLanes)
    (hother : other < maxLanes) (hits : Nat) :
    (bump acc lane hits)[other] = acc[other] + if lane = other then hits else 0 := by
  rw [bump, dif_pos hlane, Vector.getElem_set]
  split
  · next heq => subst heq; rfl
  · rfl

namespace IsTally

theorem zero : IsTally h w lanes 0 (Vector.replicate maxLanes 0) where
  used lane hlane _ := by simp
  unused lane hlane _ := by simp

/-- One more offset at which the string fits. -/
theorem next {n : Nat} {acc : Counters} (hacc : IsTally h w lanes n acc) (hpos : 0 < lanes)
    (hlanes : lanes ≤ maxLanes) (hfits : n + w.length ≤ h.size) :
    IsTally h w lanes (n + 1) (charge h w.toArray acc n (n % lanes)) := by
  have hmod : n % lanes < lanes := Nat.mod_lt n hpos
  refine ⟨fun lane hlane hused => ?_, fun lane hlane hunused => ?_⟩
  · rw [charge, getElem_bump acc (by omega) hlane, hacc.used lane hlane hused, hitAt_eq hfits,
      Nat.count_succ]
    by_cases hoccurs : OccursAt h w n <;> simp [hoccurs]
  · rw [charge, getElem_bump acc (by omega) hlane, hacc.unused lane hlane hunused,
      if_neg (by omega)]

/-- A counter never exceeds the number of offsets that were looked at. -/
theorem getElem_le {n : Nat} {acc : Counters} (hacc : IsTally h w lanes n acc) (lane : Nat)
    (hlane : lane < maxLanes) : acc[lane] ≤ n := by
  rcases Nat.lt_or_ge lane lanes with hused | hunused
  · rw [hacc.used lane hlane hused]
    exact Nat.count_le _
  · rw [hacc.unused lane hlane hunused]
    exact Nat.zero_le n

end IsTally

/-- The counters after the first `n` offsets, one after the other. -/
def tally (h : Buffer) (w : Bytes) (lanes n : Nat) : Counters :=
  visitInOrder (charge h w.toArray) lanes n (Vector.replicate maxLanes 0)

theorem isTally_tally (hpos : 0 < lanes) (hlanes : lanes ≤ maxLanes) {n : Nat}
    (hn : n ≤ candidateStarts h.size w.length) : IsTally h w lanes n (tally h w lanes n) := by
  induction n with
  | zero => exact IsTally.zero
  | succ n ih =>
    rw [tally, visitInOrder_succ]
    exact (ih (by omega)).next hpos hlanes (lt_candidateStarts_iff.1 hn)

theorem afterBlocks_eq_tally (h : Buffer) (w : Bytes) (lanes blocks : Nat) :
    afterBlocks h w.toArray lanes blocks = tally h w lanes (blocks * lanes) := by
  rw [afterBlocks_eq_visitBlocks, visitBlocks_eq, tally]

theorem counters_eq_tally (h : Buffer) (w : Bytes) (hpos : 0 < lanes) (starts : Nat) :
    counters h w.toArray lanes starts = tally h w lanes starts := by
  rw [counters_eq_visitAll, visitAll_eq hpos, tally]

/-- **Counting by remainder.** Whatever is done at an offset, the loops do it once for each start
offset, in ascending order, in the lane that is the remainder of the offset by the number of lanes.
What they do is to add a hit to the counter of the lane. So after any number of full blocks the
counter of a lane is the number of occurrences that the blocks have passed and whose offsets leave
the lane as their remainder, and the counters behind the last lane are zero; and after the shorter
block behind them this holds for all start offsets. The sum of these counters is what the search in
lanes adds to the total. -/
theorem counters_by_remainder (h : Buffer) (p : Pattern) :
    let lanes := laneCount p
    let starts := candidateStarts h.size p.length
    let zero : Counters := Vector.replicate maxLanes 0
    (∀ {α : Type} (visit : α → Nat → Nat → α) (a : α),
      (∀ blocks, visitBlocks visit lanes blocks a =
        (List.range (blocks * lanes)).foldl (fun a start => visit a start (start % lanes)) a) ∧
      visitAll visit lanes starts a =
        (List.range starts).foldl (fun a start => visit a start (start % lanes)) a) ∧
      (∀ blocks, afterBlocks h p.bytes.toArray lanes blocks =
        visitBlocks (charge h p.bytes.toArray) lanes blocks zero) ∧
      counters h p.bytes.toArray lanes starts =
        visitAll (charge h p.bytes.toArray) lanes starts zero ∧
      (∀ blocks, blocks ≤ starts / lanes →
        IsTally h p.bytes lanes (blocks * lanes) (afterBlocks h p.bytes.toArray lanes blocks)) ∧
      IsTally h p.bytes lanes starts (counters h p.bytes.toArray lanes starts) ∧
      (inLanes.run h p).steps =
        [.absorb ((counters h p.bytes.toArray lanes starts).foldl (· + ·) 0)] := by
  intro lanes starts zero
  have hpos : 0 < lanes := laneCount_pos p
  have hlanes : lanes ≤ maxLanes := laneCount_le p
  refine ⟨fun visit a => ⟨fun blocks => visitBlocks_eq lanes blocks a, visitAll_eq hpos starts a⟩,
    afterBlocks_eq_visitBlocks h p.bytes.toArray lanes, counters_eq_visitAll _ _ _ _,
    fun blocks hblocks => ?_, ?_, rfl⟩
  · rw [afterBlocks_eq_tally]
    exact isTally_tally hpos hlanes ((Nat.le_div_iff_mul_le hpos).1 hblocks)
  · rw [counters_eq_tally h p.bytes hpos]
    exact isTally_tally hpos hlanes (Nat.le_refl starts)

/-- In `....abc...abc` the pattern `abc` has eleven start offsets, three full blocks and two more.
It stands at 4, which is in a full block, and at 10, which is behind them, both in lane 1. -/
theorem counters_by_remainder_behind_blocks :
    (afterBlocks #[0x2E, 0x2E, 0x2E, 0x2E, 0x61, 0x62, 0x63, 0x2E, 0x2E, 0x2E, 0x61, 0x62, 0x63]
        #[0x61, 0x62, 0x63] 3 3)[1] = 1 ∧
      (counters #[0x2E, 0x2E, 0x2E, 0x2E, 0x61, 0x62, 0x63, 0x2E, 0x2E, 0x2E, 0x61, 0x62, 0x63]
        #[0x61, 0x62, 0x63] 3 11)[1] = 2 ∧
      (counters #[0x2E, 0x2E, 0x2E, 0x2E, 0x61, 0x62, 0x63, 0x2E, 0x2E, 0x2E, 0x61, 0x62, 0x63]
        #[0x61, 0x62, 0x63] 3 11)[3] = 0 := by
  obtain ⟨-, -, -, hblocks, hall, -⟩ := counters_by_remainder
    #[0x2E, 0x2E, 0x2E, 0x2E, 0x61, 0x62, 0x63, 0x2E, 0x2E, 0x2E, 0x61, 0x62, 0x63]
    ⟨[0x61, 0x62, 0x63], by decide⟩
  refine ⟨?_, ?_, hall.unused 3 (by decide) (by decide)⟩
  · exact ((hblocks 3 (by decide)).used 1 (by decide) (by decide)).trans (by decide)
  · exact (hall.used 1 (by decide) (by decide)).trans (by decide)

end Lanes

end ByteSearch.Search
