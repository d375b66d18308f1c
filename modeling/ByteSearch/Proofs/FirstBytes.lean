import ByteSearch.Proofs.Occurrences
import ByteSearch.Search.ByteFinder

/-!
# The first byte and the whole pattern

Every occurrence of a pattern begins with the first byte of the pattern. So the start offsets that
brute force finds are those among the positions of that byte at which the rest of the pattern stands
too (`occurrences_eq_filter`), and what brute force records is part of what `firstByte` records, in
the same order. The latter also looks at the end of the haystack, where the pattern does not fit any
more.

Main statement: `firstByte_covers_bruteForce`.
-/

namespace ByteSearch.Search

variable {h : Buffer} {p : Pattern}

theorem bytes_eq_first_cons (p : Pattern) : p.bytes = p.first :: p.bytes.tail :=
  (List.cons_head_tail p.bytes_ne_nil).symm

theorem getElem?_of_occursAt {i : Nat} (hoccurs : OccursAt h p.bytes i) : h[i]? = some p.first := by
  have hfirst := hoccurs.2 0 p.length_pos
  rw [Nat.add_zero] at hfirst
  rw [hfirst, bytes_eq_first_cons p]
  rfl

theorem occursAt_of_length_eq_one (hp : p.length = 1) {i : Nat} (hi : h[i]? = some p.first) :
    OccursAt h p.bytes i := by
  obtain ⟨hlt, -⟩ := Array.getElem?_eq_some_iff.1 hi
  have hlength : p.bytes.length = 1 := hp
  refine ⟨by omega, fun j hj => ?_⟩
  obtain rfl : j = 0 := by omega
  rw [Nat.add_zero, hi, bytes_eq_first_cons p]
  rfl

section

variable {find : ByteFinder} (hfind : find.Lawful)

include hfind

theorem occurrences_eq_filter (h : Buffer) (p : Pattern) :
    occurrences h p.bytes = (find p.first h).filter fun i => OccursAt h p.bytes i := by
  refine (pairwise_occurrences h p.bytes).eq_of_mem_iff ((hfind.ascending p.first h).filter _)
    fun i => ?_
  rw [mem_occurrences, List.mem_filter, decide_eq_true_eq, hfind.mem_iff]
  exact (and_iff_right_of_imp getElem?_of_occursAt).symm

theorem occurrences_sublist (h : Buffer) (p : Pattern) :
    (occurrences h p.bytes).Sublist (find p.first h) := by
  rw [occurrences_eq_filter hfind]
  exact List.filter_sublist

/-- There are as many occurrences as positions of the first byte only if none of these is in
vain. -/
theorem length_occurrences_eq_iff (h : Buffer) (p : Pattern) :
    (occurrences h p.bytes).length = (find p.first h).length ↔
      ∀ i, h[i]? = some p.first → OccursAt h p.bytes i := by
  rw [occurrences_eq_filter hfind, List.length_filter_eq_length_iff]
  exact forall_congr' fun i => by rw [hfind.mem_iff, decide_eq_true_eq]

end

/-- **The first byte and the whole pattern.** With any lawful finder, `firstByte` succeeds and
records one event for each position of the first byte of the pattern, in ascending order. The events
of brute force are part of these, in the same order, so on top of the same sink brute force never
counts more. It counts as much just if the whole pattern stands wherever its first byte does, as
every pattern of one byte does. -/
theorem firstByte_covers_bruteForce {find : ByteFinder} (hfind : find.Lawful) (h : Buffer)
    (p : Pattern) :
    let baseline : Collector := ((firstByteBy find).run h p).into Sink.empty
    let found : Collector := (bruteForce.run h p).into Sink.empty
    ((firstByteBy find).run h p).failure = none ∧ baseline.absorbed = 0 ∧
      (baseline.events.toList.Pairwise fun a b => a.offset < b.offset) ∧
      (∀ event, event ∈ baseline.events ↔ ∃ i, h[i]? = some p.first ∧ event = ⟨i, 0⟩) ∧
      found.events.toList.Sublist baseline.events.toList ∧
      ∀ {σ : Type} [Sink σ] [LawfulSink σ] (s : σ),
        Sink.count ((bruteForce.run h p).into s) ≤
            Sink.count (((firstByteBy find).run h p).into s) ∧
          (Sink.count ((bruteForce.run h p).into s) =
              Sink.count (((firstByteBy find).run h p).into s) ↔
            ∀ i, h[i]? = some p.first →
              i + p.length ≤ h.size ∧ h.extract i (i + p.length) = p.bytes.toArray) ∧
          (p.length = 1 → Sink.count ((bruteForce.run h p).into s) =
            Sink.count (((firstByteBy find).run h p).into s)) := by
  intro baseline found
  have hbaseline : baseline = _ := Run.recording_collects (find p.first h)
  have hfound : found = _ := Run.recording_collects (occurrences h p.bytes)
  refine ⟨rfl, ?_, ?_, fun event => ?_, ?_, fun {σ} _ _ s => ?_⟩
  · rw [hbaseline]
  · rw [hbaseline, List.pairwise_map]
    exact hfind.ascending p.first h
  · rw [hbaseline, List.mem_toArray, List.mem_map]
    refine exists_congr fun i => ?_
    rw [hfind.mem_iff]
    exact and_congr_right fun _ => eq_comm
  · rw [hbaseline, hfound]
    exact (occurrences_sublist hfind h p).map _
  · have hiff := length_occurrences_eq_iff hfind h p
    have hle := (occurrences_sublist hfind h p).length_le
    have hcount : Sink.count (((firstByteBy find).run h p).into s) = _ :=
      (Run.count_recording (find p.first h) s).trans (Nat.mod_zero _)
    rw [count_bruteForce, hcount, ← length_occurrences, Nat.add_left_cancel_iff, hiff]
    refine ⟨Nat.add_le_add_left hle _, forall₂_congr fun i _ => ?_, fun hp i hi => ?_⟩
    · constructor
      · intro hoccurs
        exact ⟨hoccurs.1, (extract_eq_iff hoccurs.1).2 hoccurs⟩
      · rintro ⟨hfits, hslice⟩
        exact (extract_eq_iff hfits).1 hslice
    · exact occursAt_of_length_eq_one hp hi

/-- In `aXaYa` the first byte of `aX` stands three times, the last time where the pattern does not
fit, and the pattern stands once. -/
theorem firstByte_covers_bruteForce_once :
    ((firstByte.run #[0x61, 0x58, 0x61, 0x59, 0x61] ⟨[0x61, 0x58], by decide⟩).into
        (Sink.empty : Collector)).events = #[⟨0, 0⟩, ⟨2, 0⟩, ⟨4, 0⟩] ∧
      Sink.count ((bruteForce.run #[0x61, 0x58, 0x61, 0x59, 0x61] ⟨[0x61, 0x58], by decide⟩).into
          (⟨7⟩ : Counter)) <
        Sink.count ((firstByte.run #[0x61, 0x58, 0x61, 0x59, 0x61] ⟨[0x61, 0x58], by decide⟩).into
          (⟨7⟩ : Counter)) := by
  obtain ⟨-, -, -, -, -, hcounts⟩ := firstByte_covers_bruteForce lawful_positionsOf
    #[0x61, 0x58, 0x61, 0x59, 0x61] ⟨[0x61, 0x58], by decide⟩
  obtain ⟨hle, hiff, -⟩ := hcounts (⟨7⟩ : Counter)
  rw [firstByteBy_positionsOf] at hle hiff
  refine ⟨by decide, Nat.lt_of_le_of_ne hle fun heq => ?_⟩
  exact absurd (hiff.1 heq 4 (by decide)).1 (by decide)

end ByteSearch.Search
