import ByteSearch.Proofs.Occurrences
import ByteSearch.Search.NestedLoops

/-!
# What brute force records

Brute force is written as a filter over the start offsets, and as a loop within a loop
(`NestedLoops`). Both come to the same (`NestedLoops.steps_eq`): the inner loop records a match just
if the pattern stands at the start offset (`NestedLoops.compareFrom_eq`), and it never reads behind
the end of the haystack, because the outer loop stops where the pattern does not fit any more.

Main statement: `bruteForce_records`.
-/

namespace ByteSearch.Search

namespace NestedLoops

variable {h : Buffer}

/-- The inner loop from some place of the pattern on. It is at the last byte exactly if no other is
left, and so it records a match just if all bytes that are left agree. -/
theorem compareFrom_eq {last start j : Nat} {b : UInt8} {bytes : Bytes}
    (hlast : last = j + bytes.length) (hfits : start + last < h.size) (steps : List Step) :
    compareFrom h last start j (b :: bytes) steps =
      some (steps ++ if agreesAt h (b :: bytes) (start + j) then
        [.record ⟨start, Pattern.identifier⟩] else []) := by
  induction bytes generalizing j b with
  | nil =>
    -- the last place is reached before the inner loop is left, and so the match is recorded
    obtain rfl : last = j := hlast
    have hread : h[start + last]? = some h[start + last] := Array.getElem?_eq_getElem hfits
    rw [compareFrom, hread, agreesAt, hread]
    by_cases hb : b = h[start + last]
    · simp [hb, compareFrom, agreesAt]
    · simp [hb, Ne.symm hb]
  | cons c bytes ih =>
    rw [List.length_cons] at hlast
    have hlt : start + j < h.size := by omega
    have hread : h[start + j]? = some h[start + j] := Array.getElem?_eq_getElem hlt
    have hnext := ih (j := j + 1) (b := c) (by omega)
    rw [compareFrom, hread, agreesAt, hread]
    by_cases hb : b = h[start + j]
    · have hbefore : j ≠ last := by omega
      simp [hb, hbefore, hnext, Nat.add_assoc]
    · simp [hb, Ne.symm hb]

/-- The outer loop over start offsets at which the pattern fits. -/
theorem foldlM_compareFrom {p : Pattern} {starts : List Nat}
    (hstarts : ∀ start ∈ starts, start + p.length ≤ h.size) (steps : List Step) :
    starts.foldlM (fun steps start => compareFrom h (p.length - 1) start 0 p.bytes steps) steps =
      some (steps ++ (starts.filter (agreesAt h p.bytes)).map fun i =>
        .record ⟨i, Pattern.identifier⟩) := by
  induction starts generalizing steps with
  | nil => simp
  | cons start starts ih =>
    rw [List.forall_mem_cons] at hstarts
    obtain ⟨b, bytes, hbytes⟩ := List.exists_cons_of_ne_nil p.bytes_ne_nil
    have hlength : p.length = bytes.length + 1 := congrArg List.length hbytes
    have hinner : compareFrom h (p.length - 1) start 0 (b :: bytes) steps = _ :=
      compareFrom_eq (by omega) (by omega) steps
    rw [Nat.add_zero, ← hbytes] at hinner
    rw [List.foldlM_cons, hinner]
    show starts.foldlM _ _ = _
    rw [ih hstarts.2, List.append_assoc]
    by_cases hagree : agreesAt h p.bytes start <;> simp [hagree]

/-- The two loops record what brute force does, and never read behind the end of the haystack. -/
theorem steps_eq (h : Buffer) (p : Pattern) : steps h p = some (bruteForce.run h p).steps := by
  have hfits : ∀ start ∈ List.range (candidateStarts h.size p.length),
      start + p.length ≤ h.size := fun start hstart =>
    lt_candidateStarts_iff.1 (List.mem_range.1 hstart)
  exact foldlM_compareFrom hfits []

end NestedLoops

/-- A collector that was empty holds one event for each occurrence. -/
theorem bruteForce_collects (h : Buffer) (p : Pattern) :
    (bruteForce.run h p).into (Sink.empty : Collector) =
      ⟨((occurrences h p.bytes).map fun i => ⟨i, Pattern.identifier⟩).toArray, 0⟩ :=
  Run.recording_collects (occurrences h p.bytes)

/-- **What brute force records.** On every haystack and for every pattern it succeeds, and a
collector that was empty then holds one event for each offset at which the slice of the haystack is
the pattern, in strictly ascending order, and nothing else. The loops within each other send the
sink the same steps. -/
theorem bruteForce_records (h : Buffer) (p : Pattern) :
    let run := bruteForce.run h p
    let found : Collector := run.into Sink.empty
    NestedLoops.steps h p = some run.steps ∧ run.failure = none ∧
      run.steps = found.events.toList.map Step.record ∧ found.absorbed = 0 ∧
      (found.events.toList.Pairwise fun a b => a.offset < b.offset) ∧
      (∀ event, found.events.toList.count event ≤ 1) ∧
      ∀ event, event ∈ found.events ↔ ∃ i, i + p.length ≤ h.size ∧
        h.extract i (i + p.length) = p.bytes.toArray ∧ event = ⟨i, 0⟩ := by
  intro run found
  have hfound : found = _ := bruteForce_collects h p
  have hascending : found.events.toList.Pairwise fun a b => a.offset < b.offset := by
    rw [hfound, List.pairwise_map]
    exact pairwise_occurrences h p.bytes
  refine ⟨NestedLoops.steps_eq h p, rfl, ?_, ?_, hascending, fun event => ?_, fun event => ?_⟩
  · rw [hfound]
    exact congrArg Run.steps (bruteForce_run h p)
  · rw [hfound]
  · have hnodup : found.events.toList.Nodup :=
      hascending.imp fun hlt heq => Nat.ne_of_lt hlt (congrArg Event.offset heq)
    exact List.nodup_iff_count_le_one.1 hnodup event
  · rw [hfound, List.mem_toArray, List.mem_map]
    refine exists_congr fun i => ?_
    rw [mem_occurrences]
    constructor
    · rintro ⟨hoccurs, rfl⟩
      exact ⟨hoccurs.1, (extract_eq_iff hoccurs.1).2 hoccurs, rfl⟩
    · rintro ⟨hfits, hslice, rfl⟩
      exact ⟨(extract_eq_iff hfits).1 hslice, rfl⟩

/-- Overlapping occurrences of `aa` in `aaaa`. -/
example : (bruteForce.run #[0x61, 0x61, 0x61, 0x61] ⟨[0x61, 0x61], by decide⟩).into Sink.empty =
    (⟨#[⟨0, 0⟩, ⟨1, 0⟩, ⟨2, 0⟩], 0⟩ : Collector) := by
  decide

end ByteSearch.Search
