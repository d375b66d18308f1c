import ByteSearch.Search.BruteForce
import ByteSearch.Proofs.Sinks
import Mathlib.Data.Nat.Count

/-!
# Counting occurrences

`occurrenceCount h w` is the number of offsets at which `w` stands in `h`, over all offsets of the
buffer. Brute force looks only at the offsets at which the pattern fits; `length_occurrences` says
that it misses none, and `bruteForce_run` gives its whole run.
-/

namespace ByteSearch.Search

instance (h : Buffer) (w : Bytes) : DecidablePred (OccursAt h w) := fun i =>
  inferInstanceAs (Decidable (i + w.length ≤ h.size ∧ ∀ j, j < w.length → h[i + j]? = w[j]?))

/-- What holds of the bytes of both parts holds of the whole, each byte at its own place. -/
theorem forall_getElem?_append {v w : Bytes} {P : Nat → Option UInt8 → Prop} :
    (∀ j, j < (v ++ w).length → P j (v ++ w)[j]?) ↔
      (∀ j, j < v.length → P j v[j]?) ∧ ∀ j, j < w.length → P (v.length + j) w[j]? := by
  rw [List.length_append]
  constructor
  · intro hall
    refine ⟨fun j hj => ?_, fun j hj => ?_⟩
    · have := hall j (by omega)
      rwa [List.getElem?_append_left hj] at this
    · have := hall (v.length + j) (by omega)
      rwa [List.getElem?_append_right (by omega), Nat.add_sub_cancel_left] at this
  · intro hparts j hj
    rcases Nat.lt_or_ge j v.length with hlt | hge
    · rw [List.getElem?_append_left hlt]
      exact hparts.1 j hlt
    · obtain ⟨k, rfl⟩ := Nat.exists_eq_add_of_le hge
      rw [List.getElem?_append_right hge, Nat.add_sub_cancel_left]
      exact hparts.2 k (by omega)

theorem occursAt_append {h : Buffer} {v w : Bytes} {i : Nat} :
    OccursAt h (v ++ w) i ↔ OccursAt h v i ∧ OccursAt h w (i + v.length) := by
  have hparts := forall_getElem?_append (v := v) (w := w) (P := fun j x => h[i + j]? = x)
  simp only [OccursAt, Nat.add_assoc]
  rw [hparts, List.length_append]
  constructor
  · intro hoccurs
    obtain ⟨hsize, hv, hw⟩ := hoccurs
    exact ⟨⟨by omega, hv⟩, hsize, hw⟩
  · intro hoccurs
    obtain ⟨⟨-, hv⟩, hsize, hw⟩ := hoccurs
    exact ⟨hsize, hv, hw⟩

/-- The slice at an offset is the string just if the string stands there. -/
theorem extract_eq_iff {h : Buffer} {w : Bytes} {start : Nat} (hfits : start + w.length ≤ h.size) :
    h.extract start (start + w.length) = w.toArray ↔ OccursAt h w start := by
  constructor
  · intro heq
    refine ⟨hfits, fun j hj => ?_⟩
    have hj' := congrArg (·[j]?) heq
    simp only [Array.getElem?_extract] at hj'
    rw [if_pos (by omega)] at hj'
    simpa using hj'
  · rintro ⟨-, hall⟩
    apply Array.ext_getElem?
    intro j
    rw [Array.getElem?_extract]
    by_cases hj : j < w.length
    · rw [if_pos (by omega)]
      simpa using hall j hj
    · rw [if_neg (by omega), Array.getElem?_eq_none (by simpa using hj)]

/-- The number of offsets at which a byte string stands. -/
def occurrenceCount (h : Buffer) (w : Bytes) : Nat :=
  Nat.count (OccursAt h w) (h.size + 1)

theorem mem_occurrences {h : Buffer} {w : Bytes} {i : Nat} :
    i ∈ occurrences h w ↔ OccursAt h w i := by
  simp only [occurrences, List.mem_filter, List.mem_range]
  constructor
  · intro hmem
    obtain ⟨hlt, hagree⟩ := hmem
    have hfits := lt_candidateStarts_iff.1 hlt
    exact (agreesAt_iff (by omega)).1 hagree
  · intro hoccurs
    exact ⟨occursAt_lt_candidateStarts hoccurs,
      (agreesAt_iff (by have := hoccurs.1; omega)).2 hoccurs⟩

theorem pairwise_occurrences (h : Buffer) (w : Bytes) :
    (occurrences h w).Pairwise (· < ·) :=
  List.pairwise_lt_range.filter _

/-- Counting further than the pattern fits finds no more occurrences. -/
theorem count_occursAt_eq {h : Buffer} {w : Bytes} {n : Nat}
    (hn : candidateStarts h.size w.length ≤ n) :
    Nat.count (OccursAt h w) n =
      Nat.count (OccursAt h w) (candidateStarts h.size w.length) := by
  obtain ⟨k, rfl⟩ := Nat.exists_eq_add_of_le hn
  rw [Nat.count_add, Nat.add_eq_left, Nat.count_iff_forall_not]
  intro i _ hi
  have := occursAt_lt_candidateStarts hi
  omega

theorem occurrenceCount_eq (h : Buffer) (w : Bytes) :
    occurrenceCount h w =
      Nat.count (OccursAt h w) (candidateStarts h.size w.length) := by
  apply count_occursAt_eq
  unfold candidateStarts
  split <;> omega

theorem occurrenceCount_le_candidateStarts (h : Buffer) (w : Bytes) :
    occurrenceCount h w ≤ candidateStarts h.size w.length := by
  rw [occurrenceCount_eq]
  exact Nat.count_le _

theorem length_occurrences (h : Buffer) (w : Bytes) :
    (occurrences h w).length = occurrenceCount h w := by
  rw [occurrenceCount_eq, Nat.count, List.countP_eq_length_filter]
  apply congrArg List.length
  apply List.filter_congr
  intro i hi
  have hfits := lt_candidateStarts_iff.1 (List.mem_range.1 hi)
  rw [Bool.eq_iff_iff, decide_eq_true_iff, agreesAt_iff (by omega)]

/-- Brute force records one event for each occurrence and succeeds. -/
theorem bruteForce_run (h : Buffer) (p : Pattern) :
    bruteForce.run h p =
      ⟨((occurrences h p.bytes).map fun i => ⟨i, Pattern.identifier⟩).map Step.record,
        none, []⟩ := by
  rw [← Run.steps_recording]
  rfl

theorem ModularSink.count_bruteForce {σ : Type} [Sink σ] [ModularSink σ] (s : σ) (h : Buffer)
    (p : Pattern) :
    Sink.count ((bruteForce.run h p).into s) =
      (Sink.count s + occurrenceCount h p.bytes) % modulus σ := by
  rw [← length_occurrences]
  exact Run.count_recording (occurrences h p.bytes) s

theorem count_bruteForce {σ : Type} [Sink σ] [LawfulSink σ] (s : σ) (h : Buffer) (p : Pattern) :
    Sink.count ((bruteForce.run h p).into s) = Sink.count s + occurrenceCount h p.bytes :=
  (ModularSink.count_bruteForce s h p).trans (Nat.mod_zero _)

end ByteSearch.Search
