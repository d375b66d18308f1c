import ByteSearch.Proofs.StepTotals
import ByteSearch.Proofs.Workers
import Mathlib.Data.List.Forall2

/-!
# Reports do not depend on the order of execution

A registry *yields* a report if its strategies ran one after the other, or at the same time: each of
them in one go and finishing in any order, or taking turns step by step in any way in which all of
them finish.

Main statement: `yielded_results`. Whatever the strategies do, each of them has its own result in
its own place, and all reports of a registry are the same but for the measured times. This holds for
sinks of any kind, with numbers or with words that may start again at zero. If they do not, a run
with counters in words is the run with counters (`runWith_wordCounter`).
-/

namespace ByteSearch.Bench

open ByteSearch.Search (Counter FitsWords Pattern Run Sink WordCounter count_run_empty)

/-- The reports that come of running a registry with sinks of some kind. -/
inductive Yields (σ : Type) [Sink σ] (r : Registry) (h : Buffer) (p : Pattern) : Report → Prop where
  | inSequence (elapsed : Nat → Elapsed) : Yields σ r h p (runWith σ r h p elapsed).report
  /-- The strategies finish in some order. -/
  | atOnce (elapsed : Nat → Elapsed) (threads : Nat) {finishing : List Nat}
      (horder : finishing.Perm (List.range r.size)) :
      Yields σ r h p (runInParallelWith σ r h p elapsed threads finishing).report
  /-- The strategies take turns. -/
  | interleaved (elapsed : Nat → Elapsed) {schedule : List Nat}
      (hcomplete : Schedule.Complete r h p schedule) :
      Yields σ r h p
        (reportOf h p (afterSchedule elapsed schedule (r.entries.map (Worker.start σ h p))))

/-- The report without the measured times. -/
def Report.untimed (rep : Report) : Report :=
  { rep with results := rep.results.map fun x => { x with elapsed := ⟨0⟩ } }

variable {σ : Type} [Sink σ] {r : Registry} {h : Buffer} {p : Pattern} {rep : Report}

/-- A report that a registry yields, up to the measured times. -/
theorem Yields.eq_mapIdx (hrep : Yields σ r h p rep) :
    ∃ elapsed : Nat → Elapsed,
      rep = ⟨h.size, p.length, r.entries.mapIdx fun i e => e.result σ h p (elapsed i)⟩ := by
  cases hrep with
  | inSequence elapsed =>
    exact ⟨elapsed, congrArg (Report.mk h.size p.length) (runWith_results r h p elapsed)⟩
  | atOnce elapsed threads horder =>
    have hall : ∀ i, i < r.size → i ∈ _ := fun i hi => horder.mem_iff.2 (List.mem_range.2 hi)
    have hresults := runInParallelWith_results (σ := σ) (h := h) (p := p) hall elapsed threads
    exact ⟨elapsed, congrArg (Report.mk h.size p.length) hresults⟩
  | interleaved elapsed hcomplete =>
    exact ⟨elapsed, congrArg (Report.mk h.size p.length) (reportOf_results hcomplete elapsed)⟩

theorem Entry.untimed_result (e : Entry) (h : Buffer) (p : Pattern) (elapsed : Elapsed) :
    { e.result σ h p elapsed with elapsed := ⟨0⟩ } = e.result σ h p ⟨0⟩ := rfl

theorem Yields.untimed_eq (hrep : Yields σ r h p rep) :
    rep.untimed = ⟨h.size, p.length, r.entries.map fun e => e.result σ h p ⟨0⟩⟩ := by
  obtain ⟨elapsed, rfl⟩ := hrep.eq_mapIdx
  simp only [Report.untimed, map_mapIdx, Entry.untimed_result]
  refine congrArg (Report.mk h.size p.length) (List.ext_getElem? fun i => ?_)
  rw [List.getElem?_mapIdx, List.getElem?_map]

theorem Yields.forall₂_resultOf (hrep : Yields σ r h p rep) :
    List.Forall₂ (ResultOf σ h p) r.entries rep.results := by
  obtain ⟨elapsed, rfl⟩ := hrep.eq_mapIdx
  rw [List.forall₂_iff_get]
  refine ⟨(List.length_mapIdx ..).symm, fun i h₁ h₂ => ?_⟩
  simp only [List.get_eq_getElem, List.getElem_mapIdx]
  exact Entry.resultOf_result _ h p _

/-! ## Counters in words -/

theorem measure_wordCounter {e : Entry} (hwords : FitsWords (e.strategy.run h p).steps)
    (elapsed : Elapsed) :
    measure WordCounter h p e elapsed = measure Counter h p e elapsed := by
  have hcount : Sink.count ((e.strategy.run h p).into (Sink.empty : WordCounter)) =
      Sink.count ((e.strategy.run h p).into (Sink.empty : Counter)) := by
    rw [Run.into, Run.into, hwords.count_run, count_run_empty]
  exact congrArg (Measured.mk (e.strategy.run h p) · elapsed) hcount

/-- As long as all totals fit into words, words or numbers make no difference. -/
theorem runWith_wordCounter (hwords : ∀ e ∈ r.entries, FitsWords (e.strategy.run h p).steps)
    (elapsed : Nat → Elapsed) :
    runWith WordCounter r h p elapsed = run r h p elapsed := by
  refine congrArg (inSequence r h p) (List.filterMap_congr fun i _ => ?_)
  rw [measureAt, measureAt]
  exact Option.map_congr fun e he => measure_wordCounter (hwords e (List.mem_of_getElem? he)) _

/-! ## Reports -/

/-- **Each strategy has its own result.** Whatever the strategies of a registry do, and in whatever
order they run and finish, a report has one result for each entry, in the order of the registry: its
name, its claim to be exact, how it ended, and what a fresh sink counts after its own steps. But for
the times, all these reports are the one of a sequential run. Sinks of any kind will do, and with
counters in words the hits are those of a word in every case. -/
theorem yielded_results (hrep : Yields σ r h p rep) :
    rep.haystackLength = h.size ∧ rep.patternLength = p.length ∧
      List.Forall₂ (ResultOf σ h p) r.entries rep.results ∧
      ∀ elapsed, rep.untimed = (runWith σ r h p elapsed).report.untimed := by
  refine ⟨?_, ?_, hrep.forall₂_resultOf, fun elapsed => ?_⟩
  · obtain ⟨_, rfl⟩ := hrep.eq_mapIdx
    rfl
  · obtain ⟨_, rfl⟩ := hrep.eq_mapIdx
    rfl
  · rw [hrep.untimed_eq, (Yields.inSequence elapsed).untimed_eq]

/-- Three strategies take turns, with counters in words: one forgets what it found, one of the same
name goes one beyond the greatest word and then fails. -/
theorem yielded_results_taking_turns :
    let r : Registry := ⟨[
      ⟨"scan", true, fun _ _ => ⟨[.record ⟨0, 0⟩, .reset, .absorb 3], none, []⟩⟩,
      ⟨"scan", false,
        fun _ _ => ⟨[.absorb 18446744073709551615, .record ⟨0, 0⟩], some .emptyPattern, []⟩⟩,
      ⟨"naive-scan", Search.bruteForce⟩]⟩
    let p : Pattern := ⟨[0x61], by decide⟩
    (reportOf #[0x61, 0x61] p (afterSchedule (fun i => ⟨i⟩) [1, 0, 2, 0, 1, 0, 2, 1, 0, 2]
      (r.entries.map (Worker.start WordCounter #[0x61, 0x61] p)))).untimed =
      ⟨2, 1, [⟨"scan", .done, 3, ⟨0⟩, true⟩,
        ⟨"scan", .failed "Empty search pattern", 0, ⟨0⟩, false⟩,
        ⟨"naive-scan", .done, 2, ⟨0⟩, true⟩]⟩ := by
  intro r p
  have hcomplete : Schedule.Complete r #[0x61, 0x61] p [1, 0, 2, 0, 1, 0, 2, 1, 0, 2] := by decide
  have hrep : Yields WordCounter r #[0x61, 0x61] p _ := .interleaved (fun i => ⟨i⟩) hcomplete
  rw [(yielded_results hrep).2.2.2 fun _ => ⟨0⟩]
  decide +kernel

end ByteSearch.Bench
