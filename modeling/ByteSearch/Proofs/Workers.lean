import ByteSearch.Proofs.RunResults
import Mathlib.Logic.Function.Iterate

/-!
# Strategies at work at the same time

Strategies that run at the same time take turns in any way: a *schedule* lists the places of the
registry in the order in which their strategies make a step each. A step sends the next match or
count to the strategy's own sink; the step after the last one writes the result into the strategy's
own slot. `afterSchedule` follows a schedule, `reportOf` collects the slots in the order
of the registry.

`getElem?_afterSchedule` says that a worker has made just its own steps, and
`Worker.slot_iterate_next` what it has written when these were enough. So no interleaving is visible
in the report (`reportOf_results`).
-/

namespace ByteSearch.Bench

open ByteSearch.Search (Failure Pattern Sink Step)

/-- A strategy at work. -/
structure Worker (σ : Type) where
  entry : Entry
  /-- The steps that it has still to send. -/
  pending : List Step
  /-- How it will end. -/
  failure : Option Failure
  /-- Its own sink. -/
  sink : σ
  /-- Its slot, which is filled when it has finished. -/
  slot : Option Result := none

namespace Worker

/-- A worker before its first step. -/
def start (σ : Type) [Sink σ] (h : Buffer) (p : Pattern) (e : Entry) : Worker σ where
  entry := e
  pending := (e.strategy.run h p).steps
  failure := (e.strategy.run h p).failure
  sink := Sink.empty

variable {σ : Type} [Sink σ]

/-- What a worker that has sent all its steps writes into its slot. -/
def result (w : Worker σ) (elapsed : Elapsed) : Result where
  name := w.entry.name
  status := .ofFailure w.failure
  hits := Sink.count w.sink
  elapsed := elapsed
  exact := w.entry.strategy.exact

theorem result_eq (h : Buffer) (p : Pattern) (e : Entry) (elapsed : Elapsed) :
    ({ start σ h p e with
      pending := [], sink := Sink.run Sink.empty (e.strategy.run h p).steps } : Worker σ).result
        elapsed = e.result σ h p elapsed := by
  simp only [result, start, Entry.result, Measured.result, measure]
  cases (e.strategy.run h p).failure <;> rfl

/-- One step of a worker: it sends what is next to its sink or, with nothing left, finishes. -/
def next (elapsed : Elapsed) (w : Worker σ) : Worker σ :=
  match w.pending with
  | x :: rest => { w with pending := rest, sink := Sink.step w.sink x }
  | [] => { w with slot := some (w.result elapsed) }

/-- As long as steps are left, a worker sends them in order and writes nothing. -/
theorem iterate_next (elapsed : Elapsed) (w : Worker σ) {n : Nat} (hn : n ≤ w.pending.length) :
    (next elapsed)^[n] w =
      { w with pending := w.pending.drop n, sink := Sink.run w.sink (w.pending.take n) } := by
  induction n generalizing w with
  | zero => rfl
  | succ n ih =>
    obtain ⟨entry, pending, failure, sink, slot⟩ := w
    cases pending with
    | nil => simp at hn
    | cons x rest =>
      rw [Function.iterate_succ_apply]
      exact ih ⟨entry, rest, failure, Sink.step sink x, slot⟩ (by simpa using hn)

/-- A worker that has finished writes the same result again. -/
theorem next_of_finished {elapsed : Elapsed} {w : Worker σ} (hdone : w.pending = [])
    (hslot : w.slot = some (w.result elapsed)) : next elapsed w = w := by
  unfold next
  split
  · rename_i hpending
    rw [hdone] at hpending
    cases hpending
  · rw [← hslot]

/-- After more steps than it had to send, the slot holds what the sink counts after all of them. -/
theorem slot_iterate_next (elapsed : Elapsed) (w : Worker σ) {n : Nat} (hn : w.pending.length < n) :
    ((next elapsed)^[n] w).slot =
      some (({ w with
        pending := [], sink := Sink.run w.sink w.pending } : Worker σ).result elapsed) := by
  obtain ⟨k, rfl⟩ := Nat.exists_eq_add_of_lt hn
  rw [show w.pending.length + k + 1 = k + (1 + w.pending.length) by omega,
    Function.iterate_add_apply, Function.iterate_add_apply, iterate_next elapsed w (Nat.le_refl _),
    List.drop_length, List.take_length, Function.iterate_one]
  exact congrArg slot (Function.iterate_fixed (next_of_finished rfl rfl) k)

end Worker

section

variable {σ : Type}

/-- The workers after the steps of a schedule. Places that are not in the registry are idle. -/
def afterSchedule [Sink σ] (elapsed : Nat → Elapsed) (schedule : List Nat)
    (workers : List (Worker σ)) : List (Worker σ) :=
  schedule.foldl (fun workers i => workers.modify i (Worker.next (elapsed i))) workers

/-- The report on what is in the slots. -/
def reportOf (h : Buffer) (p : Pattern) (workers : List (Worker σ)) : Report :=
  ⟨h.size, p.length, workers.filterMap (·.slot)⟩

/-- A schedule under which every strategy finishes: its place occurs more often than it has steps
to send. -/
def Schedule.Complete (r : Registry) (h : Buffer) (p : Pattern) (schedule : List Nat) : Prop :=
  ∀ i, (hi : i < r.entries.length) →
    (r.entries[i].strategy.run h p).steps.length < schedule.count i

instance (r : Registry) (h : Buffer) (p : Pattern) (schedule : List Nat) :
    Decidable (Schedule.Complete r h p schedule) :=
  inferInstanceAs (Decidable (∀ i, (hi : i < r.entries.length) →
    (r.entries[i].strategy.run h p).steps.length < schedule.count i))

/-- The steps of the others leave a worker as it is. -/
theorem getElem?_afterSchedule [Sink σ] (elapsed : Nat → Elapsed) (schedule : List Nat)
    (workers : List (Worker σ)) (i : Nat) :
    (afterSchedule elapsed schedule workers)[i]? =
      workers[i]?.map (Worker.next (elapsed i))^[schedule.count i] := by
  induction schedule generalizing workers with
  | nil => simp [afterSchedule]
  | cons k schedule ih =>
    have hstep := ih (workers.modify k (Worker.next (elapsed k)))
    rw [List.getElem?_modify] at hstep
    refine hstep.trans ?_
    by_cases hik : k = i
    · subst hik
      rw [List.count_cons_self]
      cases workers[k]? with
      | none => rfl
      | some w => simp
    · rw [List.count_cons_of_ne hik]
      cases workers[i]? with
      | none => rfl
      | some w => simp [hik]

theorem reportOf_results [Sink σ] {r : Registry} {h : Buffer} {p : Pattern}
    {schedule : List Nat} (hcomplete : Schedule.Complete r h p schedule)
    (elapsed : Nat → Elapsed) :
    (reportOf h p (afterSchedule elapsed schedule
      (r.entries.map (Worker.start σ h p)))).results =
      r.entries.mapIdx fun i e => e.result σ h p (elapsed i) := by
  have hslots : (afterSchedule elapsed schedule (r.entries.map (Worker.start σ h p))).map (·.slot) =
      (r.entries.mapIdx fun i e => e.result σ h p (elapsed i)).map some := by
    apply List.ext_getElem?
    intro i
    rw [List.getElem?_map, getElem?_afterSchedule, List.getElem?_map, List.getElem?_map,
      List.getElem?_mapIdx]
    cases he : r.entries[i]? with
    | none => rfl
    | some e =>
      obtain ⟨hi, rfl⟩ := List.getElem?_eq_some_iff.1 he
      have hslot := Worker.slot_iterate_next (elapsed i) (Worker.start σ h p r.entries[i])
        (hcomplete i hi)
      simp only [Option.map_some, hslot, Option.some_inj]
      exact Worker.result_eq h p r.entries[i] (elapsed i)
  have hreport := congrArg (List.filterMap id) hslots
  simpa [reportOf, List.filterMap_map, Function.comp_def] using hreport

end

end ByteSearch.Bench
