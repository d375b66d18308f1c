import ByteSearch.Bench.Run
import Mathlib.Data.List.Basic

/-!
# What the runs of a registry report

A strategy has its own result: what a fresh sink counts after its steps alone, and whether it
failed. `ResultOf` says that a result is the one of an entry, the measured time aside. The sink may
be of any kind, with numbers or with words.

* `runWith_results`: strategies that run one after the other leave their own results, in the order
  of the registry.
* `runInParallelWith_results`: so do strategies that run at the same time, whatever the order in
  which they finish.
-/

namespace ByteSearch.Bench

open ByteSearch.Search (Failure Pattern Sink)

/-- The status of a run that ended with a failure, or without one. -/
def Status.ofFailure : Option Failure → Status
  | none => .done
  | some f => .failed f.message

variable (σ : Type) [Sink σ]

/-- The result `x` is that of the entry `e`: its name, whether it claims to be exact, how it ended,
and what a fresh sink counts after its steps alone. -/
structure ResultOf (h : Buffer) (p : Pattern) (e : Entry) (x : Result) : Prop where
  name : x.name = e.name
  exact : x.exact = e.strategy.exact
  status : x.status = .ofFailure (e.strategy.run h p).failure
  hits : x.hits = Sink.count (Sink.run (Sink.empty : σ) (e.strategy.run h p).steps)

/-- The result that an entry has when it is measured. -/
def Entry.result (e : Entry) (h : Buffer) (p : Pattern) (elapsed : Elapsed) : Result :=
  (measure σ h p e elapsed).result e

variable {σ}

theorem Entry.resultOf_result (e : Entry) (h : Buffer) (p : Pattern) (elapsed : Elapsed) :
    ResultOf σ h p e (e.result σ h p elapsed) where
  name := rfl
  exact := rfl
  status := by
    simp only [Entry.result, Measured.result, measure]
    cases (e.strategy.run h p).failure <;> rfl
  hits := rfl

/-! ## One after the other -/

section

variable {α β : Type}

theorem filterMap_range_getElem? (f : Nat → α → β) (l : List α) :
    ((List.range l.length).filterMap fun i => l[i]?.map (f i)) = l.mapIdx f := by
  induction l generalizing f with
  | nil => rfl
  | cons a l ih =>
    rw [List.length_cons, List.range_succ_eq_map, List.filterMap_cons, List.mapIdx_cons,
      List.filterMap_map]
    exact congrArg (f 0 a :: ·) (ih fun i => f (i + 1))

theorem map_mapIdx {γ : Type} (f : Nat → α → β) (g : β → γ) (l : List α) :
    (l.mapIdx f).map g = l.mapIdx fun i a => g (f i a) := by
  apply List.ext_getElem?
  intro i
  simp only [List.getElem?_map, List.getElem?_mapIdx, Option.map_map, Function.comp_def]

theorem zip_mapIdx (f : Nat → α → β) (l : List α) :
    l.zip (l.mapIdx f) = l.mapIdx fun i a => (a, f i a) := by
  apply List.ext_getElem?
  intro i
  rw [List.zip_eq_zipWith, List.getElem?_zipWith, List.getElem?_mapIdx, List.getElem?_mapIdx]
  cases l[i]? <;> rfl

/-- Fills slots, each of which has a place of its own. -/
def fillSlots (slots : Array (Option β)) (runs : List (Nat × β)) : Array (Option β) :=
  runs.foldl (fun slots x => slots.setIfInBounds x.1 (some x.2)) slots

theorem size_fillSlots (slots : Array (Option β)) (runs : List (Nat × β)) :
    (fillSlots slots runs).size = slots.size := by
  induction runs generalizing slots with
  | nil => rfl
  | cons x runs ih => exact (ih _).trans (Array.size_setIfInBounds ..)

theorem getElem?_fillSlots {g : Nat → Option β} {runs : List (Nat × β)}
    (hruns : ∀ x ∈ runs, g x.1 = some x.2) (slots : Array (Option β)) {i : Nat}
    (hi : i < slots.size) :
    (fillSlots slots runs)[i]? = if i ∈ runs.map Prod.fst then some (g i) else slots[i]? := by
  induction runs generalizing slots with
  | nil => simp [fillSlots]
  | cons x runs ih =>
    obtain ⟨k, b⟩ := x
    have hk : g k = some b := hruns (k, b) List.mem_cons_self
    have hstep := ih (fun y hy => hruns y (List.mem_cons_of_mem _ hy))
      (slots.setIfInBounds k (some b)) (by simpa using hi)
    rw [Array.getElem?_setIfInBounds] at hstep
    refine hstep.trans ?_
    rw [List.map_cons]
    by_cases hmem : i ∈ runs.map Prod.fst
    · rw [if_pos hmem, if_pos (List.mem_cons_of_mem _ hmem)]
    · by_cases hik : i = k
      · subst hik
        simp [hmem, hi, hk]
      · simp [hmem, hik, Ne.symm hik]

/-- Slots that are all filled hold what belongs in them, whatever the order. -/
theorem toList_fillSlots {g : Nat → Option β} {runs : List (Nat × β)} {n : Nat}
    (hruns : ∀ x ∈ runs, g x.1 = some x.2) (hall : ∀ i, i < n → i ∈ runs.map Prod.fst) :
    (fillSlots (Array.replicate n none) runs).toList = (List.range n).map g := by
  apply List.ext_getElem?
  intro i
  rw [Array.getElem?_toList, List.getElem?_map]
  by_cases hi : i < n
  · rw [getElem?_fillSlots hruns _ (by simpa using hi), if_pos (hall i hi), List.getElem?_range hi]
    rfl
  · rw [Array.getElem?_eq_none, List.getElem?_eq_none (by simpa using hi)]
    · rfl
    · rw [size_fillSlots, Array.size_replicate]
      omega

end

theorem runWith_results (r : Registry) (h : Buffer) (p : Pattern) (elapsed : Nat → Elapsed) :
    (runWith σ r h p elapsed).report.results =
      r.entries.mapIdx fun i e => e.result σ h p (elapsed i) := by
  have hruns : (List.range r.size).filterMap (measureAt σ r h p elapsed) =
      r.entries.mapIdx fun i e => measure σ h p e (elapsed i) :=
    filterMap_range_getElem? (fun i e => measure σ h p e (elapsed i)) r.entries
  simp only [runWith, inSequence, report, hruns, zip_mapIdx, map_mapIdx]
  rfl

/-! ## At the same time -/

section

variable (σ) (r : Registry) (h : Buffer) (p : Pattern) (elapsed : Nat → Elapsed)

/-- The strategy in a place of a registry, with its run. -/
def measuredEntry (i : Nat) : Option (Entry × Measured) :=
  r.entries[i]?.map fun e => (e, measure σ h p e (elapsed i))

/-- The strategies with their runs, in the order in which they finish. -/
def finishedEntries (finishing : List Nat) : List (Nat × Entry × Measured) :=
  finishing.filterMap fun i => (measuredEntry σ r h p elapsed i).map (i, ·)

theorem filterMap_measureAt (finishing : List Nat) :
    ((finishing.filterMap fun i => (measureAt σ r h p elapsed i).map (i, ·)).filterMap
      fun x : Nat × Measured => r.entries[x.1]?.map fun e => (x.1, e, x.2)) =
      finishedEntries σ r h p elapsed finishing := by
  rw [finishedEntries, List.filterMap_filterMap]
  apply List.filterMap_congr
  intro i _
  simp only [measureAt, measuredEntry]
  cases he : r.entries[i]? <;> simp [he]

end

section

variable {r : Registry} {h : Buffer} {p : Pattern} {elapsed : Nat → Elapsed} {finishing : List Nat}

theorem eq_of_mem_finishedEntries {x : Nat × Entry × Measured}
    (hx : x ∈ finishedEntries σ r h p elapsed finishing) :
    measuredEntry σ r h p elapsed x.1 = some x.2 := by
  obtain ⟨i, -, hi⟩ := List.mem_filterMap.1 hx
  obtain ⟨run, hrun, rfl⟩ := Option.map_eq_some_iff.1 hi
  exact hrun

theorem mem_map_finishedEntries {i : Nat} (hi : i < r.size) (hmem : i ∈ finishing) :
    i ∈ (finishedEntries σ r h p elapsed finishing).map Prod.fst := by
  obtain ⟨run, hrun⟩ : ∃ run, measuredEntry σ r h p elapsed i = some run :=
    ⟨_, congrArg (Option.map _) (List.getElem?_eq_getElem hi)⟩
  refine List.mem_map.2 ⟨(i, run), List.mem_filterMap.2 ⟨i, hmem, ?_⟩, rfl⟩
  rw [hrun, Option.map_some]

/-- Every place is filled once its strategy has finished, with the run of that strategy. -/
theorem runInParallelWith_results (hall : ∀ i, i < r.size → i ∈ finishing) (elapsed : Nat → Elapsed)
    (threads : Nat) :
    (runInParallelWith σ r h p elapsed threads finishing).report.results =
      r.entries.mapIdx fun i e => e.result σ h p (elapsed i) := by
  have hplaces : (fillSlots (Array.replicate r.size none)
      (finishedEntries σ r h p elapsed finishing)).toList =
      (List.range r.size).map (measuredEntry σ r h p elapsed) :=
    toList_fillSlots (fun _ hx => eq_of_mem_finishedEntries hx)
      fun i hi => mem_map_finishedEntries hi (hall i hi)
  have hrange : (List.range r.size).filterMap (measuredEntry σ r h p elapsed) =
      r.entries.mapIdx fun i e => (e, measure σ h p e (elapsed i)) :=
    filterMap_range_getElem? (fun i e => (e, measure σ h p e (elapsed i))) r.entries
  rw [fillSlots] at hplaces
  simp only [runInParallelWith, atOnce, report, filterMap_measureAt, hplaces, List.filterMap_map]
  rw [show id ∘ measuredEntry σ r h p elapsed = measuredEntry σ r h p elapsed from rfl, hrange,
    map_mapIdx]
  rfl

end

end ByteSearch.Bench
