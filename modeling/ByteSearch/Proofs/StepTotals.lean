import ByteSearch.Proofs.Sinks
import ByteSearch.Search.Strategy
import ByteSearch.Search.WordSinks
import Mathlib.Algebra.GroupWithZero.Nat
import Mathlib.Data.List.DropRight
import Mathlib.Data.List.Induction
import Mathlib.Data.List.Infix

/-!
# What steps leave in a sink

Only the steps since the last reset count (`sinceReset`). The matches that they record are
`recorded`, and the number of matches that they add without recording them is `added`. `count_run`
says what any steps leave in the count of any sink that counts, and `Collector.run_eq` what they
leave in a collector; both say it of any state of the sink before.

Main statement: `sinks_agree`.
-/

namespace ByteSearch.Search

/-! ## Steps -/

namespace Step

/-- The match that a step records. -/
def event? : Step → Option Event
  | record e => some e
  | _ => none

/-- The number of matches that a step adds without recording them. -/
def hits : Step → Nat
  | absorb n => n
  | _ => 0

end Step

/-- The steps since the last reset. -/
def sinceReset (steps : List Step) : List Step :=
  steps.rtakeWhile (· ≠ .reset)

def recorded (steps : List Step) : List Event :=
  steps.filterMap Step.event?

/-- The number of matches that are added without being recorded. -/
def added (steps : List Step) : Nat :=
  (steps.map Step.hits).sum

def total (steps : List Step) : Nat :=
  (recorded steps).length + added steps

theorem recorded_record (e : Event) : recorded [.record e] = [e] := rfl

theorem recorded_absorb (n : Nat) : recorded [.absorb n] = [] := rfl

theorem added_record (e : Event) : added [.record e] = 0 := rfl

theorem added_absorb (n : Nat) : added [.absorb n] = n := rfl

theorem total_record (e : Event) : total [.record e] = 1 := rfl

theorem total_absorb (n : Nat) : total [.absorb n] = n := Nat.zero_add n

section

variable (steps : List Step)

theorem recorded_append (xs : List Step) : recorded (steps ++ xs) = recorded steps ++ recorded xs :=
  List.filterMap_append

theorem added_append (xs : List Step) : added (steps ++ xs) = added steps + added xs := by
  rw [added, List.map_append, List.sum_append, added, added]

theorem total_append (xs : List Step) : total (steps ++ xs) = total steps + total xs := by
  rw [total, recorded_append, added_append, List.length_append, total, total]
  omega

theorem sinceReset_concat_reset : sinceReset (steps ++ [.reset]) = [] := by
  rw [sinceReset, List.rtakeWhile_concat_neg _ _ _ (by simp)]

theorem sinceReset_concat {x : Step} (hx : x ≠ .reset) :
    sinceReset (steps ++ [x]) = sinceReset steps ++ [x] := by
  rw [sinceReset, List.rtakeWhile_concat_pos _ _ _ (by simpa using hx), sinceReset]

theorem sinceReset_eq_self {steps : List Step} (hsteps : .reset ∉ steps) :
    sinceReset steps = steps :=
  List.rtakeWhile_eq_self_iff.2 fun _ hx => decide_eq_true fun heq => hsteps (heq ▸ hx)

end

/-! ## Sinks -/

section

variable {σ : Type} [Sink σ]

/-- What is left of the state before some steps. -/
def leftOf (s : σ) (steps : List Step) : σ :=
  if .reset ∈ steps then Sink.empty else s

theorem leftOf_empty (steps : List Step) : leftOf (Sink.empty : σ) steps = Sink.empty :=
  ite_self _

theorem leftOf_of_not_mem {steps : List Step} (hsteps : .reset ∉ steps) (s : σ) :
    leftOf s steps = s :=
  if_neg hsteps

theorem leftOf_concat_reset (s : σ) (steps : List Step) :
    leftOf s (steps ++ [.reset]) = Sink.empty :=
  if_pos (List.mem_append_right _ (List.mem_singleton_self _))

theorem leftOf_concat (s : σ) (steps : List Step) {x : Step} (hx : x ≠ .reset) :
    leftOf s (steps ++ [x]) = leftOf s steps := by
  simp [leftOf, hx.symm]

theorem run_concat (s : σ) (steps : List Step) (x : Step) :
    Sink.run s (steps ++ [x]) = Sink.step (Sink.run s steps) x := by
  rw [Sink.run_append, Sink.run_cons, Sink.run_nil]

/-- The count after any steps: what is left of the one before, and the total since the last
reset. -/
theorem count_run [LawfulSink σ] (s : σ) (steps : List Step) :
    Sink.count (Sink.run s steps) = Sink.count (leftOf s steps) + total (sinceReset steps) := by
  induction steps using List.reverseRecOn with
  | nil => rfl
  | append_singleton steps x ih =>
    rw [run_concat]
    cases x with
    | record e =>
      have hx : Step.record e ≠ .reset := nofun
      rw [LawfulSink.count_record, ih, leftOf_concat s steps hx, sinceReset_concat steps hx,
        total_append, total_record, Nat.add_assoc]
    | absorb n =>
      have hx : Step.absorb n ≠ .reset := nofun
      rw [LawfulSink.count_absorb, ih, leftOf_concat s steps hx, sinceReset_concat steps hx,
        total_append, total_absorb, Nat.add_assoc]
    | reset =>
      rw [LawfulSink.count_reset, leftOf_concat_reset, sinceReset_concat_reset,
        LawfulSink.count_empty]
      rfl

theorem count_run_empty [LawfulSink σ] (steps : List Step) :
    Sink.count (Sink.run (Sink.empty : σ) steps) = total (sinceReset steps) := by
  rw [count_run, leftOf_empty, LawfulSink.count_empty, Nat.zero_add]

end

/-- The matches in a collector after any steps: those that are left, and then those that were
recorded since the last reset. What was added has no place among them. -/
theorem Collector.run_eq (s : Collector) (steps : List Step) :
    Sink.run s steps =
      ⟨(leftOf s steps).events ++ (recorded (sinceReset steps)).toArray,
        (leftOf s steps).absorbed + added (sinceReset steps)⟩ := by
  induction steps using List.reverseRecOn with
  | nil =>
    have hempty : leftOf s [] = s := leftOf_of_not_mem List.not_mem_nil s
    rw [hempty]
    exact congrArg (Collector.mk · _) (Array.append_empty ..).symm
  | append_singleton steps x ih =>
    rw [run_concat, ih]
    cases x with
    | record e =>
      have hx : Step.record e ≠ .reset := nofun
      rw [leftOf_concat s steps hx, sinceReset_concat steps hx, recorded_append, added_append]
      simp [Sink.step, recorded_record, added_record]
    | absorb n =>
      have hx : Step.absorb n ≠ .reset := nofun
      rw [leftOf_concat s steps hx, sinceReset_concat steps hx, recorded_append, added_append]
      simp [Sink.step, recorded_absorb, added_absorb, Nat.add_assoc]
    | reset =>
      rw [leftOf_concat_reset, sinceReset_concat_reset]
      rfl

theorem Collector.events_run_empty (steps : List Step) :
    (Sink.run (Sink.empty : Collector) steps).events.toList = recorded (sinceReset steps) := by
  rw [Collector.run_eq, leftOf_empty]
  show (#[] ++ (recorded (sinceReset steps)).toArray).toList = _
  rw [Array.empty_append]

/-! ## Words -/

/-- The totals of all parts in front fit into a word. -/
def FitsWords (steps : List Step) : Prop :=
  ∀ xs, xs <+: steps → total (sinceReset xs) < UInt64.size

instance (steps : List Step) : Decidable (FitsWords steps) :=
  decidable_of_iff (∀ xs ∈ steps.inits, total (sinceReset xs) < UInt64.size)
    (forall_congr' fun _ => by rw [List.mem_inits])

theorem FitsWords.of_prefix {steps xs : List Step} (hwords : FitsWords steps) (hxs : xs <+: steps) :
    FitsWords xs :=
  fun ys hys => hwords ys (hys.trans hxs)

theorem FitsWords.numbers_run {ω σ : Type} [Sink ω] [Sink σ] [LawfulSink σ] [WordSink ω σ]
    {steps : List Step} (hwords : FitsWords steps) :
    WordSink.numbers (Sink.run (Sink.empty : ω) steps) = Sink.run (Sink.empty : σ) steps := by
  have hempty : WordSink.numbers (Sink.empty : ω) = (Sink.empty : σ) := WordSink.numbers_empty
  rw [WordSink.numbers_run, hempty]
  intro xs hxs
  rw [hempty, count_run_empty]
  exact hwords xs hxs

theorem FitsWords.count_run {ω σ : Type} [Sink ω] [Sink σ] [LawfulSink σ] [WordSink ω σ]
    {steps : List Step} (hwords : FitsWords steps) :
    Sink.count (Sink.run (Sink.empty : ω) steps) = total (sinceReset steps) := by
  have hcount : Sink.count (WordSink.numbers (Sink.run (Sink.empty : ω) steps)) =
      total (sinceReset steps) := by
    rw [hwords.numbers_run, count_run_empty]
  rw [WordSink.count_numbers _ (hcount ▸ hwords steps List.prefix_rfl), hcount]

theorem FitsWords.events_run {steps : List Step} (hwords : FitsWords steps) :
    (Sink.run (Sink.empty : WordCollector) steps).events.toList = recorded (sinceReset steps) := by
  rw [← Collector.events_run_empty, ← hwords.numbers_run (ω := WordCollector)]
  rfl

/-- **The sinks agree.** After every step a counter and a collector that were empty have the same
count: the number of matches recorded since the last reset and of those added. The collector holds
just the former, in order. With words it is the same as long as the total fits into one. So a
strategy has the same total in both sinks, whether it succeeds or not. -/
theorem sinks_agree (steps : List Step) :
    (∀ xs, xs <+: steps →
      let counter : Counter := Sink.run Sink.empty xs
      let collector : Collector := Sink.run Sink.empty xs
      Sink.count counter = (recorded (sinceReset xs)).length + added (sinceReset xs) ∧
        Sink.count collector = Sink.count counter ∧
        collector.events.toList = recorded (sinceReset xs)) ∧
      (FitsWords steps → ∀ xs, xs <+: steps →
        let counter : WordCounter := Sink.run Sink.empty xs
        let collector : WordCollector := Sink.run Sink.empty xs
        Sink.count counter = (recorded (sinceReset xs)).length + added (sinceReset xs) ∧
          Sink.count collector = Sink.count counter ∧
          collector.events.toList = recorded (sinceReset xs)) ∧
      ∀ (strategy : Strategy) (h : Buffer) (p : Pattern),
        Sink.count ((strategy.run h p).into (Sink.empty : Counter)) =
            Sink.count ((strategy.run h p).into (Sink.empty : Collector)) ∧
          (FitsWords (strategy.run h p).steps →
            Sink.count ((strategy.run h p).into (Sink.empty : WordCounter)) =
              Sink.count ((strategy.run h p).into (Sink.empty : WordCollector))) := by
  refine ⟨fun xs _ => ⟨count_run_empty xs, ?_, Collector.events_run_empty xs⟩,
    fun hwords xs hxs => ?_, fun strategy h p => ⟨?_, fun hwords => ?_⟩⟩
  · rw [count_run_empty, count_run_empty]
  · have hwords := hwords.of_prefix hxs
    refine ⟨hwords.count_run, ?_, hwords.events_run⟩
    rw [hwords.count_run, hwords.count_run]
  · rw [Run.into, Run.into, count_run_empty, count_run_empty]
  · rw [Run.into, Run.into, hwords.count_run, hwords.count_run]

/-- Matches before and behind a reset, with a total that comes close to the greatest word. -/
theorem sinks_agree_close_to_overflow :
    let steps : List Step := [.absorb 18446744073709551614, .record ⟨3, 0⟩, .reset, .record ⟨5, 0⟩,
      .absorb 18446744073709551612, .record ⟨8, 0⟩]
    FitsWords steps ∧
      Sink.count (Sink.run (Sink.empty : WordCollector) steps) = 18446744073709551614 ∧
      (Sink.run (Sink.empty : WordCollector) steps).events.toList = [⟨5, 0⟩, ⟨8, 0⟩] := by
  intro steps
  have hwords : FitsWords steps := by decide +kernel
  obtain ⟨hcounter, hcollector, hevents⟩ :=
    (sinks_agree steps).2.1 hwords steps List.prefix_rfl
  refine ⟨hwords, ?_, hevents.trans (by decide +kernel)⟩
  rw [hcollector, hcounter]
  decide +kernel

end ByteSearch.Search
