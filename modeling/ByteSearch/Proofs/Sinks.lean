import ByteSearch.Search.Strategy
import ByteSearch.Search.WordSinks

/-!
# Sinks that count

A sink *counts* if recording one match raises its count by one, adding matches that were counted
elsewhere raises it by their number, and forgetting takes it back to zero. The sinks with numbers
count (`Counter`, `Collector`), so what a run leaves in their counts depends on its steps alone.

The sinks with words do so as long as the count fits into a word, and start again at zero where it
does not: they count up to multiples of a modulus (`ModularSink`). Sinks with numbers are those
whose modulus is zero.

* `ModularSink.count_run_record`, `count_run_record`: a run that only records raises the count by
  the number of its matches.
* `Collector.run_record`: a collector keeps them in order behind what it already holds.
* `Run.count_recording`, `Run.recording_collects`: the same for a run that records matches at a list
  of offsets.
-/

namespace ByteSearch.Search

/-- A sink whose count follows the steps, however far it gets. -/
class LawfulSink (σ : Type) [Sink σ] : Prop where
  count_empty : Sink.count (Sink.empty : σ) = 0
  count_record (s : σ) (e : Event) : Sink.count (Sink.step s (.record e)) = Sink.count s + 1
  count_absorb (s : σ) (n : Nat) : Sink.count (Sink.step s (.absorb n)) = Sink.count s + n
  count_reset (s : σ) : Sink.count (Sink.step s .reset) = 0

instance : LawfulSink Counter where
  count_empty := rfl
  count_record _ _ := rfl
  count_absorb _ _ := rfl
  count_reset _ := rfl

instance : LawfulSink Collector where
  count_empty := rfl
  count_record s e := by
    simp only [Sink.count, Sink.step, Array.size_push]
    omega
  count_absorb s n := by
    simp only [Sink.count, Sink.step]
    omega
  count_reset _ := rfl

/-! ## Counting up to multiples of a modulus -/

/-- A sink whose count follows the steps, but starts again at zero where it comes to the modulus. If
the modulus is zero it never does. -/
class ModularSink (σ : Type) [Sink σ] where
  modulus : Nat
  count_mod (s : σ) : Sink.count s % modulus = Sink.count s
  count_record (s : σ) (e : Event) :
    Sink.count (Sink.step s (.record e)) = (Sink.count s + 1) % modulus
  count_absorb (s : σ) (n : Nat) :
    Sink.count (Sink.step s (.absorb n)) = (Sink.count s + n) % modulus

/-- A sink that counts never starts again. -/
instance {σ : Type} [Sink σ] [LawfulSink σ] : ModularSink σ where
  modulus := 0
  count_mod _ := Nat.mod_zero _
  count_record s e := (LawfulSink.count_record s e).trans (Nat.mod_zero _).symm
  count_absorb s n := (LawfulSink.count_absorb s n).trans (Nat.mod_zero _).symm

instance : ModularSink WordCounter where
  modulus := UInt64.size
  count_mod s := Nat.mod_eq_of_lt s.hits.toNat_lt
  count_record s _ := toNat_add_ofNat_mod s.hits 1
  count_absorb s n := toNat_add_ofNat_mod s.hits n

instance : ModularSink WordCollector where
  modulus := UInt64.size
  count_mod s := Nat.mod_eq_of_lt (UInt64.toNat_lt _)
  count_record s e := by
    show (UInt64.ofNat (s.events.push e).size + s.absorbed).toNat = _
    rw [Array.size_push, UInt64.ofNat_add, UInt64.add_assoc, UInt64.add_comm (UInt64.ofNat 1),
      ← UInt64.add_assoc]
    exact toNat_add_ofNat_mod _ 1
  count_absorb s n := by
    show (UInt64.ofNat s.events.size + (s.absorbed + UInt64.ofNat n)).toNat = _
    rw [← UInt64.add_assoc]
    exact toNat_add_ofNat_mod _ n

theorem ModularSink.count_run_record {σ : Type} [Sink σ] [ModularSink σ] (s : σ)
    (events : List Event) :
    Sink.count (Sink.run s (events.map Step.record)) =
      (Sink.count s + events.length) % modulus σ := by
  induction events generalizing s with
  | nil => exact (count_mod s).symm
  | cons e events ih =>
    rw [List.map_cons, Sink.run_cons, ih, ModularSink.count_record, Nat.mod_add_mod,
      List.length_cons, Nat.add_assoc, Nat.add_comm 1]

theorem count_run_record {σ : Type} [Sink σ] [LawfulSink σ] (s : σ) (events : List Event) :
    Sink.count (Sink.run s (events.map Step.record)) = Sink.count s + events.length :=
  (ModularSink.count_run_record s events).trans (Nat.mod_zero _)

/-! ## Collectors -/

/-- What is recorded comes behind what the collector holds, and nothing is added to the rest. -/
theorem Collector.run_record (s : Collector) (events : List Event) :
    Sink.run s (events.map Step.record) = { s with events := s.events ++ events.toArray } := by
  induction events generalizing s with
  | nil => simp
  | cons e events ih =>
    rw [List.map_cons, Sink.run_cons, ih]
    simp [Sink.step]

/-! ## Runs that only record -/

namespace Run

theorem steps_recording (offsets : List Nat) :
    (recording offsets).steps =
      (offsets.map fun i => ⟨i, Pattern.identifier⟩).map Step.record := by
  rw [List.map_map]
  rfl

theorem count_recording {σ : Type} [Sink σ] [ModularSink σ] (offsets : List Nat) (s : σ) :
    Sink.count ((recording offsets).into s) =
      (Sink.count s + offsets.length) % ModularSink.modulus σ := by
  rw [into, steps_recording, ModularSink.count_run_record, List.length_map]

/-- A collector that was empty holds just the recorded matches. -/
theorem recording_collects (offsets : List Nat) :
    (recording offsets).into (Sink.empty : Collector) =
      ⟨(offsets.map fun i => ⟨i, Pattern.identifier⟩).toArray, 0⟩ := by
  rw [into, steps_recording, Collector.run_record]
  exact congrArg (Collector.mk · 0) (Array.empty_append ..)

end Run

end ByteSearch.Search
