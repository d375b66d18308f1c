import ByteSearch.Search.Sink

/-!
# Sinks that count in words

The totals of a sink can also be kept in words of 64 bits, which start again at zero where a total
does not fit. A sink with words stands for one with numbers, and as long as the count of the latter
is that of a word both do the same (`WordSink`, `WordSink.numbers_run`).
-/

namespace ByteSearch.Search

/-- A sink that keeps a running total in a word. -/
structure WordCounter where
  hits : UInt64 := 0
  deriving DecidableEq, Repr

instance : Sink WordCounter where
  empty := {}
  step s
    | .record _ => ⟨s.hits + 1⟩
    | .absorb n => ⟨s.hits + UInt64.ofNat n⟩
    | .reset => {}
  count s := s.hits.toNat

/-- A sink that keeps every recorded match in order, and the number of the added ones in a word. -/
structure WordCollector where
  events : Array Event := #[]
  absorbed : UInt64 := 0
  deriving DecidableEq, Repr

instance : Sink WordCollector where
  empty := {}
  step s
    | .record e => { s with events := s.events.push e }
    | .absorb n => { s with absorbed := s.absorbed + UInt64.ofNat n }
    | .reset => {}
  count s := (UInt64.ofNat s.events.size + s.absorbed).toNat

/-- A kind of sinks with words, each of which stands for a sink with numbers. -/
class WordSink (ω : Type) (σ : outParam Type) [Sink ω] [Sink σ] where
  numbers : ω → σ
  numbers_empty : numbers Sink.empty = Sink.empty
  /-- A step does the same if the count behind it fits into a word. -/
  numbers_step (s : ω) (x : Step) :
    Sink.count (Sink.step (numbers s) x) < UInt64.size →
      numbers (Sink.step s x) = Sink.step (numbers s) x
  count_numbers (s : ω) :
    Sink.count (numbers s) < UInt64.size → Sink.count s = Sink.count (numbers s)

theorem toNat_add_ofNat_mod (a : UInt64) (n : Nat) :
    (a + UInt64.ofNat n).toNat = (a.toNat + n) % UInt64.size := by
  rw [UInt64.toNat_add, UInt64.toNat_ofNat', Nat.add_mod_mod, UInt64.size]

theorem toNat_add_ofNat {a : UInt64} {n : Nat} (h : a.toNat + n < UInt64.size) :
    (a + UInt64.ofNat n).toNat = a.toNat + n := by
  rw [toNat_add_ofNat_mod, Nat.mod_eq_of_lt h]

instance : WordSink WordCounter Counter where
  numbers s := ⟨s.hits.toNat⟩
  numbers_empty := rfl
  numbers_step s x hx := by
    cases x with
    | record e => exact congrArg Counter.mk (toNat_add_ofNat hx)
    | absorb n => exact congrArg Counter.mk (toNat_add_ofNat hx)
    | reset => rfl
  count_numbers _ _ := rfl

instance : WordSink WordCollector Collector where
  numbers s := ⟨s.events, s.absorbed.toNat⟩
  numbers_empty := rfl
  numbers_step s x hx := by
    cases x with
    | record e => rfl
    | absorb n =>
      have hsum : s.events.size + (s.absorbed.toNat + n) < UInt64.size := hx
      exact congrArg (Collector.mk s.events) (toNat_add_ofNat (by omega))
    | reset => rfl
  count_numbers s hs := by
    have hsum : s.absorbed.toNat + s.events.size < UInt64.size := by
      rw [Nat.add_comm]
      exact hs
    show (UInt64.ofNat s.events.size + s.absorbed).toNat = s.events.size + s.absorbed.toNat
    rw [UInt64.add_comm, toNat_add_ofNat hsum, Nat.add_comm]

/-- A run does the same if the count fits into a word all the time. -/
theorem WordSink.numbers_run {ω σ : Type} [Sink ω] [Sink σ] [WordSink ω σ] {steps : List Step}
    (s : ω) (hwords : ∀ xs, xs <+: steps → Sink.count (Sink.run (numbers s) xs) < UInt64.size) :
    numbers (Sink.run s steps) = Sink.run (numbers s) steps := by
  induction steps generalizing s with
  | nil => rfl
  | cons x steps ih =>
    have hstep : numbers (Sink.step s x) = Sink.step (numbers s) x :=
      numbers_step s x (hwords [x] ⟨steps, rfl⟩)
    rw [Sink.run_cons, Sink.run_cons, ← hstep]
    refine ih (Sink.step s x) fun xs hxs => ?_
    rw [hstep]
    exact hwords (x :: xs) (List.cons_prefix_cons.2 ⟨rfl, hxs⟩)

end ByteSearch.Search
