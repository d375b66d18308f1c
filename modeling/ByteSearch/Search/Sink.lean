/-!
# Sinks

A sink receives what a scan finds. A scan speaks to its sink in steps: it records a match, it adds a
number of matches that it counted itself, or it empties the sink. Two sinks are provided:

* `Counter` keeps the total only;
* `Collector` keeps every recorded match, and the number of added ones.

`run` sends a list of steps to a sink.
-/

namespace ByteSearch.Search

/-- One match: an offset in the haystack and the pattern that matched. -/
structure Event where
  offset : Nat
  pattern : Nat
  deriving DecidableEq, Repr

/-- What a scan tells its sink. -/
inductive Step where
  /-- One match. -/
  | record (event : Event)
  /-- Matches that were counted outside the sink. A sink that counts in words takes their number as
  a word. -/
  | absorb (hits : Nat)
  /-- Forget everything. -/
  | reset
  deriving DecidableEq, Repr

/-- A destination for the matches of a scan. -/
class Sink (σ : Type) where
  /-- The sink before any step. -/
  empty : σ
  /-- The sink after one step. -/
  step : σ → Step → σ
  /-- The number of matches seen since the sink was last empty. -/
  count : σ → Nat

namespace Sink

/-- The sink after a list of steps. -/
def run {σ : Type} [Sink σ] (s : σ) (steps : List Step) : σ :=
  steps.foldl step s

@[simp] theorem run_nil {σ : Type} [Sink σ] (s : σ) : run s [] = s := rfl

@[simp] theorem run_cons {σ : Type} [Sink σ] (s : σ) (x : Step) (steps : List Step) :
    run s (x :: steps) = run (step s x) steps := rfl

@[simp] theorem run_append {σ : Type} [Sink σ] (s : σ) (xs ys : List Step) :
    run s (xs ++ ys) = run (run s xs) ys :=
  List.foldl_append

end Sink

/-- A sink that keeps a running total. -/
structure Counter where
  hits : Nat := 0
  deriving DecidableEq, Repr

instance : Sink Counter where
  empty := {}
  step s
    | .record _ => ⟨s.hits + 1⟩
    | .absorb n => ⟨s.hits + n⟩
    | .reset => {}
  count s := s.hits

/-- A sink that keeps every recorded match in order. -/
structure Collector where
  events : Array Event := #[]
  absorbed : Nat := 0
  deriving DecidableEq, Repr

namespace Collector

/-- The offsets of the recorded matches. -/
def offsets (s : Collector) : List Nat :=
  s.events.toList.map (·.offset)

end Collector

instance : Sink Collector where
  empty := {}
  step s
    | .record e => { s with events := s.events.push e }
    | .absorb n => { s with absorbed := s.absorbed + n }
    | .reset => {}
  count s := s.events.size + s.absorbed

end ByteSearch.Search
