import ByteSearch.Bench.Registry
import ByteSearch.Bench.Report

/-!
# Running a registry

Every strategy of a registry is run on the same haystack and pattern, with a sink of its own, and
what it does is measured. A strategy that fails leaves a result like the others.

The clock is not part of this module: `Measured` is a run together with what its sink counted and
the time that it took. `runWith` takes the times as a function of the place in the registry.
`runInParallelWith` takes the order in which the strategies finish, and still reports in the order
of the registry. Both work with sinks of any kind; `run` and `runInParallel` are those with
counters.
-/

namespace ByteSearch.Bench

open ByteSearch.Search (Counter Pattern Sink)

/-- A run, the number of hits that its own sink counted, and the time that it took. -/
structure Measured where
  run : Search.Run
  hits : Nat
  elapsed : Elapsed

/-- What comes of running a registry. -/
structure Outcome where
  report : Report
  log : List Log.Entry

/-- The log target of this module. -/
def target : String := "scancore::harness"

namespace Measured

/-- The result of a strategy. -/
def result (m : Measured) (e : Entry) : Result where
  name := e.name
  status :=
    match m.run.failure with
    | none => .done
    | some f => .failed f.message
  hits := m.hits
  elapsed := m.elapsed
  exact := e.strategy.exact

/-- What the log says at the end of a run. -/
def closingEntry (m : Measured) (e : Entry) : Log.Entry :=
  match m.run.failure with
  | none =>
    { level := .debug, target
      message := e.name ++ ": " ++ toString m.hits ++ " hits in " ++ m.elapsed.text }
  | some f =>
    { level := .warn, target
      message := e.name ++ " failed after " ++ toString m.hits ++ " hits: " ++ f.message }

/-- What the log says about a run. -/
def log (m : Measured) (e : Entry) : List Log.Entry :=
  m.run.log ++ [m.closingEntry e]

end Measured

/-- A strategy run on a haystack, with a sink of some kind that was empty. -/
def measure (σ : Type) [Sink σ] (h : Buffer) (p : Pattern) (e : Entry) (elapsed : Elapsed) :
    Measured :=
  let run := e.strategy.run h p
  ⟨run, Sink.count (run.into (Sink.empty : σ)), elapsed⟩

/-- The report on runs. -/
def report (h : Buffer) (p : Pattern) (runs : List (Entry × Measured)) : Report :=
  ⟨h.size, p.length, runs.map fun (e, m) => m.result e⟩

/-- What the log says before the strategies run one after the other. -/
def openingEntry (r : Registry) (h : Buffer) (p : Pattern) : Log.Entry :=
  { level := .debug, target
    message := "Running " ++ toString r.size ++ " strategies over " ++ toString h.size ++
      " bytes (pattern " ++ toString p.length ++ " bytes)" }

/-- What the log says before the strategies run at the same time. -/
def parallelOpeningEntry (r : Registry) (threads : Nat) : Log.Entry :=
  { level := .debug, target
    message := "Running " ++ toString r.size ++ " strategies in parallel on " ++
      toString threads ++ " threads" }

/-- What comes of runs that followed one another, one for each strategy. -/
def inSequence (r : Registry) (h : Buffer) (p : Pattern) (runs : List Measured) : Outcome :=
  let runs := r.entries.zip runs
  ⟨report h p runs, openingEntry r h p :: runs.flatMap fun (e, m) => m.log e⟩

/-- What comes of runs at the same time. They are given in the order in which they finished, each
with its place in the registry, and each is reported in that place. -/
def atOnce (r : Registry) (h : Buffer) (p : Pattern) (threads : Nat)
    (finished : List (Nat × Measured)) : Outcome :=
  let runs := finished.filterMap fun (i, m) => r.entries[i]?.map fun e => (i, e, m)
  let places := runs.foldl (fun places (i, run) => places.setIfInBounds i (some run))
    (Array.replicate r.size none)
  ⟨report h p (places.toList.filterMap id),
    parallelOpeningEntry r threads :: runs.flatMap fun (_, e, m) => m.log e⟩

section

variable (σ : Type) [Sink σ] (r : Registry) (h : Buffer) (p : Pattern) (elapsed : Nat → Elapsed)

/-- The run of the strategy in a place of a registry. -/
def measureAt (i : Nat) : Option Measured :=
  r.entries[i]?.map fun e => measure σ h p e (elapsed i)

/-- The strategies of a registry, run one after the other. -/
def runWith : Outcome :=
  inSequence r h p ((List.range r.size).filterMap (measureAt σ r h p elapsed))

/-- The strategies of a registry, run at the same time. They finish in the order of the places in
`finishing`. -/
def runInParallelWith (threads : Nat) (finishing : List Nat) : Outcome :=
  atOnce r h p threads (finishing.filterMap fun i => (measureAt σ r h p elapsed i).map (i, ·))

/-- The strategies of a registry, run one after the other with counters. -/
def run : Outcome :=
  runWith Counter r h p elapsed

/-- The strategies of a registry, run at the same time with counters. -/
def runInParallel (threads : Nat) (finishing : List Nat) : Outcome :=
  runInParallelWith Counter r h p elapsed threads finishing

end

end ByteSearch.Bench
