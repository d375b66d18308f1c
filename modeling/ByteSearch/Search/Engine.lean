import ByteSearch.Regex.Compiled
import ByteSearch.Regex.Source
import ByteSearch.Search.Strategy

/-!
# Searching with an automaton

The pattern is read as the source text of a regular expression. `Engine.compile` builds its
automaton, or says why not: the text may be refused, or the capacity of the scratch space may be too
small for it. `Engine.scan` reports one match for each offset at which a match ends, in ascending
order, until it has reported as many as it was asked for, or the scratch space runs out. These
offsets come from the expression (`Expr.matchEnds`), and the states of the automaton only say how
far the search gets in its scratch space. What must be known of any automata is in
`Search/Searcher`.

`engine` is the strategy that compiles the pattern and scans with fresh scratch space.
-/

namespace ByteSearch.Search

open ByteSearch.Regex (Budget Compiled Scratch)

namespace Engine

/-- The budget of the engine if nothing else is said: two mebibytes, and no limit to clearing. -/
def standardBudget : Budget :=
  ⟨2 * 1024 * 1024, none⟩

/-- Why a capacity is refused. -/
def capacityTooSmall (capacity minimum : Nat) : String :=
  "given cache capacity (" ++ toString capacity ++ ") is smaller than minimum required (" ++
    toString minimum ++ ")"

/-- Compiles a pattern for searches with a budget. -/
def compile (budget : Budget) (p : Pattern) : Except Failure Compiled :=
  match Regex.compile (Regex.sourceOf p.bytes) with
  | .error r => .error (.refusal p.bytes r.message)
  | .ok c =>
    if c.minimumCapacity ≤ budget.capacity then .ok c
    else .error (.scratchTooSmall budget.capacity
      (capacityTooSmall budget.capacity c.minimumCapacity))

/-- A match that the engine reports. It knows where the match ends, but not where it starts. -/
structure Match where
  pattern : Nat
  start : Option Nat
  stop : Nat
  flags : Nat
  deriving DecidableEq, Repr

/-- The match that ends at an offset. -/
def matchAt (stop : Nat) : Match :=
  ⟨Pattern.identifier, none, stop, 0⟩

/-- How a scan ended. -/
inductive Ending where
  /-- The whole haystack was searched. -/
  | completed
  /-- As many matches as were asked for have been found. -/
  | terminated
  | failed (failure : Failure)
  deriving DecidableEq, Repr

/-- What comes of a scan: the matches, its ending, and the scratch space for the next one. -/
structure Scan (κ : Type) where
  found : List Match
  ending : Ending
  scratch : κ

/-- The end of the match after which a scan is to stop, if there are that many. -/
def lastWanted (ends : List Nat) : Option Nat → Option Nat
  | some (k + 1) => ends[k]?
  | _ => none

/-- Searches a haystack, for at most `limit` matches if there is a limit. A match becomes known when
the search has stepped over the symbol behind its end. -/
def scan (budget : Budget) (c : Compiled) (h : Buffer) (limit : Option Nat) (sc : Scratch) :
    Scan Scratch :=
  let ends := c.expr.matchEnds h
  let last := lastWanted ends limit
  let symbols := last.getD h.size + 1
  let reportBelow (offset : Nat) := (ends.filter (· < offset)).map matchAt
  match sc.search budget c.program h symbols with
  | (sc, some offset) =>
    ⟨reportBelow offset, .failed ((SearchStop.gaveUp offset).failure sc.clears), sc⟩
  | (sc, none) =>
    ⟨reportBelow symbols, if last.isSome then .terminated else .completed, sc⟩

/-- The log target of the strategy. -/
def target : String := "scancore::strategy::engine"

/-- The log entry of a scan that came to its end. -/
def completedEntry (c : Compiled) (sc : Scratch) : Log.Entry :=
  ⟨.debug, target, "engine scan Completed: scratch=" ++ toString (sc.used c.program) ++ " bytes",
    []⟩

end Engine

/-- The strategy that searches with an automaton. -/
def engine (budget : Budget) : Strategy where
  exact := true
  run h p :=
    match Engine.compile budget p with
    | .error f => ⟨[], some f, []⟩
    | .ok c =>
      let scan := Engine.scan budget c h none {}
      let steps := scan.found.map fun m => Step.record ⟨m.stop, m.pattern⟩
      match scan.ending with
      | .failed f => ⟨steps, some f, []⟩
      | _ => ⟨steps, none, [Engine.completedEntry c scan.scratch]⟩

end ByteSearch.Search
