import ByteSearch.Log
import ByteSearch.Search.Failure
import ByteSearch.Search.Pattern
import ByteSearch.Search.Sink

/-!
# Strategies

A strategy searches a haystack for a pattern. What it does is a `Run`: the steps it sends to the
sink, in order, the failure with which it ends, if any, and the entries it writes to the log. A run
does not depend on the sink, so one strategy can serve every sink; `Run.into` sends a run to a sink.

A strategy is *exact* if it claims that its number of matches is the number of occurrences.
-/

namespace ByteSearch.Search

/-- What a strategy does with one haystack and one pattern. -/
structure Run where
  steps : List Step
  failure : Option Failure := none
  log : List Log.Entry := []
  deriving DecidableEq, Repr

namespace Run

/-- The run that records matches at the given offsets and succeeds. -/
def recording (offsets : List Nat) : Run :=
  ⟨offsets.map fun i => .record ⟨i, Pattern.identifier⟩, none, []⟩

/-- The sink after a run. -/
def into {σ : Type} [Sink σ] (r : Run) (s : σ) : σ :=
  Sink.run s r.steps

end Run

/-- A way to search. -/
structure Strategy where
  exact : Bool
  run : Buffer → Pattern → Run

end ByteSearch.Search
