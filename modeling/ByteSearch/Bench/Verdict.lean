import ByteSearch.Bench.Report

/-!
# Verdicts

The exact strategies that came to their end should have found the same number of hits. A verdict
says whether they did. Results of other strategies have no influence on it.
-/

namespace ByteSearch.Bench

/-- Whether the exact strategies agree. -/
inductive Verdict where
  /-- All exact strategies found the same number of hits. -/
  | agreed (hits strategies : Nat)
  /-- At least two of them differ. Lists all of them. -/
  | divergent (counts : List (String × Nat))
  /-- No exact strategy came to its end. -/
  | unchecked
  deriving DecidableEq, Repr

/-- The names and hits of the exact strategies that came to their end. -/
def Report.exactCounts (r : Report) : List (String × Nat) :=
  (r.results.filter (·.counts)).map fun x => (x.name, x.hits)

/-- The verdict on a list of counts. -/
def Verdict.ofCounts (counts : List (String × Nat)) : Verdict :=
  match counts with
  | [] => .unchecked
  | (_, first) :: _ =>
    if counts.all fun c => c.2 == first then .agreed first counts.length else .divergent counts

/-- The verdict on a report. -/
def Report.verdict (r : Report) : Verdict :=
  .ofCounts r.exactCounts

end ByteSearch.Bench
