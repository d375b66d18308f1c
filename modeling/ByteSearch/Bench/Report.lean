import ByteSearch.Bench.Elapsed
import ByteSearch.Json

/-!
# Reports

A report holds one result for each strategy that was run, in the order of the registry. `text`
writes it with one line for each result. The columns have a least width; what is longer moves the
rest of the line to the right.
-/

namespace ByteSearch.Bench

/-- Whether a strategy came to its end. -/
inductive Status where
  | done
  | failed (message : String)
  deriving DecidableEq, Repr

namespace Status

/-- Whether the strategy came to its end. -/
def isDone : Status → Bool
  | done => true
  | failed _ => false

/-- The word for a status in the text of a report. -/
def label : Status → String
  | done => "DONE"
  | failed _ => "ERROR"

/-- The text of the failure, if there is one. -/
def message? : Status → Option String
  | done => none
  | failed message => some message

end Status

/-- What one strategy did. The hits of a failed one are those that it found before it failed. -/
structure Result where
  name : String
  status : Status
  hits : Nat
  elapsed : Elapsed
  exact : Bool
  deriving DecidableEq, Repr

/-- The results of one run. -/
structure Report where
  haystackLength : Nat
  patternLength : Nat
  results : List Result
  deriving DecidableEq, Repr

/-- A text with spaces in front, up to a width in characters. -/
def padLeft (width : Nat) (s : List Char) : List Char :=
  List.replicate (width - s.length) ' ' ++ s

namespace Result

/-- Whether a result takes part in the comparison of counts. -/
def counts (r : Result) : Bool :=
  r.exact && r.status.isDone

/-- The measured milliseconds with three places. -/
def millisecondsText (r : Result) : List Char :=
  Number.fixed 3 r.elapsed.milliseconds.value

/-- A result as one line, without the end of the line. -/
def line (r : Result) : List Char :=
  '[' :: (padLeft 24 r.name.toList ++ [':', ' '] ++ padLeft 8 r.status.label.toList ++
    " hit ".toList ++ padLeft 12 (Number.Decimal.digitsOf r.hits) ++
    "] Time measured: ".toList ++ padLeft 10 r.millisecondsText ++ " ms.".toList)

end Result

namespace Report

/-- The first result of a name. -/
def get? (r : Report) (name : String) : Option Result :=
  r.results.find? (·.name == name)

/-- The number of strategies that failed. -/
def failures (r : Report) : Nat :=
  r.results.countP fun x => !x.status.isDone

/-- The results, each on a line of its own. -/
def text (r : Report) : String :=
  String.ofList (r.results.flatMap fun x => x.line ++ ['\n'])

end Report

end ByteSearch.Bench
