import ByteSearch.Bench.Render
import ByteSearch.Bench.Run
import ByteSearch.Cli.LogFilter
import ByteSearch.Cli.Options
import ByteSearch.Cli.SystemCalls

/-!
# Sessions

A session is one run of the program: from the arguments to the exit code and to what is written to
standard output and standard error. It has three parts. `prepare` reads the arguments and loads the
input file; the strategies run; and `Plan.finish` reports what they found. `run` puts the parts
together. What lies outside the program, the system and the clock among it, are `Surroundings`.

Standard output holds the report, or the usage text. In front of a report that is not JSON stands a
line with the number of bytes. The log and all failures go to standard error. The code is 0 for a
run and for help, 2 if the command line is refused, and 1 for any other failure. A strategy that
fails does not change it.
-/

namespace ByteSearch.Cli

/-- What a session leaves. Standard error is given line by line. -/
structure Exit where
  code : Nat
  stdout : String
  stderr : List String
  deriving DecidableEq, Repr

/-- What a session depends on besides its arguments. -/
structure Surroundings where
  system : System
  filter : LogFilter
  /-- The time that the strategy in some place of the registry takes. -/
  elapsed : Nat → Bench.Elapsed
  /-- The number of threads for strategies that run at the same time. -/
  threads : Nat
  /-- The order in which a number of strategies finish that run at the same time. -/
  finishing : Nat → List Nat

/-- The lines of a text. -/
def linesOf (s : String) : List String :=
  s.splitOn "\n"

/-! ## Failures -/

/-- Why a session fails after its command line has been read. -/
inductive SessionFailure where
  | options (fault : OptionFault)
  | input (location : Bytes) (failure : InputFailure)
  deriving DecidableEq, Repr

/-- The text of a failure, followed by the texts of its causes. -/
def SessionFailure.chain : SessionFailure → List String
  | options fault => [fault.message]
  | input location failure =>
    ["Failed to load input " ++ InputFailure.named location, failure.message] ++
      failure.cause?.toList.map (·.message)

/-- The lines of a text behind a label. All but the first are indented as far as the first. -/
def labelled (label : String) (s : String) : List String :=
  match linesOf s with
  | [] => [label]
  | first :: rest =>
    (label ++ first) :: rest.map (String.ofList (List.replicate label.length ' ') ++ ·)

/-- The lines that show a failure with its causes. Several causes are numbered. -/
def failureLines : List String → List String
  | [] => []
  | [text] => linesOf ("Error: " ++ text)
  | [text, cause] => linesOf ("Error: " ++ text) ++ ["", "Caused by:"] ++ labelled "    " cause
  | text :: causes =>
    linesOf ("Error: " ++ text) ++ ["", "Caused by:"] ++
      (causes.mapIdx fun i cause => labelled ("    " ++ toString i ++ ": ") cause).flatten

/-! ## The log -/

/-- A character of a log entry. What a terminal could take for a command is escaped. -/
def logChar (c : Char) : List Char :=
  let n := c.toNat
  if n = 0x1B ∨ n = 0x07 ∨ n = 0x08 ∨ n = 0x0C ∨ n = 0x7F then
    (Bytes.hexEscape (UInt8.ofNat n)).map Char.toLower
  else if 0x80 ≤ n ∧ n ≤ 0x9F then Text.codePointEscape c
  else [c]

/-- An entry with a message that a terminal shows as it is. -/
def visible (e : Log.Entry) : Log.Entry :=
  { e with message := String.ofList (e.message.toList.flatMap logChar) }

/-- The lines of the entries that a filter shows. -/
def logLines (filter : LogFilter) (log : List Log.Entry) : List String :=
  (log.filter filter.shows).flatMap fun e => linesOf (visible e).line

/-- The log target of this module. -/
def target : String := "scanbench"

/-! ## Plans -/

/-- What is to be done. -/
structure Plan where
  options : Options
  registry : Bench.Registry
  input : InputFile

namespace Plan

/-- What the log says before the strategies run. -/
def openingLog (plan : Plan) : List Log.Entry :=
  [{ level := .debug, target
     message := "Mapped " ++ Utf8.lossy plan.input.path ++ " (" ++ plan.input.debug ++ ")" },
   { level := .info, target
     message := "Scanning " ++ toString plan.input.length ++ " bytes of " ++
      Utf8.lossy plan.input.location ++ " for " ++ plan.options.pattern.text ++ " with " ++
      toString plan.registry.size ++ " strategies" }]

/-- Counts with their names as a list. -/
def countsText (counts : List (String × Nat)) : String :=
  "[" ++ ", ".intercalate (counts.map fun (name, hits) =>
    "(" ++ Text.quote name ++ ", " ++ toString hits ++ ")") ++ "]"

/-- What the log says about a verdict. -/
def verdictEntry : Bench.Verdict → Log.Entry
  | .agreed hits strategies =>
    { level := .info, target
      message := toString strategies ++ " exact strategies agree on " ++ toString hits ++ " hits" }
  | .divergent counts =>
    { level := .warn, target, message := "Exact strategies disagree: " ++ countsText counts }
  | .unchecked => { level := .debug, target, message := "No exact strategy completed" }

/-- What the log says after the strategies have run. -/
def closingLog (report : Bench.Report) : List Log.Entry :=
  verdictEntry report.verdict ::
    (if report.failures = 0 then []
    else [{ level := .warn, target
            message := toString report.failures ++ " strategies failed" }])

/-- The end of a session, given what came of the strategies. -/
def finish (filter : LogFilter) (plan : Plan) (outcome : Bench.Outcome) : Exit where
  code := 0
  stdout :=
    (if plan.options.json then "" else "Scanning " ++ toString plan.input.length ++ " bytes\n") ++
      outcome.report.render plan.options.json
  stderr := logLines filter (plan.openingLog ++ outcome.log ++ closingLog outcome.report)

/-- What comes of the strategies of a plan. -/
def outcome (w : Surroundings) (plan : Plan) : Bench.Outcome :=
  let h := plan.input.content
  let p := plan.options.pattern
  if plan.options.parallel then
    Bench.runInParallel plan.registry h p w.elapsed w.threads (w.finishing plan.registry.size)
  else Bench.run plan.registry h p w.elapsed

end Plan

/-! ## Sessions -/

/-- The end of a session that fails. -/
def SessionFailure.exit (failure : SessionFailure) : Exit :=
  ⟨1, "", failureLines failure.chain⟩

/-- The plan of options, if their strategies are known and their file can be loaded. -/
def plan (system : System) (o : Options) : Except SessionFailure Plan :=
  match o.registry with
  | .error fault => .error (.options fault)
  | .ok registry =>
    match InputFile.loadBy system o.input with
    | .error failure => .error (.input o.input failure)
    | .ok input => .ok ⟨o, registry, input⟩

/-- The plan of a command line, or the end of the session. -/
def prepare (system : System) (arguments : List Bytes) : Except Exit Plan :=
  match parse arguments with
  | .error fault => .error ⟨2, "", linesOf ("error: " ++ fault.message) ++ "" :: linesOf usage⟩
  | .ok .help => .error ⟨0, usage ++ "\n", []⟩
  | .ok (.run o) =>
    match plan system o with
    | .error failure => .error failure.exit
    | .ok plan => .ok plan

/-- A whole session in which other strategies run in place of those that are asked for. -/
def runWith (exchange : Bench.Registry → Bench.Registry) (w : Surroundings)
    (arguments : List Bytes) : Exit :=
  match prepare w.system arguments with
  | .error exit => exit
  | .ok plan =>
    let plan := { plan with registry := exchange plan.registry }
    plan.finish w.filter (plan.outcome w)

/-- A whole session. -/
def run (w : Surroundings) (arguments : List Bytes) : Exit :=
  runWith id w arguments

end ByteSearch.Cli
