/-!
# Log entries

What a run says about itself while it works. An entry has a level, the part of the program that
writes it (its target), a message, and named numbers that follow the message. Entries are data: the
program's outer layer decides with a `Filter` (see `Cli/LogFilter`) which of them are shown.
-/

namespace ByteSearch.Log

/-- How important an entry is; the first is the most important. -/
inductive Level where
  | error | warn | info | debug | trace
  deriving DecidableEq, Repr

/-- The name of a level as entries show it. -/
def Level.label : Level → String
  | .error => "ERROR"
  | .warn => "WARN"
  | .info => "INFO"
  | .debug => "DEBUG"
  | .trace => "TRACE"

/-- The rank of a level: more detail has a higher rank. -/
def Level.rank : Level → Nat
  | .error => 1
  | .warn => 2
  | .info => 3
  | .debug => 4
  | .trace => 5

/-- An entry of the log. -/
structure Entry where
  level : Level
  target : String
  message : String
  fields : List (String × Nat) := []
  deriving DecidableEq, Repr

/-- The message with its fields, each as `name=number`. -/
def Entry.text (e : Entry) : String :=
  e.fields.foldl (fun s (name, n) => s ++ " " ++ name ++ "=" ++ toString n) e.message

/-- An entry as one line. -/
def Entry.line (e : Entry) : String :=
  e.level.label ++ " " ++ e.target ++ ": " ++ e.text

end ByteSearch.Log
