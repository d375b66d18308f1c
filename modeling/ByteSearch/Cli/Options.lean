import ByteSearch.Bench.Registry
import ByteSearch.Text.Blank

/-!
# Options

The command line says which pattern to search for in which file, and how. `parse` reads it. Options
may stand anywhere before the separator `--`; what is not an option is positional: the pattern
first, then the input file. Whatever is wrong with options is reported before whatever is wrong with
positional arguments.

Arguments are byte strings. One that is not well-formed UTF-8 is positional, and the value of an
option must be well-formed.
-/

namespace ByteSearch.Cli

open ByteSearch.Search (Pattern)
open ByteSearch.Regex (Budget)

/-- The help text. -/
def usage : String :=
  "Usage: scanbench [OPTIONS] <pattern> <input file>

Runs every scan strategy over <input file> looking for <pattern> and prints
one line per strategy with its hit count and elapsed time.

Options:
      --json                     Print the report as JSON
      --parallel                 Run the strategies concurrently
      --only <name>[,<name>...]  Run only the named strategies
      --cache-capacity <bytes>   Regex engine scratch capacity
      --max-cache-clears <n>     Fail the regex engine after <n> scratch clears
  -h, --help                     Print this help

Strategies: byte-scan, engine-scan, naive-scan, vectorized-scan, null-scan
Log level is read from RUST_LOG (default: info)."

/-- Why the value of an option is refused. -/
inductive ValueFault where
  | malformed
  | emptyNumber
  | notADigit
  | tooLarge
  deriving DecidableEq, Repr

/-- The text of a fault. -/
def ValueFault.message : ValueFault → String
  | malformed => "not valid UTF-8"
  | emptyNumber => "cannot parse integer from empty string"
  | notADigit => "invalid digit found in string"
  | tooLarge => "number too large to fit in target type"

/-- Why a command line is refused. -/
inductive OptionFault where
  | missingArgument (name : String)
  | unexpectedArgument (argument : String)
  | unknownOption (option : String)
  | missingValue (option : String)
  | invalidValue (option value : String) (fault : ValueFault)
  | emptyPattern
  | unknownStrategy (name : String)
  deriving DecidableEq, Repr

/-- The text of a fault. -/
def OptionFault.message : OptionFault → String
  | missingArgument name => "missing required argument <" ++ name ++ ">"
  | unexpectedArgument argument => "unexpected argument '" ++ argument ++ "'"
  | unknownOption option => "unknown option '" ++ option ++ "'"
  | missingValue option => "option '" ++ option ++ "' requires a value"
  | invalidValue option value fault =>
    "invalid value '" ++ value ++ "' for '" ++ option ++ "': " ++ fault.message
  | emptyPattern => "empty search pattern"
  | unknownStrategy name => "unknown strategy '" ++ name ++ "'"

/-! ## Values -/

/-- The bound of numbers: they have 64 binary digits at most. -/
def numberBound : Nat := 1 <<< 64

/-- The number with some digits behind a number. The first fault from the left is reported. -/
def digits (n : Nat) : List Char → Except ValueFault Nat
  | [] => .ok n
  | c :: rest =>
    if c.isDigit then
      let m := n * 10 + (c.toNat - 0x30)
      if m < numberBound then digits m rest else .error .tooLarge
    else .error .notADigit

/-- The number of a text. It may have a plus sign in front. -/
def number (s : String) : Except ValueFault Nat :=
  match s.toList with
  | [] => .error .emptyNumber
  | '+' :: c :: rest => digits 0 (c :: rest)
  | s => digits 0 s

/-- The names in a list with commas. Blanks around a name do not count, nor do empty names. -/
def nameList (s : String) : List String :=
  (((s.toList.splitOn ',').map Text.trim).filter (!·.isEmpty)).map String.ofList

/-! ## Arguments -/

/-- An option with a value. -/
inductive Valued where
  | only | cacheCapacity | maxCacheClears
  deriving DecidableEq, Repr

/-- The text of an option. -/
def Valued.text : Valued → String
  | only => "--only"
  | cacheCapacity => "--cache-capacity"
  | maxCacheClears => "--max-cache-clears"

/-- What an argument is when no value is due. -/
inductive Argument where
  | help | json | parallel
  | valued (option : Valued)
  | separator
  | unknown (option : String)
  | positional
  deriving DecidableEq, Repr

/-- What a well-formed argument is. -/
def Argument.ofText (s : String) : Argument :=
  if s = "-h" ∨ s = "--help" then .help
  else if s = "--json" then .json
  else if s = "--parallel" then .parallel
  else if s = "--only" then .valued .only
  else if s = "--cache-capacity" then .valued .cacheCapacity
  else if s = "--max-cache-clears" then .valued .maxCacheClears
  else if s = "--" then .separator
  else
    match s.toList with
    | '-' :: _ :: _ => .unknown s
    | _ => .positional

/-- What an argument is when no value is due. -/
def Argument.ofBytes (argument : Bytes) : Argument :=
  match Utf8.decode? argument with
  | some s => .ofText s
  | none => .positional

/-! ## Parsing -/

/-- What the arguments so far say. -/
structure Draft where
  positional : List Bytes := []
  json : Bool := false
  parallel : Bool := false
  only : Option (List String) := none
  budget : Budget := Search.Engine.standardBudget

/-- Takes the value of an option. -/
def Draft.setValue (d : Draft) (option : Valued) (value : Bytes) : Except OptionFault Draft :=
  let invalid (fault : ValueFault) : OptionFault :=
    .invalidValue option.text (Utf8.lossy value) fault
  match Utf8.decode? value with
  | none => .error (invalid .malformed)
  | some s =>
    match option with
    | .only => .ok { d with only := some (nameList s) }
    | .cacheCapacity =>
      match number s with
      | .ok n => .ok { d with budget := { d.budget with capacity := n } }
      | .error fault => .error (invalid fault)
    | .maxCacheClears =>
      match number s with
      | .ok n => .ok { d with budget := { d.budget with maxClears := some n } }
      | .error fault => .error (invalid fault)

/-- Adds positional arguments. -/
def Draft.addPositional (d : Draft) (arguments : List Bytes) : Draft :=
  { d with positional := d.positional ++ arguments }

/-- Reads the options. Gives nothing if help is asked for. -/
def Draft.read (d : Draft) : List Bytes → Except OptionFault (Option Draft)
  | [] => .ok (some d)
  | argument :: rest =>
    match Argument.ofBytes argument with
    | .help => .ok none
    | .json => Draft.read { d with json := true } rest
    | .parallel => Draft.read { d with parallel := true } rest
    | .valued option =>
      match rest with
      | [] => .error (.missingValue option.text)
      | value :: rest =>
        match d.setValue option value with
        | .ok d => Draft.read d rest
        | .error fault => .error fault
    | .separator => .ok (some (d.addPositional rest))
    | .unknown option => .error (.unknownOption option)
    | .positional => Draft.read (d.addPositional [argument]) rest

/-- What to search for, where, and how. -/
structure Options where
  pattern : Pattern
  input : Bytes
  json : Bool
  parallel : Bool
  /-- The names of the strategies to run, unless all are. -/
  only : Option (List String)
  budget : Budget

/-- What a command line asks for. -/
inductive Command where
  | run (options : Options)
  | help

/-- The options of a draft with all positional arguments. -/
def Draft.finish (d : Draft) : Except OptionFault Options :=
  match d.positional with
  | [] => .error (.missingArgument "pattern")
  | [_] => .error (.missingArgument "input file")
  | _ :: _ :: extra :: _ => .error (.unexpectedArgument (Utf8.lossy extra))
  | [pattern, input] =>
    match Pattern.ofBytes? pattern with
    | none => .error .emptyPattern
    | some pattern => .ok ⟨pattern, input, d.json, d.parallel, d.only, d.budget⟩

/-- Reads a command line, which does not include the name of the program. -/
def parse (arguments : List Bytes) : Except OptionFault Command :=
  match Draft.read {} arguments with
  | .error fault => .error fault
  | .ok none => .ok .help
  | .ok (some d) => d.finish.map .run

/-- The strategies that are to be run. -/
def Options.registry (o : Options) : Except OptionFault Bench.Registry :=
  let all := Bench.Registry.standard o.budget
  match o.only with
  | none => .ok all
  | some names =>
    match names.find? (!all.contains ·) with
    | some unknown => .error (.unknownStrategy unknown)
    | none => .ok (all.retain names.contains)

end ByteSearch.Cli
