import ByteSearch.Cli.Options
import ByteSearch.Log
import ByteSearch.Text.Property

/-!
# Log filters

A log filter says which entries of the log are shown. It is a list of directives, separated by
commas: a level alone holds for all targets, `target=level` for the targets that begin with that
text, and a target alone shows everything of it. For an entry the directive with the longest target
counts, and of two with the same target the later one.

Directives about spans, in square brackets, concern no entry of this program: they are left out, and
show nothing where there are no others.
-/

namespace ByteSearch.Cli

/-- The most detailed level that is shown: zero for none, otherwise the rank of a level. -/
abbrev Threshold := Nat

/-- One directive. Without a target it holds for all of them. -/
structure LogDirective where
  target : Option String
  threshold : Threshold
  deriving DecidableEq, Repr

/-- A log filter. -/
abbrev LogFilter := List LogDirective

namespace LogFilter

/-- The thresholds by name. -/
def thresholdNames : List (String × Threshold) :=
  [("off", 0), ("error", 1), ("warn", 2), ("info", 3), ("debug", 4), ("trace", 5)]

/-- The threshold of a name in any case, or of a number. -/
def threshold? (s : String) : Option Threshold :=
  match thresholdNames.lookup (s.map Char.toLower) with
  | some n => some n
  | none => (number s).toOption.filter (· ≤ 5)

/-- Whether a directive may begin with a character. -/
def opens (c : Char) : Bool :=
  Text.Property.isAlphanumeric c || ['-', ':', '_'].contains c

/-- The directive of a text, or nothing if it is malformed. -/
def directive? (s : List Char) : Option LogDirective :=
  let s := Text.trim s
  if s.head?.any opens then
    let name := s.takeWhile (· != '=')
    match s.drop name.length with
    | [] =>
      match threshold? (String.ofList name) with
      | some n => some ⟨none, n⟩
      | none => some ⟨some (String.ofList name), 5⟩
    | _ :: level =>
      if level.isEmpty then some ⟨some (String.ofList name), 5⟩
      else (threshold? (String.ofList level)).map fun n => ⟨some (String.ofList name), n⟩
  else none

/-- The filter if nothing is said: levels down to `info`. -/
def standard : LogFilter :=
  [⟨none, 3⟩]

/-- The filter if nothing stands between the commas: errors only. -/
def blank : LogFilter :=
  [⟨none, 1⟩]

/-- The filter of a text. A malformed text is ignored. -/
def ofText (s : String) : LogFilter :=
  match (s.toList.splitOn ',').filter (!·.isEmpty) with
  | [] => blank
  | texts => ((texts.filter fun t => !t.contains '[').mapM directive?).getD standard

/-- Whether a directive concerns a target. -/
def concerns (d : LogDirective) (target : String) : Bool :=
  match d.target with
  | none => true
  | some t => t.toList.isPrefixOf target.toList

/-- How specific a directive is. -/
def weight (d : LogDirective) : Nat :=
  match d.target with
  | none => 0
  | some t => t.utf8ByteSize + 1

/-- The threshold of a target. -/
def thresholdOf (f : LogFilter) (target : String) : Threshold :=
  (f.foldl (fun best d =>
    if concerns d target && best.all (weight · ≤ weight d) then some d else best)
    (none : Option LogDirective)).elim 0 (·.threshold)

/-- Whether an entry is shown. -/
def shows (f : LogFilter) (e : Log.Entry) : Bool :=
  e.level.rank ≤ f.thresholdOf e.target

end LogFilter

end ByteSearch.Cli
