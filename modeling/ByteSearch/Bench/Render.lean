import ByteSearch.Bench.Verdict

/-!
# Writing reports

A report is written as text or as JSON. As JSON it may have its verdict as a last member.
-/

namespace ByteSearch.Bench

/-- A status as a JSON value. -/
def Status.toJson : Status → Json
  | done => .object [("state", .string "done")]
  | failed message => .object [("state", .string "failed"), ("message", .string message)]

/-- A result as a JSON value. -/
def Result.toJson (r : Result) : Json :=
  .object [("name", .string r.name), ("status", r.status.toJson), ("hit_count", .nat r.hits),
    ("elapsed_ms", .decimal r.elapsed.milliseconds.shortest), ("exact", .bool r.exact)]

/-- A verdict as a JSON value. -/
def Verdict.toJson : Verdict → Json
  | agreed hits strategies =>
    .object [("verdict", .string "agreed"), ("hit_count", .nat hits),
      ("strategies", .nat strategies)]
  | divergent counts =>
    .object [("verdict", .string "divergent"),
      ("counts", .array (counts.map fun (name, hits) => .array [.string name, .nat hits]))]
  | unchecked => .object [("verdict", .string "unchecked")]

namespace Report

/-- The members of a report as a JSON object. -/
def members (r : Report) : List (String × Json) :=
  [("haystack_len", .nat r.haystackLength), ("pattern_len", .nat r.patternLength),
    ("results", .array (r.results.map (·.toJson)))]

/-- A report as a JSON value. -/
def toJson (r : Report) : Json :=
  .object r.members

/-- A report with its verdict as a JSON value. -/
def toJsonWithVerdict (r : Report) : Json :=
  .object (r.members ++ [("consistency", r.verdict.toJson)])

/-- A report as it is printed: as text, or as JSON with its verdict. -/
def render (r : Report) (json : Bool) : String :=
  if json then r.toJsonWithVerdict.text .indented ++ "\n" else r.text

end Report

end ByteSearch.Bench
