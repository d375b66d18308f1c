import ByteSearch.Search.BruteForce
import ByteSearch.Search.Engine
import ByteSearch.Search.Lanes
import ByteSearch.Text.Quoted

/-!
# Registries

A registry is a list of named strategies. Its order is the order of reports, and a name may occur
more than once. `standard` lists the strategies of this library under their usual names.
-/

namespace ByteSearch.Bench

open ByteSearch.Search (Strategy)
open ByteSearch.Regex (Budget)

/-- A named strategy. -/
structure Entry where
  name : String
  strategy : Strategy

/-- A list of named strategies. -/
structure Registry where
  entries : List Entry := []

namespace Registry

/-- Adds a strategy at the end. -/
def register (r : Registry) (name : String) (s : Strategy) : Registry :=
  ⟨r.entries ++ [⟨name, s⟩]⟩

/-- The strategies of this library. -/
def standard (budget : Budget) : Registry :=
  ⟨[⟨"byte-scan", Search.firstByte⟩, ⟨"engine-scan", Search.engine budget⟩,
    ⟨"naive-scan", Search.bruteForce⟩, ⟨"vectorized-scan", Search.inLanes⟩,
    ⟨"null-scan", Search.nothing⟩]⟩

/-- Keeps the strategies with names that satisfy a condition, in their order. -/
def retain (r : Registry) (keep : String → Bool) : Registry :=
  ⟨r.entries.filter (keep ·.name)⟩

/-- The names, in order. -/
def names (r : Registry) : List String :=
  r.entries.map (·.name)

/-- Whether a name occurs. -/
def contains (r : Registry) (name : String) : Bool :=
  r.names.contains name

/-- The number of strategies. -/
def size (r : Registry) : Nat :=
  r.entries.length

/-- The names as a quoted list. -/
def debug (r : Registry) : String :=
  Text.quoteList r.names

@[simp] theorem names_register (r : Registry) (name : String) (s : Strategy) :
    (r.register name s).names = r.names ++ [name] := by
  simp [register, names]

@[simp] theorem names_retain (r : Registry) (keep : String → Bool) :
    (r.retain keep).names = r.names.filter keep := by
  simp only [retain, names, List.filter_map]
  rfl

end Registry

end ByteSearch.Bench
