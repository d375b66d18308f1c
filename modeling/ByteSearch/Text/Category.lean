import ByteSearch.Text.Ranges
import ByteSearch.Text.Category.Table

/-!
# General categories

Every code point has one general category. `ofCodePoint` looks it up in the runs of the table;
`ranges` is the set of the code points with a category.
-/

namespace ByteSearch.Text

/-- The general categories of the Unicode standard, by their two-letter names. -/
inductive Category where
  | lu | ll | lt | lm | lo
  | mn | mc | me
  | nd | nl | no
  | pc | pd | ps | pe | pi | pf | po
  | sm | sc | sk | so
  | zs | zl | zp
  | cc | cf | cs | co | cn
  deriving DecidableEq, Repr

namespace Category

/-- All categories with their two-letter names. -/
def named : List (String × Category) := [
  ("Lu", lu), ("Ll", ll), ("Lt", lt), ("Lm", lm), ("Lo", lo),
  ("Mn", mn), ("Mc", mc), ("Me", me),
  ("Nd", nd), ("Nl", nl), ("No", no),
  ("Pc", pc), ("Pd", pd), ("Ps", ps), ("Pe", pe), ("Pi", pi), ("Pf", pf), ("Po", po),
  ("Sm", sm), ("Sc", sc), ("Sk", sk), ("So", so),
  ("Zs", zs), ("Zl", zl), ("Zp", zp),
  ("Cc", cc), ("Cf", cf), ("Cs", cs), ("Co", co), ("Cn", cn)]

/-- A run of code points: all of one category, or alternating between two. -/
structure Run where
  low : Nat
  first : Category
  second : Category
  deriving Repr

/-- The categories of a run, by the two letters that the table writes. -/
def pairOfLetters (a b : Char) : Category × Category :=
  if a == 'L' && b == 'x' then (lu, ll)
  else if a == 'L' && b == 'y' then (ll, lu)
  else
    match named.lookup (String.ofList [a, b]) with
    | some c => (c, c)
    | none => (cn, cn)

/-- The value of a lower-case hexadecimal digit. -/
def digit (c : Char) : Nat :=
  if c ≤ '9' then c.toNat - '0'.toNat else c.toNat - 'a'.toNat + 10

/-- Reads the runs of the table. The first two numbers are where the next run begins and the length
read so far; runs already read are in reverse. -/
def readRuns : Nat → Nat → List Run → List Char → List Run
  | low, size, done, a :: b :: rest =>
    if a.isUpper then
      let (first, second) := pairOfLetters a b
      readRuns (low + size) 0 (⟨low, first, second⟩ :: done) rest
    else readRuns low (size * 16 + digit a) done (b :: rest)
  | _, _, done, _ => done.reverse

/-- The runs of the general category, in ascending order. -/
def runs : Array Run :=
  (readRuns 0 0 [] (String.join rows).toList).toArray

/-- The last index below `high` whose run begins at or before `n`, by bisection. -/
def search (n : Nat) : Nat → Nat → Nat → Nat
  | 0, low, _ => low
  | fuel + 1, low, high =>
    if high ≤ low + 1 then low
    else
      let mid := (low + high) / 2
      match runs[mid]? with
      | some r => if r.low ≤ n then search n fuel mid high else search n fuel low mid
      | none => low

/-- The general category of a code point. -/
def ofCodePoint (n : Nat) : Category :=
  match runs[search n 16 0 runs.size]? with
  | some r => if (n - r.low) % 2 = 0 then r.first else r.second
  | none => cn

/-- The general category of a character. -/
def of (c : Char) : Category :=
  ofCodePoint c.toNat

/-- The code points from `low` to `high` of a run that have a category in the list. -/
def Run.members (r : Run) (high : Nat) (cs : List Category) : Ranges :=
  if cs.contains r.first && cs.contains r.second then [⟨r.low, high⟩]
  else
    (List.range (high + 1 - r.low)).filterMap fun i =>
      if cs.contains (if i % 2 = 0 then r.first else r.second) then some ⟨r.low + i, r.low + i⟩
      else none

/-- The code points whose category is in the list. -/
def ranges (cs : List Category) : Ranges :=
  let starts := runs.toList
  let ends := (starts.drop 1).map (·.low - 1) ++ [0x10FFFF]
  Ranges.normalize ((starts.zip ends).flatMap fun (r, high) =>
    if cs.contains r.first || cs.contains r.second then r.members high cs else [])

end Category

end ByteSearch.Text
