import ByteSearch.Text.CaseFolding.Table
import ByteSearch.Text.Property

/-!
# Closing sets under case

`closeAscii` adds the other case of every ASCII letter of a set. `close` adds every code point whose
simple case folding is that of a member.
-/

namespace ByteSearch.Text.CaseFolding

/-- A range of code points and the folding of the first of them. -/
structure Entry where
  range : Range
  target : Nat
  deriving Repr

/-- Reads one entry. -/
def readEntry (s : String) : Entry :=
  match s.splitOn ">" with
  | [range, target] => ⟨Property.readRange range, Property.hexNumber target.toList⟩
  | _ => ⟨⟨1, 0⟩, 0⟩

/-- The entries of the table. -/
def entries : List Entry :=
  rows.flatMap fun row => (row.splitOn " ").map readEntry

/-- The members of a range within another, moved so that `base` comes to `target`. -/
def moved (r within : Range) (base target : Nat) : Ranges :=
  let low := max r.low within.low
  let high := min r.high within.high
  if low ≤ high then [⟨low - base + target, high - base + target⟩] else []

/-- The foldings of the members of a set, with the set itself. -/
def foldings (s : Ranges) : Ranges :=
  s ++ entries.flatMap fun e => s.flatMap fun r => moved r e.range e.range.low e.target

/-- The code points that fold to a member of a set, with the set itself. -/
def unfoldings (s : Ranges) : Ranges :=
  s ++ entries.flatMap fun e =>
    let image : Range := ⟨e.target, e.target + (e.range.high - e.range.low)⟩
    s.flatMap fun r => moved r image e.target e.range.low

/-- Adds all code points that differ from a member in case only. -/
def close (s : Ranges) : Ranges :=
  Ranges.normalize (unfoldings (Ranges.normalize (foldings s)))

/-- Adds the other case of the ASCII letters. -/
def closeAscii (s : Ranges) : Ranges :=
  Ranges.normalize (s ++ s.flatMap fun r =>
    moved r ⟨0x61, 0x7A⟩ 0x61 0x41 ++ moved r ⟨0x41, 0x5A⟩ 0x41 0x61)

end ByteSearch.Text.CaseFolding
