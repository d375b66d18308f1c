import ByteSearch.Regex.Expr
import ByteSearch.Regex.Positions

/-!
# Finding the ends of matches

An expression is first *located* in a haystack: every set of bytes becomes the set of the offsets at
which its bytes stand, and every assertion the set of the positions at which it holds. A located
expression then maps a set of positions to the positions at which its matches from there end. From
all positions at once this gives the ends of all matches.

A repetition without a maximum is repeated until no new position is found; there are only so many
positions, and their number is enough fuel. A repetition of a repetition is one repetition where it
can be: otherwise each level would double the work.
-/

namespace ByteSearch.Regex

open ByteSearch.Text (Range Ranges)

/-- An expression as sets of positions of one haystack. -/
inductive Located where
  /-- Matches nothing, at these positions. -/
  | stay (at_ : Positions)
  /-- Matches a number of bytes, from these positions. -/
  | move (at_ : Positions) (width : Nat)
  | repetition (min : Nat) (more : Nat) (body : Located)
  | sequence (items : List Located)
  | alternatives (branches : List Located)

/-- A repetition, `min` times and up to `more` times beyond that. If the body is a repetition that
may happen once or not at all, every number of times between the products is possible. -/
def Located.repeated (min more : Nat) : Located → Located
  | .repetition min' more' body =>
    if min' ≤ 1 then
      .repetition (min * min') ((min + more) * (min' + more') - min * min') body
    else .repetition min more (.repetition min' more' body)
  | body => .repetition min more body

namespace Look

/-- The positions at which an assertion holds. -/
def positions (ix : Index) (l : Look) : Positions :=
  let all := ix.positions
  let first := Positions.single 0
  let last := Positions.single ix.size
  let lf := ix.offsetsOf 0x0A
  let cr := ix.offsetsOf 0x0D
  let word := ix.offsetsIn wordRanges
  let afterWord := word <<< 1
  match l with
  | .textStart => first
  | .textEnd => last
  | .lineStart => first ||| lf <<< 1
  | .lineEnd => last ||| lf
  | .crlfStart => first ||| lf <<< 1 ||| Positions.diff (cr <<< 1) lf
  | .crlfEnd => last ||| cr ||| Positions.diff lf (cr <<< 1)
  | .wordBoundary => word ^^^ afterWord
  | .notWordBoundary => Positions.diff all (word ^^^ afterWord)
  | .wordStart => Positions.diff word afterWord
  | .wordEnd => Positions.diff afterWord word
  | .wordStartHalf => Positions.diff all afterWord
  | .wordEndHalf => Positions.diff all word
  | .unicodeWord => 0

end Look

namespace Expr

mutual

/-- The expression, located in a haystack with its index. -/
def locate (h : Buffer) (ix : Index) : Expr → Located
  | .empty => .stay ix.positions
  | .literal w => .sequence (w.map fun b => .move (ix.offsetsOf b) 1)
  | .bytes s => .move (ix.offsetsIn s) 1
  | .chars s =>
    .alternatives ([1, 2, 3, 4].map fun width => .move (charOffsets h s width) width)
  | .look l => .stay (l.positions ix)
  | .repetition min max _ body =>
    .repeated min (match max with | some m => m - min | none => ix.size + 1) (locate h ix body)
  | .capture body => locate h ix body
  | .sequence items => .sequence (locateAll h ix items)
  | .alternatives branches => .alternatives (locateAll h ix branches)

/-- The expressions, located in a haystack with its index. -/
def locateAll (h : Buffer) (ix : Index) : List Expr → List Located
  | [] => []
  | e :: es => locate h ix e :: locateAll h ix es

end

end Expr

namespace Located

/-- Maps a set of positions a number of times, or until that changes nothing. -/
def exactly (f : Positions → Positions) : Nat → Positions → Positions
  | 0, s => s
  | n + 1, s =>
    let t := f s
    if t = s then s else exactly f n t

/-- Adds what the map gives, at most a number of times, until nothing is new. -/
def upTo (f : Positions → Positions) : Nat → Positions → Positions
  | 0, s => s
  | n + 1, s =>
    let t := s ||| f s
    if t = s then s else upTo f n t

mutual

/-- The positions at which matches from the given positions end. -/
def image : Located → Positions → Positions
  | .stay at_, s => s &&& at_
  | .move at_ width, s => (s &&& at_) <<< width
  | .repetition min more body, s => upTo (image body) more (exactly (image body) min s)
  | .sequence items, s => imageInTurn items s
  | .alternatives branches, s => imageAny branches s

/-- The ends of matches of all items in turn. -/
def imageInTurn : List Located → Positions → Positions
  | [], s => s
  | e :: es, s => imageInTurn es (image e s)

/-- The ends of matches of any branch. -/
def imageAny : List Located → Positions → Positions
  | [], _ => 0
  | e :: es, s => image e s ||| imageAny es s

end

end Located

/-- The offsets at which a match ends, in ascending order. -/
def Expr.matchEnds (e : Expr) (h : Buffer) : List Nat :=
  let ix := Index.ofBuffer h
  Positions.toList h.size ((e.locate h ix).image ix.positions)

end ByteSearch.Regex
