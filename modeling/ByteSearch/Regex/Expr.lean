import ByteSearch.Text.Ranges
import ByteSearch.Text.Utf8

/-!
# Regular expressions over bytes

An `Expr` is an expression whose flags have been settled: it speaks of bytes, of sets of bytes and
of encoded characters, of positions, and of how these follow each other.

The type allows more expressions than are ever built. `ofByteSet`, `ofCharSet`, `repeated`,
`inSequence` and `oneOf` build them in a simple form: adjacent literals are one literal, a sequence
has no sequences as items, and alternatives that are all sets are one set. None of these changes
what is matched; the size of the automaton depends on them.
-/

namespace ByteSearch.Regex

open ByteSearch.Text (Range Ranges)

/-- An assertion about a position. -/
inductive Look where
  | textStart | textEnd
  | lineStart | lineEnd
  /-- Lines end with a carriage return, a line feed, or both together. -/
  | crlfStart | crlfEnd
  | wordBoundary | notWordBoundary
  | wordStart | wordEnd | wordStartHalf | wordEndHalf
  /-- Any assertion about words of characters beyond ASCII. No automaton decides it. -/
  | unicodeWord
  deriving DecidableEq, Repr, Hashable

namespace Look

/-- All assertions. -/
def all : List Look :=
  [textStart, textEnd, lineStart, lineEnd, crlfStart, crlfEnd, wordBoundary, notWordBoundary,
    wordStart, wordEnd, wordStartHalf, wordEndHalf, unicodeWord]

/-- The bytes of words: ASCII letters and digits, and the low line. -/
def wordRanges : Ranges :=
  [⟨0x30, 0x39⟩, ⟨0x41, 0x5A⟩, ⟨0x5F, 0x5F⟩, ⟨0x61, 0x7A⟩]

/-- Whether an assertion is about lines that end with a carriage return or a line feed. -/
def isAboutCrlf : Look → Bool
  | crlfStart | crlfEnd => true
  | _ => false

/-- Whether an assertion is about lines. -/
def isAboutLines (l : Look) : Bool :=
  l == lineStart || l == lineEnd || l.isAboutCrlf

/-- Whether an assertion is about words. -/
def isAboutWords : Look → Bool
  | wordBoundary | notWordBoundary | wordStart | wordEnd | wordStartHalf | wordEndHalf
  | unicodeWord => true
  | _ => false

end Look

/-- An expression. -/
inductive Expr where
  | empty
  | literal (w : Bytes)
  /-- One byte of a set. -/
  | bytes (s : Ranges)
  /-- The encoding of one character of a set of code points. -/
  | chars (s : Ranges)
  | look (l : Look)
  | repetition (min : Nat) (max : Option Nat) (greedy : Bool) (body : Expr)
  | capture (body : Expr)
  | sequence (items : List Expr)
  | alternatives (branches : List Expr)
  deriving BEq, Repr

namespace Expr

/-- The expression that matches nothing. -/
def fail : Expr :=
  .bytes []

/-! ## Lengths -/

/-- The number of bytes that encode a code point. -/
def encodedLength (n : Nat) : Nat :=
  if n < 0x80 then 1 else if n < 0x800 then 2 else if n < 0x10000 then 3 else 4

mutual

/-- The least length of a match, if there can be one at all. -/
def minLength? : Expr → Option Nat
  | .empty => some 0
  | .literal w => some w.length
  | .bytes s => if s.isEmpty then none else some 1
  | .chars s => s.head?.map fun r => encodedLength r.low
  | .look _ => some 0
  | .repetition min _ _ body => (minLength? body).map (· * min)
  | .capture body => minLength? body
  | .sequence items => minLengthSum? items
  | .alternatives branches => minLengthLeast? branches

/-- The sum of the least lengths. -/
def minLengthSum? : List Expr → Option Nat
  | [] => some 0
  | e :: es => do
    let a ← minLength? e
    let b ← minLengthSum? es
    pure (a + b)

/-- The least of the least lengths, if all are known. -/
def minLengthLeast? : List Expr → Option Nat
  | [] => none
  | [e] => minLength? e
  | e :: es => do
    let a ← minLength? e
    let b ← minLengthLeast? es
    pure (min a b)

end

mutual

/-- The greatest length of a match, if there is one. -/
def maxLength? : Expr → Option Nat
  | .empty => some 0
  | .literal w => some w.length
  | .bytes s => if s.isEmpty then none else some 1
  | .chars s => s.getLast?.map fun r => encodedLength r.high
  | .look _ => some 0
  | .repetition _ max _ body => do
    let a ← max
    let b ← maxLength? body
    pure (a * b)
  | .capture body => maxLength? body
  | .sequence items => maxLengthSum? items
  | .alternatives branches => maxLengthGreatest? branches

/-- The sum of the greatest lengths. -/
def maxLengthSum? : List Expr → Option Nat
  | [] => some 0
  | e :: es => do
    let a ← maxLength? e
    let b ← maxLengthSum? es
    pure (a + b)

/-- The greatest of the greatest lengths, if all are known. -/
def maxLengthGreatest? : List Expr → Option Nat
  | [] => none
  | [e] => maxLength? e
  | e :: es => do
    let a ← maxLength? e
    let b ← maxLengthGreatest? es
    pure (max a b)

end

mutual

/-- Whether every match begins with the assertion that it stands at the start of the text. -/
def isAnchored : Expr → Bool
  | .look l => l == .textStart
  | .repetition min _ _ body => 0 < min && isAnchored body
  | .capture body => isAnchored body
  | .sequence items => anyAnchored items
  | .alternatives branches => allAnchored branches
  | _ => false

/-- Whether one of the items is anchored and those before it match only nothing. -/
def anyAnchored : List Expr → Bool
  | [] => false
  | e :: es => isAnchored e || (maxLength? e == some 0 && anyAnchored es)

/-- Whether all branches are anchored. -/
def allAnchored : List Expr → Bool
  | [] => true
  | e :: es => isAnchored e && allAnchored es

end

mutual

/-- The assertions in an expression. -/
def looks : Expr → List Look
  | .look l => [l]
  | .repetition _ _ _ body => looks body
  | .capture body => looks body
  | .sequence items => looksAll items
  | .alternatives branches => looksAll branches
  | _ => []

/-- The assertions in some expressions. -/
def looksAll : List Expr → List Look
  | [] => []
  | e :: es => looks e ++ looksAll es

end

/-! ## Building in simple form -/

/-- A literal, or nothing if it has no bytes. -/
def ofBytes (w : Bytes) : Expr :=
  if w.isEmpty then .empty else .literal w

/-- A set of bytes; a set with one member is a literal. -/
def ofByteSet (s : Ranges) : Expr :=
  match s with
  | [⟨low, high⟩] => if low = high then .literal [UInt8.ofNat low] else .bytes s
  | s => .bytes s

/-- A set of code points; a set with one member is a literal, and an empty one matches nothing. -/
def ofCharSet (s : Ranges) : Expr :=
  match s with
  | [] => fail
  | [⟨low, high⟩] => if low = high then .literal (Bytes.ofChar (Char.ofNat low)) else .chars s
  | s => .chars s

/-- A repetition. What matches only nothing need not be repeated more than once. -/
def repeated (min : Nat) (max : Option Nat) (greedy : Bool) (body : Expr) : Expr :=
  let (min, max) :=
    if maxLength? body == some 0 then (Nat.min min 1, some ((max.map (Nat.min · 1)).getD 1))
    else (min, max)
  if min == 0 && max == some 0 then .empty
  else if min == 1 && max == some 1 then body
  else .repetition min max greedy body

/-- The items of an expression in a sequence. -/
def sequenceItems : Expr → List Expr
  | .sequence items => items
  | .empty => []
  | e => [e]

/-- Joins a literal with the literal at the front of a sequence. -/
def consItem (e : Expr) (items : List Expr) : List Expr :=
  match e, items with
  | .literal v, .literal w :: rest => .literal (v ++ w) :: rest
  | e, items => e :: items

/-- A sequence: nested sequences are flattened and adjacent literals joined. -/
def inSequence (items : List Expr) : Expr :=
  match (items.flatMap sequenceItems).foldr consItem [] with
  | [] => .empty
  | [e] => e
  | items => .sequence items

/-- The character that a literal encodes, if it encodes one. -/
def literalChar? : Expr → Option Char
  | .literal w =>
    match Utf8.pieces w with
    | [.char c] => some c
    | _ => none
  | _ => none

/-- The byte of a literal, if it has one byte. -/
def literalByte? : Expr → Option UInt8
  | .literal [b] => some b
  | _ => none

/-- A set as a set of code points, if it can be one. -/
def charSet? : Expr → Option Ranges
  | .chars s => some s
  | .bytes s => if s.all (·.high < 0x80) then some s else none
  | _ => none

/-- A set as a set of bytes, if it can be one. -/
def byteSet? : Expr → Option Ranges
  | .bytes s => some s
  | .chars s => if s.all (·.high < 0x80) then some s else none
  | _ => none

/-- The branches as one set, if they are all characters, all bytes, or all sets. -/
def asSet? (branches : List Expr) : Option Expr :=
  match branches.mapM literalChar? with
  | some cs => some (ofCharSet (Ranges.normalize (cs.map fun c => ⟨c.toNat, c.toNat⟩)))
  | none =>
    match branches.mapM literalByte? with
    | some bs => some (ofByteSet (Ranges.normalize (bs.map fun b => ⟨b.toNat, b.toNat⟩)))
    | none =>
      match branches.mapM charSet? with
      | some sets => some (ofCharSet (Ranges.normalize sets.flatten))
      | none => (branches.mapM byteSet?).map fun sets => ofByteSet (Ranges.normalize sets.flatten)

/-- The items of a branch that is a sequence. -/
def items? : Expr → Option (List Expr)
  | .sequence items => some items
  | _ => none

/-- How many items two sequences have in common at the front. -/
def commonLength : List Expr → List Expr → Nat
  | a :: as, b :: bs => if a == b then commonLength as bs + 1 else 0
  | _, _ => 0

/-- The branches of an expression among alternatives. -/
def branchesOf : Expr → List Expr
  | .alternatives branches => branches
  | e => [e]

/-- Alternatives: nested ones are flattened, sets are united, and items that all branches begin with
are taken out in front. The fuel bounds how often something is taken out. -/
def oneOfFuel : Nat → List Expr → Expr
  | fuel, branches =>
    match branches.flatMap branchesOf with
    | [] => fail
    | [e] => e
    | branches =>
      match asSet? branches with
      | some e => e
      | none =>
        match fuel, branches.mapM items? with
        | fuel + 1, some (first :: rest) =>
          match rest.foldl (fun n items => Nat.min n (commonLength first items)) first.length with
          | 0 => .alternatives branches
          | n => inSequence (first.take n ++
              [oneOfFuel fuel ((first :: rest).map fun items => inSequence (items.drop n))])
        | _, _ => .alternatives branches

/-- Alternatives in simple form. -/
def oneOf (branches : List Expr) : Expr :=
  oneOfFuel 1000 branches

end Expr

end ByteSearch.Regex
