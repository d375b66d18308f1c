import ByteSearch.Regex.Program

/-!
# Deterministic states

A nondeterministic automaton is in several nodes at once. A `Subset` holds those nodes, in the order
in which they are reached, with what is left to remember of the bytes before: it is a state of the
deterministic automaton. `Subset.start` is the first state and `Subset.next` gives the state after
one more symbol.

An assertion may depend on the byte behind the position. So a state keeps the assertions that it
waits for, and decides them when it sees the next symbol. For the same reason a match becomes known
one symbol after its end: the end of the haystack is a symbol of its own.
-/

namespace ByteSearch.Regex

/-- What a search meets at a position: a byte, or the end of the haystack. -/
abbrev Symbol := Option UInt8

/-- Whether a symbol belongs to a word. -/
def Symbol.isWord (u : Symbol) : Bool :=
  u.any fun b => Text.Ranges.contains Look.wordRanges b.toNat

/-- A state of the deterministic automaton. -/
structure Subset where
  /-- The nodes, in the order in which they are reached. -/
  nodes : List Nat
  /-- The assertions that held when the state was entered, if it waits for any. -/
  known : List Look
  /-- The assertions that occur among the nodes. -/
  awaited : List Look
  /-- A match ended one symbol ago. -/
  accepting : Bool
  /-- The last byte belongs to a word. -/
  afterWord : Bool
  /-- The last byte is a carriage return. -/
  afterReturn : Bool
  deriving DecidableEq, Hashable

/-! ## Silent steps -/

/-- The nodes that are reached without a further byte. -/
structure Reached where
  seen : Array Bool
  nodes : Array Nat := #[]
  /-- The number of nodes for which the list of pending ones has room. -/
  room : Nat

namespace Reached

/-- Nothing is reached yet. -/
def none (p : Program) (room : Nat) : Reached :=
  { seen := Array.replicate p.nodes.size false, room }

/-- Adds a node. -/
def insert (r : Reached) (i : Nat) : Reached :=
  { r with seen := r.seen.setIfInBounds i true, nodes := r.nodes.push i }

/-- The room of a list that grows to a length: it at least doubles whenever it has to grow. -/
def grownRoom (room length : Nat) : Nat :=
  if length ≤ room then room else max 4 (max (2 * room) length)

/-- Makes room for a number of pending nodes. -/
def reserve (r : Reached) (length : Nat) : Reached :=
  { r with room := grownRoom r.room length }

/-- Follows silent steps from the pending nodes, depth first. The fuel bounds the number of nodes
that can become pending. -/
def follow (p : Program) (known : List Look) : Nat → List Nat → Reached → Reached
  | 0, _, r => r
  | _, [], r => r
  | fuel + 1, i :: rest, r =>
    if r.seen[i]?.getD true then follow p known fuel rest r
    else
      let r := r.insert i
      match p.nodes[i]? with
      | some (.look l next) =>
        follow p known fuel (if known.contains l then next :: rest else rest) r
      | some (.fork targets) =>
        follow p known fuel (targets ++ rest) (r.reserve (targets.length - 1 + rest.length))
      | _ => follow p known fuel rest r

/-- Adds a node and what is reached from it by silent steps. -/
def close (p : Program) (known : List Look) (r : Reached) (i : Nat) : Reached :=
  match p.nodes[i]? with
  | some (.look ..) | some (.fork ..) => follow p known (p.exits + 1) [i] (r.reserve 1)
  | _ => if r.seen[i]?.getD true then r else r.insert i

end Reached

namespace Subset

/-- The state with the nodes that are reached. -/
def ofReached (p : Program) (known : List Look) (accepting afterWord afterReturn : Bool)
    (r : Reached) : Subset :=
  let nodes := r.nodes.toList
  let found := nodes.filterMap fun i => p.nodes[i]?.bind (·.look?)
  let awaited := Look.all.filter found.contains
  { nodes, awaited
    known := if awaited.isEmpty then [] else known
    accepting
    afterWord := afterWord && !nodes.isEmpty && p.looks.any (·.isAboutWords)
    afterReturn := afterReturn && !nodes.isEmpty && p.looks.any (·.isAboutCrlf) }

/-- The assertions that hold at the start of the text, of the kinds that occur. -/
def knownAtStart (p : Program) : List Look :=
  Look.all.filter fun
    | .textStart => p.looks.any fun l => l == .textStart || l == .textEnd
    | .lineStart | .crlfStart => p.looks.any (·.isAboutLines)
    | .wordStartHalf => p.looks.any (·.isAboutWords)
    | _ => false

/-- The first state, and the room for pending nodes. -/
def start (p : Program) (room : Nat) : Subset × Nat :=
  let known := knownAtStart p
  let r := (Reached.none p room).close p known p.start
  (ofReached p known false false false r, r.room)

/-- The assertions that hold behind a symbol, of the kinds that occur. -/
def knownAfter (p : Program) (u : Symbol) : List Look :=
  Look.all.filter fun
    | .lineStart => u == some 0x0A && p.looks.any (·.isAboutLines)
    | .crlfStart => u == some 0x0A && p.looks.any (·.isAboutCrlf)
    | .wordStartHalf => !u.isWord && p.looks.any (·.isAboutWords)
    | _ => false

/-- Whether the next symbol makes an assertion hold. -/
def settles (s : Subset) (u : Symbol) : Look → Bool
  | .textEnd => u.isNone
  | .lineEnd => u.isNone || u == some 0x0A
  | .crlfStart => s.afterReturn && u != some 0x0A
  | .crlfEnd => u.isNone || u == some 0x0D || (u == some 0x0A && !s.afterReturn)
  | .wordBoundary => s.afterWord != u.isWord
  | .notWordBoundary => s.afterWord == u.isWord
  | .wordStart => !s.afterWord && u.isWord
  | .wordEnd => s.afterWord && !u.isWord
  | .wordEndHalf => !u.isWord
  | _ => false

/-- The nodes of a state when the next symbol is known, and the room for pending nodes. -/
def settled (p : Program) (s : Subset) (u : Symbol) (room : Nat) : List Nat × Nat :=
  if s.awaited.any fun l => s.settles u l && !s.known.contains l then
    let known := Look.all.filter fun l => s.known.contains l || s.settles u l
    let r := s.nodes.foldl (Reached.close p known) (Reached.none p room)
    (r.nodes.toList, r.room)
  else (s.nodes, room)

/-- The state after one more symbol, and the room for pending nodes. -/
def next (p : Program) (s : Subset) (u : Symbol) (room : Nat) : Subset × Nat :=
  let (nodes, room) := settled p s u room
  let known := knownAfter p u
  let r := nodes.foldl (fun r i =>
    match u.bind fun b => p.nodes[i]?.bind (·.next? b) with
    | some j => r.close p known j
    | none => r) (Reached.none p room)
  (ofReached p known (nodes.any fun i => p.nodes[i]? == some .accept) u.isWord (u == some 0x0D) r,
    r.room)

/-- Whether nothing more can be found from a state. -/
def isDead (s : Subset) : Bool :=
  s.nodes.isEmpty && !s.accepting

/-! ## Size

A state is stored as nine bytes of flags and assertions, followed by the nodes: each as the
difference to the one before it, in groups of seven bits, the sign in the lowest bit. -/

/-- The number of groups of seven bits of a number. -/
def groups (n : Nat) : Nat :=
  if n < 0x80 then 1 else groups (n / 0x80) + 1

/-- The number of bytes of the nodes behind `last`. -/
def nodesSize : Nat → List Nat → Nat
  | _, [] => 0
  | last, i :: rest =>
    groups (if last ≤ i then 2 * (i - last) else 2 * (last - i) - 1) + nodesSize i rest

/-- The size of a state without nodes. -/
def emptySize : Nat := 9

/-- The number of bytes of a state. -/
def size (s : Subset) : Nat :=
  emptySize + nodesSize 0 s.nodes

end Subset

end ByteSearch.Regex
