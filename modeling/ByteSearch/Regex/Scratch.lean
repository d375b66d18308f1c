import ByteSearch.Regex.Subset

/-!
# Scratch space

A search works out deterministic states when it meets them, and keeps those it knows in a `Scratch`.
Its size is limited by a `Budget`. When the next state does not fit any more the scratch space is
cleared, only the current state is kept, and the search goes on; but after as many clears as the
budget allows it gives up. `Scratch.search` walks over a haystack and says where, if it does.

A scratch space may serve any number of searches of one automaton. It decides only whether a search
comes to its end. The ends of the matches are worked out apart from it, from the expression
(`Regex/Matching`).

The sizes are those of the parts of a scratch space: rows of transitions, with four bytes for each
class, and for each state sixteen bytes, twenty more in the table that finds its number, and its own
size; the first states; two ordered sets of nodes; the pending nodes. Three of the states are always
there: one for transitions not yet known, one that is dead, and one that stops a search.
-/

namespace ByteSearch.Regex

/-- How much scratch space a search may use, and how often it may clear it. -/
structure Budget where
  capacity : Nat
  maxClears : Option Nat

namespace Scratch

/-- The number of states that are always there. -/
def fixedStates : Nat := 3

/-- The bytes for one state, apart from its own size and its place in the table. -/
def stateBytes (p : Program) : Nat :=
  4 * p.classes.stride + 16

/-- The bytes for the place of a state in the table. -/
def tableBytes : Nat := 20

/-- The least capacity with which an automaton can be searched at all. It has room for two states
with all nodes, besides those that are always there. -/
def minimumCapacity (p : Program) : Nat :=
  let largest := Subset.emptySize + 4 + 5 * p.size
  5 * (stateBytes p + tableBytes) + fixedStates * Subset.emptySize + 3 * largest + 6 * 4 +
    12 * p.size

end Scratch

/-- The deterministic states that are known, and their transitions. -/
structure Scratch where
  states : Array Subset := #[]
  numbers : Std.HashMap Subset Nat := {}
  /-- For a state and a class of bytes the next state, or nothing if that is dead. -/
  moves : Std.HashMap (Nat × Nat) (Option Nat) := {}
  /-- The sizes of all states together. -/
  bytes : Nat := 0
  /-- The number of pending nodes for which there is room. -/
  room : Nat := 0
  clears : Nat := 0

namespace Scratch

/-- The number of bytes in use. -/
def used (p : Program) (sc : Scratch) : Nat :=
  (sc.states.size + fixedStates) * stateBytes p + (sc.states.size + 1) * tableBytes +
    fixedStates * Subset.emptySize + sc.bytes + 12 * 4 + 16 * p.size + 4 * sc.room

/-- Whether there is room for one more state. -/
def fits (budget : Budget) (p : Program) (sc : Scratch) (s : Subset) : Bool :=
  sc.used p + stateBytes p + tableBytes + s.size ≤ budget.capacity

/-- Adds a state; its number is the number of states before. -/
def push (sc : Scratch) (s : Subset) : Scratch :=
  { sc with
    states := sc.states.push s
    numbers := sc.numbers.insert s sc.states.size
    bytes := sc.bytes + s.size }

/-- Forgets all states. -/
def cleared (sc : Scratch) : Scratch :=
  { room := sc.room, clears := sc.clears + 1 }

/-- Whether the scratch space must not be cleared again. -/
def isSpent (budget : Budget) (sc : Scratch) : Bool :=
  budget.maxClears.any (· ≤ sc.clears)

/-- What comes of one step of a search. -/
inductive Move where
  /-- To the state with a number. -/
  | to (number : Nat)
  | dead
  | gaveUp

/-- Enters the first state. -/
def enter (budget : Budget) (p : Program) (sc : Scratch) : Scratch × Move :=
  let (s, room) := Subset.start p sc.room
  let sc := { sc with room }
  if s.isDead then (sc, .dead)
  else
    match sc.numbers[s]? with
    | some number => (sc, .to number)
    | none =>
      if sc.fits budget p s then (sc.push s, .to sc.states.size)
      else if sc.isSpent budget then (sc, .gaveUp)
      else (sc.cleared.push s, .to 0)

/-- Works out the state after one more symbol. -/
def extend (budget : Budget) (p : Program) (sc : Scratch) (current : Nat) (s : Subset) (u : Symbol)
    (row : Nat) : Scratch × Move :=
  let (t, room) := s.next p u sc.room
  let sc := { sc with room }
  let record (sc : Scratch) (from_ : Nat) (to? : Option Nat) : Scratch :=
    { sc with moves := sc.moves.insert (from_, row) to? }
  if t.isDead then (record sc current none, .dead)
  else
    match sc.numbers[t]? with
    | some number => (record sc current (some number), .to number)
    | none =>
      if sc.fits budget p t then
        let number := sc.states.size
        (record (sc.push t) current (some number), .to number)
      else if sc.isSpent budget then (sc, .gaveUp)
      else (record ((sc.cleared.push s).push t) 0 (some 1), .to 1)

/-- One step from the state with a number. -/
def step (budget : Budget) (p : Program) (sc : Scratch) (current : Nat) (u : Symbol) :
    Scratch × Move :=
  let row := match u with
    | some b => p.classes.classOf b
    | none => p.classes.count
  match sc.moves[(current, row)]? with
  | some (some number) => (sc, .to number)
  | some none => (sc, .dead)
  | none =>
    match sc.states[current]? with
    | some s => extend budget p sc current s u row
    | none => (sc, .dead)

/-- Steps over `count` symbols of a haystack from an offset on. Gives the offset at which the search
gave up, if it did. -/
def walk (budget : Budget) (p : Program) (h : Buffer) : Nat → Nat → Nat → Scratch →
    Scratch × Option Nat
  | 0, _, _, sc => (sc, none)
  | count + 1, offset, current, sc =>
    match step budget p sc current h[offset]? with
    | (sc, .to number) => walk budget p h count (offset + 1) number sc
    | (sc, .dead) => (sc, none)
    | (sc, .gaveUp) => (sc, some offset)

/-- Steps over the first `count` symbols of a haystack, of which the last is its end. Gives the
offset at which the search gave up, if it did. -/
def search (budget : Budget) (p : Program) (h : Buffer) (count : Nat) (sc : Scratch) :
    Scratch × Option Nat :=
  match enter budget p sc with
  | (sc, .to number) => walk budget p h count 0 number sc
  | (sc, .dead) => (sc, none)
  | (sc, .gaveUp) => (sc, some 0)

end Scratch

end ByteSearch.Regex
