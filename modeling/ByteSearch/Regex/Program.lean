import ByteSearch.Regex.ByteClass
import ByteSearch.Text.EncodedRanges
import Std.Data.HashMap

/-!
# The automaton of an expression

A `Program` is a nondeterministic automaton over bytes. `Program.ofExpr` builds the one of an
expression: it first draws nodes whose exits are connected piece by piece (`Draft`), each piece with
one node where it starts and one where it stops, and then numbers the nodes that are left when nodes
that only pass on to another are taken out.

The automaton starts in front of a loop over any byte, so that a match may begin everywhere; only
expressions that are anchored at the start of the text do without that loop.

The size of the automaton decides how much scratch space a search needs (`Regex/Scratch`).
-/

namespace ByteSearch.Regex

open ByteSearch.Text (Range Ranges encodedRanges)

/-- A range of bytes that leads to a node. -/
structure Edge where
  range : Range
  next : Nat
  deriving DecidableEq, Hashable

/-- A node of an automaton. -/
inductive Node where
  /-- Consumes one byte. -/
  | edges (edges : List Edge)
  /-- Goes on if an assertion holds. -/
  | look (l : Look) (next : Nat)
  /-- Goes on to several nodes, the preferred one first. -/
  | fork (targets : List Nat)
  | fail
  | accept
  deriving DecidableEq

namespace Node

/-- The number of nodes to which a node goes on without consuming a byte. -/
def exits : Node → Nat
  | look .. => 1
  | fork targets => targets.length
  | _ => 0

/-- The assertion of a node. -/
def look? : Node → Option Look
  | look l _ => some l
  | _ => none

/-- The ranges of bytes of a node. -/
def ranges : Node → Ranges
  | edges es => es.map (·.range)
  | _ => []

/-- The node to which a byte leads. -/
def next? (b : UInt8) : Node → Option Nat
  | edges es => (es.find? (·.range.contains b.toNat)).map (·.next)
  | _ => none

end Node

/-- A nondeterministic automaton. -/
structure Program where
  nodes : Array Node
  start : Nat
  /-- The bytes that the nodes tell apart. -/
  classes : ByteClasses := .ofRanges (nodes.toList.flatMap fun n =>
    n.ranges ++ (n.look?.map Look.ranges).getD [])
  /-- The assertions that occur. -/
  looks : List Look := nodes.toList.filterMap (·.look?)
  /-- The number of exits of silent nodes. -/
  exits : Nat := nodes.foldl (fun n node => n + node.exits) 0

/-! ## Drafts -/

/-- A node while the automaton is built. -/
inductive Draft where
  /-- Stands for the node behind it. -/
  | pass (next : Nat)
  | byte (range : Range) (next : Nat)
  | bytes (edges : List Edge)
  | look (l : Look) (next : Nat)
  /-- The targets in the order in which they were connected; a lazy node prefers the last. -/
  | fork (lazy : Bool) (targets : List Nat)
  | accept

/-- Gives a node one more exit, or its only one. -/
def Draft.connect (next : Nat) : Draft → Draft
  | .pass _ => .pass next
  | .byte range _ => .byte range next
  | .look l _ => .look l next
  | .fork lazy targets => .fork lazy (targets ++ [next])
  | d => d

/-- A construction that adds nodes to those drawn so far. -/
abbrev Build := StateM (Array Draft)

/-- Where a piece of an automaton starts and where it stops. -/
structure Fragment where
  start : Nat
  stop : Nat

namespace Build

/-- Adds a node. -/
def add (d : Draft) : Build Nat :=
  modifyGet fun ds => (ds.size, ds.push d)

/-- Connects an exit of one node with another node. -/
def connect (node next : Nat) : Build Unit :=
  modify fun ds => ds.modify node (Draft.connect next)

/-- A piece that is one node. -/
def one (d : Draft) : Build Fragment := do
  let node ← add d
  return ⟨node, node⟩

/-- Pieces one after the other. -/
def inTurn : List (Build Fragment) → Build Fragment
  | [] => one (.pass 0)
  | first :: rest => do
    let f ← first
    let stop ← rest.foldlM (fun stop piece => do
      let g ← piece
      connect stop g.start
      return g.stop) f.stop
    return ⟨f.start, stop⟩

/-- A byte of a set. -/
def byteOf (s : Ranges) : Build Fragment := do
  let stop ← add (.pass 0)
  let start ← add (.bytes (s.map fun r => ⟨r, stop⟩))
  return ⟨start, stop⟩

/-- Alternatives, in order of preference. -/
def oneOf : List (Build Fragment) → Build Fragment
  | [] => byteOf []
  | [piece] => piece
  | first :: second :: rest => do
    let f ← first
    let g ← second
    let start ← add (.fork false [])
    let stop ← add (.pass 0)
    let join (f : Fragment) : Build Unit := do
      connect start f.start
      connect f.stop stop
    join f
    join g
    for piece in rest do
      join (← piece)
    return ⟨start, stop⟩

/-- A piece that may be left out. -/
def optional (lazy : Bool) (piece : Build Fragment) : Build Fragment := do
  let start ← add (.fork lazy [])
  let f ← piece
  let stop ← add (.pass 0)
  connect start f.start
  connect start stop
  connect f.stop stop
  return ⟨start, stop⟩

/-- A piece any number of times. One that may match nothing is entered through a node of its own. -/
def anyNumber (lazy mayBeEmpty : Bool) (piece : Build Fragment) : Build Fragment := do
  if mayBeEmpty then
    let f ← piece
    let again ← add (.fork lazy [])
    connect f.stop again
    connect again f.start
    let start ← add (.fork lazy [])
    let stop ← add (.pass 0)
    connect start f.start
    connect start stop
    connect again stop
    return ⟨start, stop⟩
  else
    let start ← add (.fork lazy [])
    let f ← piece
    connect start f.start
    connect f.stop start
    return ⟨start, start⟩

/-- A piece once or more often. -/
def onceOrMore (lazy : Bool) (piece : Build Fragment) : Build Fragment := do
  let f ← piece
  let again ← add (.fork lazy [])
  connect f.stop again
  connect again f.start
  return ⟨f.start, again⟩

/-- A piece `min` times, and up to `more` times beyond that. -/
def between (lazy : Bool) (min more : Nat) (piece : Build Fragment) : Build Fragment := do
  let f ← inTurn (List.replicate min piece)
  if more = 0 then return f
  let stop ← add (.pass 0)
  let last ← (List.range more).foldlM (fun last _ => do
    let choice ← add (.fork lazy [])
    let g ← piece
    connect last choice
    connect choice g.start
    connect choice stop
    return g.stop) f.stop
  connect last stop
  return ⟨f.start, stop⟩

/-- A repetition. -/
def repeated (lazy mayBeEmpty : Bool) (min : Nat) (max : Option Nat) (piece : Build Fragment) :
    Build Fragment :=
  match min, max with
  | 0, some 1 => optional lazy piece
  | 0, none => anyNumber lazy mayBeEmpty piece
  | min + 1, none => inTurn [inTurn (List.replicate min piece), onceOrMore lazy piece]
  | min, some max => between lazy min (max - min) piece

/-! ### Literals and characters

Alternatives that are all literals share what they have in common at the front, as long as no
literal that ends in between would lose its preference. Sets of characters share what their
encodings have in common at both ends. -/

/-- Splits words at those that are empty; several empty words at the front count as one. -/
def atEmptyWords : List Bytes → List (List Bytes)
  | [] => [[]]
  | [] :: [] :: rest => atEmptyWords ([] :: rest)
  | words => words.splitOnP (·.isEmpty)

/-- Adds a word to the words grouped by first byte, which ascend. -/
def insertWord (b : UInt8) (w : Bytes) : List (UInt8 × List Bytes) → List (UInt8 × List Bytes)
  | [] => [(b, [w])]
  | (c, ws) :: rest =>
    if b < c then (b, [w]) :: (c, ws) :: rest
    else if b = c then (c, ws ++ [w]) :: rest
    else (c, ws) :: insertWord b w rest

/-- The rests of non-empty words, grouped by first byte. -/
def byFirst (words : List Bytes) : List (UInt8 × List Bytes) :=
  words.foldl (fun groups w => match w with
    | [] => groups
    | b :: w => insertWord b w groups) []

/-- The node from which the words lead to `stop`. No word is longer than the fuel. -/
def words (stop : Nat) : Nat → List Bytes → Build Nat
  | 0, _ => return stop
  | fuel + 1, ws => do
    let parts ← (atEmptyWords ws).mapM fun part => do
      let edges ← (byFirst part).mapM fun (b, rests) => do
        let next ← if rests.all (·.isEmpty) then pure stop else words stop fuel rests
        return (⟨⟨b.toNat, b.toNat⟩, next⟩ : Edge)
      if edges.isEmpty then return [] else return [← add (.bytes edges)]
    add (.fork false (List.intercalate [stop] parts))

/-- Words, in order of preference. -/
def anyWord (ws : List Bytes) : Build Fragment := do
  let stop ← add (.pass 0)
  let start ← words stop (ws.foldl (fun n w => max n w.length) 0 + 1) ws
  return ⟨start, stop⟩

/-- The nodes of a shared automaton by their edges. -/
abbrev Shared := Std.HashMap (List Edge) Nat

/-- The node from which sequences of ranges lead to `stop`. Nodes with equal edges are one node. The
sequences ascend, and none is longer than the fuel. -/
def sequences (stop : Nat) : Nat → List (List Range) → StateT Shared Build Nat
  | 0, _ => return stop
  | fuel + 1, ss => do
    let edges ← (ss.splitBy fun a b => a.head? == b.head?).mapM fun group => do
      let rests := group.map (·.drop 1)
      let next ← if rests.all (·.isEmpty) then pure stop else sequences stop fuel rests
      return (⟨(group.head?.bind (·.head?)).getD ⟨0, 0⟩, next⟩ : Edge)
    match (← get)[edges]? with
    | some node => return node
    | none =>
      let node ← StateT.lift (add (.bytes edges))
      modify (·.insert edges node)
      return node

/-- A character of a set. -/
def charOf (s : Ranges) : Build Fragment := do
  if s.all (·.high < 0x80) then byteOf s
  else
    let stop ← add (.pass 0)
    let (start, _) ← (sequences stop 4 (s.flatMap encodedRanges)).run {}
    return ⟨start, stop⟩

end Build

namespace Expr

/-- The bytes of a literal. -/
def literal? : Expr → Option Bytes
  | .literal w => some w
  | _ => none

mutual

/-- Draws the piece of an expression. -/
def draw : Expr → Build Fragment
  | .empty => Build.one (.pass 0)
  | .literal w => Build.inTurn (w.map fun b => Build.one (.byte ⟨b.toNat, b.toNat⟩ 0))
  | .bytes s => Build.byteOf s
  | .chars s => Build.charOf s
  | .look l => Build.one (.look l 0)
  | .repetition min max greedy body =>
    Build.repeated (!greedy) (!(minLength? body).any (0 < ·)) min max (draw body)
  | .capture body => draw body
  | .sequence items => Build.inTurn (drawAll items)
  | .alternatives branches =>
    match branches.mapM literal? with
    | some (first :: second :: rest) => Build.anyWord (first :: second :: rest)
    | _ => Build.oneOf (drawAll branches)

/-- Draws the pieces of some expressions. -/
def drawAll : List Expr → List (Build Fragment)
  | [] => []
  | e :: es => draw e :: drawAll es

end

/-- Draws the whole automaton of an expression; gives its first node. -/
def drawWhole (e : Expr) : Build Nat := do
  let front ←
    if e.isAnchored then Build.one (.pass 0)
    else Build.anyNumber true false (Build.byteOf [⟨0, 0xFF⟩])
  let f ← draw e
  let accept ← Build.add .accept
  Build.connect f.stop accept
  Build.connect front.stop f.start
  return front.start

end Expr

/-! ## Numbering -/

namespace Draft

/-- The node that another one stands for, if it has no part in the automaton itself. -/
def standsFor? : Draft → Option Nat
  | pass next => some next
  | fork _ [next] => some next
  | _ => none

/-- The node that remains in place of a node. The fuel is the number of nodes. -/
def remaining (ds : Array Draft) : Nat → Nat → Nat
  | 0, i => i
  | fuel + 1, i =>
    match ds[i]?.bind standsFor? with
    | some next => remaining ds fuel next
    | none => i

/-- The finished node, given the number of each drawn one. -/
def finish (number : Nat → Nat) : Draft → Option Node
  | pass _ | fork _ [_] => none
  | byte range next => some (.edges [⟨range, number next⟩])
  | bytes [] | fork _ [] => some .fail
  | bytes edges => some (.edges (edges.map fun e => { e with next := number e.next }))
  | look l next => some (.look l (number next))
  | fork lazy targets =>
    some (.fork ((if lazy then targets.reverse else targets).map number))
  | accept => some .accept

end Draft

namespace Program

/-- The automaton of a draft. -/
def ofDraft (ds : Array Draft) (start : Nat) : Program :=
  let numbers := (ds.foldl (fun (numbers, n) d =>
    (numbers.push n, if d.standsFor?.isSome then n else n + 1)) ((#[] : Array Nat), 0)).1
  let number (i : Nat) := numbers[Draft.remaining ds ds.size i]?.getD 0
  { nodes := ds.filterMap (Draft.finish number), start := number start }

/-- The automaton of an expression. -/
def ofExpr (e : Expr) : Program :=
  let (start, ds) := e.drawWhole.run #[]
  ofDraft ds start

/-- The number of nodes. -/
def size (p : Program) : Nat :=
  p.nodes.size

end Program

end ByteSearch.Regex
