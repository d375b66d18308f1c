import ByteSearch.Search.ByteFinder
import ByteSearch.Search.Handler
import ByteSearch.Search.Lanes

/-!
# Scans with their sink at hand

A scan can also be written as a program that has its sink at hand (`Scanning`). Such a program tells
the sink each step as soon as it comes to it, could ask the sink for what it holds, and may fail in
the middle. `BuiltIn` lists the strategies of this library, and `BuiltIn.scan` is the program of
each; what it writes to the log is left out. A `Job` is a strategy with what it is to search, and
`sinkAfterAll` runs jobs one after the other into one sink.
-/

namespace ByteSearch.Search

open ByteSearch.Regex (Budget Program Scratch)

/-- A program with a sink. If it fails, what it told the sink before stays. -/
abbrev Scanning (σ α : Type) := ExceptT Failure (StateM σ) α

namespace Scanning

variable {σ : Type} [Sink σ]

def sinkAfter (x : Scanning σ Unit) (s : σ) : σ :=
  (x.run s).2

def outcome (x : Scanning σ Unit) (s : σ) : Except Failure Unit :=
  (x.run s).1

def tell (x : Step) : Scanning σ Unit :=
  modify (Sink.step · x)

/-- Records every position that a finder names for the first byte. -/
def firstByte (find : ByteFinder) (h : Buffer) (p : Pattern) : Scanning σ Unit :=
  (find p.first h).forM fun offset => tell (.record ⟨offset, Pattern.identifier⟩)

/-- Compares the pattern from place `j` on with the haystack from `start + j` on, up to the first
difference. The match is recorded at the last byte. -/
def compareFrom (h : Buffer) (last start : Nat) : Nat → Bytes → Scanning σ Unit
  | _, [] => pure ()
  | j, b :: bytes => do
    if h[start + j]? = some b then
      if j = last then tell (.record ⟨start, Pattern.identifier⟩)
      compareFrom h last start (j + 1) bytes

/-- Compares the pattern at every start offset. -/
def bruteForce (h : Buffer) (p : Pattern) : Scanning σ Unit :=
  (List.range (candidateStarts h.size p.length)).forM fun start =>
    compareFrom h (p.length - 1) start 0 p.bytes

/-- Counts in lanes, and tells the sink the total. -/
def inLanes (h : Buffer) (p : Pattern) : Scanning σ Unit :=
  let counters := Lanes.counters h p.bytes.toArray (laneCount p) (candidateStarts h.size p.length)
  tell (.absorb (counters.foldl (· + ·) 0))

/-- Goes on with a search from the place where it stands, and records every match as soon as it is
known. -/
def recordFrom (budget : Budget) (p : Program) (h : Buffer) (ends : List Nat)
    (place : Engine.Place) (sc : Scratch) : Scanning σ Unit :=
  match _hresume : Engine.resume budget p h ends place sc with
  | (sc, .gaveUp offset) => throw ((SearchStop.gaveUp offset).failure sc.clears)
  | (_, .finished) => pure ()
  | (sc, .found stop place) => do
    let m := Engine.matchAt stop
    tell (.record ⟨m.stop, m.pattern⟩)
    recordFrom budget p h ends place sc
termination_by place.left h
decreasing_by exact Engine.left_lt_of_resume _hresume

/-- Compiles the pattern, and searches with fresh scratch space. -/
def engine (budget : Budget) (h : Buffer) (p : Pattern) : Scanning σ Unit := do
  let c ← MonadExcept.ofExcept (Engine.compile budget p)
  recordFrom budget c.program h (c.expr.matchEnds h) .start {}

end Scanning

/-- The strategies of this library. The one that records the first byte works with any finder. -/
inductive BuiltIn where
  | firstByte (find : ByteFinder)
  | engine (budget : Budget)
  | bruteForce
  | inLanes
  | nothing

namespace BuiltIn

def strategy : BuiltIn → Strategy
  | firstByte find => firstByteBy find
  | engine budget => Search.engine budget
  | bruteForce => Search.bruteForce
  | inLanes => Search.inLanes
  | nothing => Search.nothing

def scan {σ : Type} [Sink σ] (h : Buffer) (p : Pattern) : BuiltIn → Scanning σ Unit
  | firstByte find => Scanning.firstByte find h p
  | engine budget => Scanning.engine budget h p
  | bruteForce => Scanning.bruteForce h p
  | inLanes => Scanning.inLanes h p
  | nothing => pure ()

end BuiltIn

/-- A strategy with what it is to search. -/
structure Job where
  strategy : BuiltIn
  haystack : Buffer
  pattern : Pattern

namespace Job

def run (j : Job) : Run :=
  j.strategy.strategy.run j.haystack j.pattern

def scan {σ : Type} [Sink σ] (j : Job) : Scanning σ Unit :=
  j.strategy.scan j.haystack j.pattern

end Job

/-- The sink behind jobs that all use it. The next one has its turn also if one fails. -/
def sinkAfterAll {σ : Type} [Sink σ] (jobs : List Job) (s : σ) : σ :=
  jobs.foldl (fun s j => j.scan.sinkAfter s) s

end ByteSearch.Search
