import ByteSearch.Search.Engine

/-!
# Handing over matches

`Engine.scanWith` searches a haystack for a handler, which gets every match as soon as it is known
and decides whether the search goes on. The automaton is asked for one match after the other
(`Engine.resume`). Between two matches only the place where the search stands is kept, besides the
scratch space.

A handler that stops at its match number `k` gets what `Engine.scan` finds with the limit `k`.
-/

namespace ByteSearch.Search

open ByteSearch.Regex (Budget Compiled Program Scratch Symbol)

/-- Whether to stop, given all matches so far: the first one in front, the one just found at the
end. -/
abbrev Handler := List Engine.Match → Bool

namespace Engine

/-- Where a search stands. -/
inductive Place where
  | start
  /-- In a state, unless that is dead, with some symbols left. -/
  | inside (state : Option Nat) (left : Nat)

/-- The number of symbols that are left, and one more at the start. -/
def Place.left (h : Buffer) : Place → Nat
  | start => h.size + 2
  | inside _ left => left

/-- What comes of the search for one more match. -/
inductive Next where
  | found (stop : Nat) (place : Place)
  /-- The whole haystack was searched. -/
  | finished
  | gaveUp (offset : Nat)

/-- The state behind a move, unless the search gave up. That state may be dead. -/
def arrival : Scratch.Move → Option (Option Nat)
  | .to number => some (some number)
  | .dead => some none
  | .gaveUp => none

/-- One step. Nothing leads away from a dead state. -/
def advance (budget : Budget) (p : Program) (sc : Scratch) (state : Option Nat) (u : Symbol) :
    Scratch × Scratch.Move :=
  match state with
  | some number => sc.step budget p number u
  | none => (sc, .dead)

/-- Steps over symbols until a match is known. A match is known behind the symbol at its end. -/
def seek (budget : Budget) (p : Program) (h : Buffer) (ends : List Nat) :
    Nat → Option Nat → Scratch → Scratch × Next
  | 0, _, sc => (sc, .finished)
  | left + 1, state, sc =>
    let offset := h.size - left
    match advance budget p sc state h[offset]? with
    | (sc, move) =>
      match arrival move with
      | none => (sc, .gaveUp offset)
      | some state =>
        if offset ∈ ends then (sc, .found offset (.inside state left))
        else seek budget p h ends left state sc

/-- Goes on with a search from the place where it stands. -/
def resume (budget : Budget) (p : Program) (h : Buffer) (ends : List Nat) :
    Place → Scratch → Scratch × Next
  | .start, sc =>
    match sc.enter budget p with
    | (sc, move) =>
      match arrival move with
      | none => (sc, .gaveUp 0)
      | some state => seek budget p h ends (h.size + 1) state sc
  | .inside state left, sc => seek budget p h ends left state sc

theorem left_lt_of_seek {budget : Budget} {p : Program} {h : Buffer} {ends : List Nat}
    {left stop : Nat} {state : Option Nat} {sc sc' : Scratch} {place : Place}
    (hseek : seek budget p h ends left state sc = (sc', .found stop place)) :
    place.left h < left := by
  induction left generalizing state sc with
  | zero => cases hseek
  | succ left ih =>
    rw [seek] at hseek
    simp only at hseek
    split at hseek
    · cases hseek
    · split at hseek
      · cases hseek
        exact Nat.lt_succ_self left
      · exact Nat.lt_succ_of_lt (ih hseek)

/-- With every match some symbol is left behind. -/
theorem left_lt_of_resume {budget : Budget} {p : Program} {h : Buffer} {ends : List Nat}
    {stop : Nat} {sc sc' : Scratch} {place place' : Place}
    (hresume : resume budget p h ends place sc = (sc', .found stop place')) :
    place'.left h < place.left h := by
  cases place with
  | start =>
    rw [resume] at hresume
    simp only at hresume
    split at hresume
    · cases hresume
    · exact Nat.lt_succ_of_lt (left_lt_of_seek hresume)
  | inside state left => exact left_lt_of_seek hresume

/-- Hands over the matches from a place on. -/
def deliver (budget : Budget) (p : Program) (h : Buffer) (ends : List Nat) (handler : Handler)
    (place : Place) (sc : Scratch) (delivered : List Match) : Scan Scratch :=
  match _hresume : resume budget p h ends place sc with
  | (sc, .gaveUp offset) =>
    ⟨delivered, .failed ((SearchStop.gaveUp offset).failure sc.clears), sc⟩
  | (sc, .finished) => ⟨delivered, .completed, sc⟩
  | (sc, .found stop place) =>
    let delivered := delivered ++ [matchAt stop]
    if handler delivered then ⟨delivered, .terminated, sc⟩
    else deliver budget p h ends handler place sc delivered
termination_by place.left h
decreasing_by exact left_lt_of_resume _hresume

/-- Searches a haystack for a handler. -/
def scanWith (budget : Budget) (c : Compiled) (h : Buffer) (handler : Handler) (sc : Scratch) :
    Scan Scratch :=
  deliver budget c.program h (c.expr.matchEnds h) handler .start sc []

end Engine

end ByteSearch.Search
