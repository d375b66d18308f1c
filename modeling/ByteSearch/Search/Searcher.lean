import ByteSearch.Search.Builder
import ByteSearch.Search.Handler

/-!
# Asking for one match after the other

Automata are built and searched for those who hand over the matches. They ask for one match at a
time: a search stands at a place, goes on from there, and answers with one more match and the place
behind it, or says that there is none, or why it stopped. A scan asks until the answer is no match
or the handler has seen enough (`Searcher.Scans`). Between two questions it keeps that place and the
scratch space, and nothing else. It has one result at most, and none if the questions come to no
end.

A `Searcher` is what must be known of the automata for this. It says of one answer that it is right:
a match that is found is the first one from the place on, and if there is said to be none there is
none. What a source text matches does not depend on the budget, and nothing is said of when a search
stops. The scratch space may be new or left by any number of scans (`Searcher.Used`).
-/

namespace ByteSearch.Search

open ByteSearch.Regex (Budget)

/-- The answer to the question for one more match. -/
inductive Answer (π : Type) where
  /-- A match of a pattern ends at an offset, and the search now stands at a place. -/
  | found (pattern stop : Nat) (place : π)
  /-- There is no further match. -/
  | finished
  | stopped (reason : SearchStop)

/-- In a haystack of some size, the first of the ends from an offset on is at `stop`. -/
structure IsFirstFrom (EndsAt : Nat → Prop) (size offset stop : Nat) : Prop where
  offset_le : offset ≤ stop
  stop_le : stop ≤ size
  endsAt : EndsAt stop
  not_endsAt : ∀ j, offset ≤ j → j < stop → ¬EndsAt j

/-- Automata of some kind and searches with them. A search uses scratch space and stands at places
of some kinds. -/
structure Searcher (α κ π : Type) extends Builder α where
  /-- New scratch space for an automaton. -/
  create (budget : Budget) (a : α) : κ
  /-- How often the scratch space was cleared. -/
  clears (sc : κ) : Nat
  /-- Where every search stands at first. -/
  start : π
  /-- Goes on with the search of a haystack from a place. -/
  next (budget : Budget) (a : α) (h : Buffer) (place : π) (sc : κ) : κ × Answer π
  /-- Some match of a source text ends at an offset of a haystack. -/
  EndsAt (source : List Char) (h : Buffer) (offset : Nat) : Prop
  /-- The scratch space is new, or left by searches with the automaton. -/
  Serves (budget : Budget) (a : α) (sc : κ) : Prop
  /-- A search stands behind all matches that end before an offset, and before the others. A place
  is one in the scratch space that the search uses, and need not be one in other scratch space. -/
  StandsAt (budget : Budget) (a : α) (h : Buffer) (sc : κ) (place : π) (offset : Nat) : Prop
  serves_create (budget : Budget) (a : α) : Serves budget a (create budget a)
  serves_next {budget : Budget} {a : α} {h : Buffer} {place : π} {offset : Nat} {sc : κ}
    (hserves : Serves budget a sc) (hplace : StandsAt budget a h sc place offset) :
    Serves budget a (next budget a h place sc).1
  standsAt_start {budget : Budget} {a : α} {sc : κ} (hserves : Serves budget a sc) (h : Buffer) :
    StandsAt budget a h sc start 0
  /-- A match that is found is the first one from the place on, and then the search stands behind
  it. There is one pattern only. -/
  found_of_next {budget : Budget} {source : List Char} {a : α} {h : Buffer} {place place' : π}
    {offset pattern stop : Nat} {sc sc' : κ} (hbuilt : build budget true source = .ok a)
    (hserves : Serves budget a sc) (hplace : StandsAt budget a h sc place offset)
    (hnext : next budget a h place sc = (sc', .found pattern stop place')) :
    pattern = Pattern.identifier ∧ IsFirstFrom (EndsAt source h) h.size offset stop ∧
      StandsAt budget a h sc' place' (stop + 1)
  /-- A search that is finished has left out no match. -/
  finished_of_next {budget : Budget} {source : List Char} {a : α} {h : Buffer} {place : π}
    {offset : Nat} {sc sc' : κ} (hbuilt : build budget true source = .ok a)
    (hserves : Serves budget a sc) (hplace : StandsAt budget a h sc place offset)
    (hnext : next budget a h place sc = (sc', .finished)) :
    ∀ j, offset ≤ j → j ≤ h.size → ¬EndsAt source h j

namespace Searcher

variable {α κ π : Type} (s : Searcher α κ π) (budget : Budget) (a : α)

/-- From a place on, and behind the matches that are already delivered, a scan comes to its end and
leaves a result. -/
inductive ScansFrom (h : Buffer) (handler : Handler) :
    π → κ → List Engine.Match → Engine.Scan κ → Prop
  | stopped {place : π} {sc sc' : κ} {delivered : List Engine.Match} {reason : SearchStop}
      (hnext : s.next budget a h place sc = (sc', .stopped reason)) :
      ScansFrom h handler place sc delivered
        ⟨delivered, .failed (reason.failure (s.clears sc')), sc'⟩
  | finished {place : π} {sc sc' : κ} {delivered : List Engine.Match}
      (hnext : s.next budget a h place sc = (sc', .finished)) :
      ScansFrom h handler place sc delivered ⟨delivered, .completed, sc'⟩
  /-- The handler has seen enough. -/
  | terminated {place place' : π} {sc sc' : κ} {delivered : List Engine.Match} {pattern stop : Nat}
      (hnext : s.next budget a h place sc = (sc', .found pattern stop place'))
      (hhandler : handler (delivered ++ [⟨pattern, none, stop, 0⟩]) = true) :
      ScansFrom h handler place sc delivered
        ⟨delivered ++ [⟨pattern, none, stop, 0⟩], .terminated, sc'⟩
  /-- The handler asks for more. -/
  | resumed {place place' : π} {sc sc' : κ} {delivered : List Engine.Match} {pattern stop : Nat}
      {r : Engine.Scan κ} (hnext : s.next budget a h place sc = (sc', .found pattern stop place'))
      (hhandler : handler (delivered ++ [⟨pattern, none, stop, 0⟩]) = false)
      (hrest : ScansFrom h handler place' sc' (delivered ++ [⟨pattern, none, stop, 0⟩]) r) :
      ScansFrom h handler place sc delivered r

/-- A scan of a haystack for a handler comes to its end and leaves a result. -/
def Scans (h : Buffer) (handler : Handler) (sc : κ) (r : Engine.Scan κ) : Prop :=
  s.ScansFrom budget a h handler s.start sc [] r

/-- Scratch space that is new, or was left by scans: of any haystack for any handler, however they
ended. -/
inductive Used : κ → Prop
  | new : Used (s.create budget a)
  | left {sc : κ} {r : Engine.Scan κ} (hused : Used sc) (h : Buffer) (handler : Handler)
      (hscan : s.Scans budget a h handler sc r) : Used r.scratch

variable {s budget a}

/-- No scan leaves two results. -/
theorem ScansFrom.unique {h : Buffer} {handler : Handler} {place : π} {sc : κ}
    {delivered : List Engine.Match} {r r' : Engine.Scan κ}
    (hscan : s.ScansFrom budget a h handler place sc delivered r)
    (hscan' : s.ScansFrom budget a h handler place sc delivered r') : r' = r := by
  induction hscan with
  | stopped hnext =>
    cases hscan' with
    | stopped hnext' => cases hnext.symm.trans hnext'; rfl
    | finished hnext' | terminated hnext' | resumed hnext' => cases hnext.symm.trans hnext'
  | finished hnext =>
    cases hscan' with
    | finished hnext' => cases hnext.symm.trans hnext'; rfl
    | stopped hnext' | terminated hnext' | resumed hnext' => cases hnext.symm.trans hnext'
  | terminated hnext hhandler =>
    cases hscan' with
    | terminated hnext' => cases hnext.symm.trans hnext'; rfl
    | resumed hnext' hhandler' =>
      cases hnext.symm.trans hnext'
      cases hhandler.symm.trans hhandler'
    | stopped hnext' | finished hnext' => cases hnext.symm.trans hnext'
  | resumed hnext hhandler _ ih =>
    cases hscan' with
    | resumed hnext' _ hrest' =>
      cases hnext.symm.trans hnext'
      exact ih hrest'
    | terminated hnext' hhandler' =>
      cases hnext.symm.trans hnext'
      cases hhandler.symm.trans hhandler'
    | stopped hnext' | finished hnext' => cases hnext.symm.trans hnext'

end Searcher

end ByteSearch.Search
