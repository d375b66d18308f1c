import ByteSearch.Proofs.Compilation
import ByteSearch.Proofs.Handlers
import ByteSearch.Proofs.WellFormedSources
import ByteSearch.Search.Searcher

/-!
# The engine as a searcher

A search that goes on from a place steps over symbols until a match is known. What it finds is the
first match from that place on, and if it comes to its end there was none (`Engine.found_of_resume`,
`Engine.finished_of_resume`). So the engine is a `Searcher`, whatever is in its scratch space
(`Engine.searcher`), and asking it for one match after the other is the scan that is known already
(`Engine.scans_searcher`).
-/

namespace ByteSearch.Search

open ByteSearch.Regex (Budget Compiled Expr Positions Program Scratch)

namespace Engine

variable {budget : Budget} {p : Program} {h : Buffer} {ends : List Nat}

/-! ## One answer -/

/-- The offset of the next symbol, if a search stands at a place. -/
inductive Place.At (h : Buffer) : Place → Nat → Prop
  | start : Place.At h .start 0
  | inside (state : Option Nat) {left : Nat} (hleft : left ≤ h.size + 1) :
    Place.At h (.inside state left) (h.size + 1 - left)

theorem found_of_seek {left stop : Nat} {state : Option Nat} {sc sc' : Scratch} {place : Place}
    (hleft : left ≤ h.size + 1)
    (hseek : seek budget p h ends left state sc = (sc', .found stop place)) :
    IsFirstFrom (· ∈ ends) h.size (h.size + 1 - left) stop ∧ place.At h (stop + 1) := by
  induction left generalizing state sc with
  | zero => cases hseek
  | succ left ih =>
    rw [seek] at hseek
    simp only at hseek
    split at hseek
    · cases hseek
    · split at hseek
      · rename_i state' _ hmem
        cases hseek
        have hstop : h.size - left + 1 = h.size + 1 - left := by omega
        refine ⟨⟨by omega, Nat.sub_le .., hmem, fun j _ _ => by omega⟩, ?_⟩
        rw [hstop]
        exact .inside state' (by omega)
      · rename_i hnone
        obtain ⟨hfirst, hplace⟩ := ih (by omega) hseek
        refine ⟨⟨?_, hfirst.stop_le, hfirst.endsAt, fun j hj hlt => ?_⟩, hplace⟩
        · have hle := hfirst.offset_le
          omega
        · rcases Nat.eq_or_lt_of_le hj with rfl | hlt'
          · rwa [Nat.add_sub_add_right]
          · exact hfirst.not_endsAt j (by omega) hlt

theorem finished_of_seek {left : Nat} {state : Option Nat} {sc sc' : Scratch}
    (hseek : seek budget p h ends left state sc = (sc', .finished)) {j : Nat}
    (hj : h.size + 1 - left ≤ j) (hle : j ≤ h.size) : j ∉ ends := by
  induction left generalizing state sc with
  | zero => omega
  | succ left ih =>
    rw [seek] at hseek
    simp only at hseek
    split at hseek
    · cases hseek
    · split at hseek
      · cases hseek
      · rename_i hnone
        rcases Nat.eq_or_lt_of_le hj with rfl | hlt
        · rwa [Nat.add_sub_add_right]
        · exact ih hseek (by omega)

theorem found_of_resume {place place' : Place} {offset stop : Nat} {sc sc' : Scratch}
    (hplace : place.At h offset)
    (hresume : resume budget p h ends place sc = (sc', .found stop place')) :
    IsFirstFrom (· ∈ ends) h.size offset stop ∧ place'.At h (stop + 1) := by
  cases hplace with
  | start =>
    rw [resume] at hresume
    simp only at hresume
    split at hresume
    · cases hresume
    · have hfound := found_of_seek (Nat.le_refl (h.size + 1)) hresume
      rwa [Nat.sub_self] at hfound
  | inside state hleft => exact found_of_seek hleft hresume

theorem finished_of_resume {place : Place} {offset : Nat} {sc sc' : Scratch}
    (hplace : place.At h offset)
    (hresume : resume budget p h ends place sc = (sc', .finished)) {j : Nat} (hj : offset ≤ j)
    (hle : j ≤ h.size) : j ∉ ends := by
  cases hplace with
  | start =>
    rw [resume] at hresume
    simp only at hresume
    split at hresume
    · cases hresume
    · exact finished_of_seek hresume (by omega) hle
  | inside state hleft => exact finished_of_seek hresume hj hle

/-! ## The searcher -/

/-- An answer of the engine. It has one pattern, and stops only if its scratch space runs out. -/
def Next.answer : Next → Answer Place
  | found stop place => .found Pattern.identifier stop place
  | finished => .finished
  | gaveUp offset => .stopped (.gaveUp offset)

/-- Some match of a source text ends at an offset, if the text is an expression. -/
def EndsAt (source : List Char) (h : Buffer) (j : Nat) : Prop :=
  ∃ e, Expr.ofSource source = .ok e ∧ Expr.EndsAt h e j

theorem ofSource_of_build {source : List Char} {checked : Bool} {c : Compiled}
    (hbuilt : automata.build budget checked source = .ok c) :
    ∃ e, Expr.ofSource source = .ok e ∧ c = .ofExpr e := by
  have hbuild : Automata.build budget checked source = .ok c := hbuilt
  obtain ⟨c', hc⟩ := Automata.exists_of_build hbuild
  rw [Automata.build_of_ok hc] at hbuild
  split at hbuild
  · cases hbuild
  · cases hbuild
    exact Regex.exists_expr_of_compile hc

theorem endsAt_iff {source : List Char} {checked : Bool} {c : Compiled}
    (hbuilt : automata.build budget checked source = .ok c) (j : Nat) :
    EndsAt source h j ↔ j ∈ c.expr.matchEnds h := by
  obtain ⟨e, he, rfl⟩ := ofSource_of_build hbuilt
  rw [show (Compiled.ofExpr e).expr = e from rfl,
    Expr.mem_matchEnds (Expr.wellFormed_of_ofSource he)]
  constructor
  · rintro ⟨e', he', hends⟩
    obtain rfl := Except.ok.inj (he'.symm.trans he)
    exact hends
  · exact fun hends => ⟨e, he, hends⟩

/-- The engine of this library. -/
def searcher : Searcher Compiled Scratch Place where
  toBuilder := automata
  create _ _ := {}
  clears sc := sc.clears
  start := .start
  next budget c h place sc :=
    let (sc, next) := resume budget c.program h (c.expr.matchEnds h) place sc
    (sc, next.answer)
  EndsAt := EndsAt
  Serves _ _ _ := True
  StandsAt _ _ h _ place offset := place.At h offset
  serves_create _ _ := trivial
  serves_next _ _ := trivial
  standsAt_start _ _ := .start
  found_of_next {budget source c h place place' offset pattern stop sc sc'} hbuilt _ hplace
      hnext := by
    rcases hresume : resume budget c.program h (c.expr.matchEnds h) place sc with
      ⟨sc'', ⟨stop', place''⟩ | _ | _⟩ <;> rw [hresume] at hnext <;> cases hnext
    obtain ⟨hfirst, hplace'⟩ := found_of_resume hplace hresume
    refine ⟨rfl, ⟨hfirst.offset_le, hfirst.stop_le, ?_, fun j hj hlt => ?_⟩, hplace'⟩
    · exact (endsAt_iff hbuilt _).2 hfirst.endsAt
    · rw [endsAt_iff hbuilt]
      exact hfirst.not_endsAt j hj hlt
  finished_of_next {budget source c h place offset sc sc'} hbuilt _ hplace hnext := by
    rcases hresume : resume budget c.program h (c.expr.matchEnds h) place sc with
      ⟨sc'', ⟨stop', place''⟩ | _ | _⟩ <;> rw [hresume] at hnext <;> cases hnext
    intro j hj hle
    rw [endsAt_iff hbuilt]
    exact finished_of_resume hplace hresume hj hle

/-- The ends of matches that the searcher speaks of are those that the engine works out. -/
theorem mem_matchEnds_iff {source : List Char} {checked : Bool} {c : Compiled}
    (hbuilt : automata.build budget checked source = .ok c) (j : Nat) :
    j ∈ c.expr.matchEnds h ↔ j ≤ h.size ∧ searcher.EndsAt source h j := by
  have hends : searcher.EndsAt source h j ↔ j ∈ c.expr.matchEnds h := endsAt_iff hbuilt j
  rw [hends]
  exact (and_iff_right_of_imp fun hj => (Positions.mem_toList.1 hj).1).symm

/-! ## Scans -/

variable {handler : Handler}

theorem scansFrom_searcher (c : Compiled) (place : Place) (sc : Scratch)
    (delivered : List Match) :
    searcher.ScansFrom budget c h handler place sc delivered
      (deliver budget c.program h (c.expr.matchEnds h) handler place sc delivered) := by
  -- with every match some symbol is left behind
  induction hleft : place.left h using Nat.strongRecOn generalizing place sc delivered with
  | ind left ih =>
    rw [deliver_eq]
    rcases hresume : resume budget c.program h (c.expr.matchEnds h) place sc with
      ⟨sc', ⟨stop, place'⟩ | _ | offset⟩
    · have hlt := left_lt_of_resume hresume
      have hnext : searcher.next budget c h place sc =
          (sc', .found Pattern.identifier stop place') := by
        simp only [searcher, hresume, Next.answer]
      by_cases hhandler : handler (delivered ++ [matchAt stop]) = true
      · simp only [if_pos hhandler]
        exact .terminated hnext hhandler
      · simp only [if_neg hhandler]
        refine .resumed hnext (Bool.eq_false_iff.2 hhandler) ?_
        exact ih _ (hleft ▸ hlt) place' sc' _ rfl
    · have hnext : searcher.next budget c h place sc = (sc', .finished) := by
        simp only [searcher, hresume, Next.answer]
      exact .finished hnext
    · have hnext : searcher.next budget c h place sc = (sc', .stopped (.gaveUp offset)) := by
        simp only [searcher, hresume, Next.answer]
      exact .stopped hnext

/-- Asking the engine for one match after the other is the scan with the limit at which the handler
stops. -/
theorem scans_searcher (c : Compiled) {limit : Option Nat} (hlimit : limit ≠ some 0)
    (hhandler : handler.StopsAt limit) (sc : Scratch) :
    searcher.Scans budget c h handler sc (scan budget c h limit sc) := by
  rw [← scanWith_eq_scan c hlimit hhandler]
  exact scansFrom_searcher c .start sc []

/-- A scan fails only if the number of clears is limited. -/
theorem ending_of_unlimited (hb : budget.maxClears = none) (c : Compiled) (limit : Option Nat)
    (sc : Scratch) (failure : Failure) : (scan budget c h limit sc).ending ≠ .failed failure := by
  have hnone := Scratch.search_of_unlimited hb c.program h
    ((lastWanted (c.expr.matchEnds h) limit).getD h.size + 1) sc
  rw [scan_eq_closing]
  rcases hsearch : sc.search budget c.program h
    ((lastWanted (c.expr.matchEnds h) limit).getD h.size + 1) with ⟨sc', stopped⟩
  rw [hsearch] at hnone
  obtain rfl : stopped = none := hnone
  rw [closing]
  split <;> rintro ⟨⟩

end Engine

end ByteSearch.Search
