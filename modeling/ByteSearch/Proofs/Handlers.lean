import ByteSearch.Proofs.EngineMatches
import ByteSearch.Search.Handler

/-!
# Handlers and limits

A scan for a handler asks the automaton for one match after the other, and a scan with a limit finds
them all at once. If the handler stops at the match of the limit both come to the same
(`Engine.scanWith_eq_scan`). The proof goes from the last symbol to the first: what is handed over
from an offset on is what the rest of the search finds (`Engine.deliver_inside_eq`).
-/

namespace ByteSearch

/-! ## Ascending lists -/

section Ascending

variable {l : List Nat} {m n : Nat}

/-- An ascending list is its numbers below a bound followed by the others. -/
theorem filter_lt_append_filter_le (hl : l.Pairwise (· < ·)) (n : Nat) :
    l.filter (· < n) ++ l.filter (n ≤ ·) = l := by
  have happend : (l.filter (· < n) ++ l.filter (n ≤ ·)).Pairwise (· < ·) := by
    refine List.pairwise_append.2 ⟨hl.filter _, hl.filter _, fun a ha b hb => ?_⟩
    have han := of_decide_eq_true (List.mem_filter.1 ha).2
    have hnb := of_decide_eq_true (List.mem_filter.1 hb).2
    exact Nat.lt_of_lt_of_le han hnb
  refine happend.eq_of_mem_iff hl fun a => ?_
  rw [List.mem_append, List.mem_filter, List.mem_filter, ← and_or_left]
  exact and_iff_left ((Nat.lt_or_ge a n).imp decide_eq_true decide_eq_true)

theorem initial_filter_lt (hl : l.Pairwise (· < ·)) (n : Nat) : l.filter (· < n) <+: l :=
  ⟨_, filter_lt_append_filter_le hl n⟩

theorem filter_lt_succ_of_mem (hl : l.Pairwise (· < ·)) (hn : n ∈ l) :
    l.filter (· < n + 1) = l.filter (· < n) ++ [n] := by
  have happend : (l.filter (· < n) ++ [n]).Pairwise (· < ·) := by
    refine List.pairwise_append.2 ⟨hl.filter _, List.pairwise_singleton .., fun a ha b hb => ?_⟩
    rw [List.mem_singleton.1 hb]
    exact of_decide_eq_true (List.mem_filter.1 ha).2
  refine (hl.filter _).eq_of_mem_iff happend fun a => ?_
  simp only [List.mem_append, List.mem_filter, List.mem_singleton, decide_eq_true_eq]
  constructor
  · rintro ⟨ha, hlt⟩
    rcases Nat.lt_or_ge a n with hlt' | hge
    · exact .inl ⟨ha, hlt'⟩
    · exact .inr (by omega)
  · rintro (⟨ha, hlt⟩ | rfl)
    · exact ⟨ha, by omega⟩
    · exact ⟨hn, by omega⟩

theorem filter_lt_succ_of_not_mem (hn : n ∉ l) : l.filter (· < n + 1) = l.filter (· < n) := by
  refine List.filter_congr fun a ha => ?_
  have hne : a ≠ n := fun h => hn (h ▸ ha)
  simp only [decide_eq_decide]
  omega

/-- A number of the list stands behind the smaller ones. -/
theorem getElem?_length_filter_lt (hl : l.Pairwise (· < ·)) (hn : n ∈ l) :
    l[(l.filter (· < n)).length]? = some n := by
  have hsplit := filter_lt_append_filter_le hl (n + 1)
  rw [filter_lt_succ_of_mem hl hn, List.append_assoc] at hsplit
  have hget : (l.filter (· < n) ++ ([n] ++ l.filter (n + 1 ≤ ·)))[(l.filter (· < n)).length]? =
      some n := by
    rw [List.getElem?_append_right (Nat.le_refl _), Nat.sub_self]
    rfl
  rwa [hsplit] at hget

theorem le_of_getElem?_eq_some (hl : l.Pairwise (· < ·)) {k : Nat}
    (hk : (l.filter (· < n)).length ≤ k) (hm : l[k]? = some m) : n ≤ m := by
  rw [← filter_lt_append_filter_le hl n, List.getElem?_append_right hk] at hm
  exact of_decide_eq_true (List.mem_filter.1 (List.mem_of_getElem? hm)).2

theorem length_filter_lt_of_getElem? (hl : l.Pairwise (· < ·)) {k : Nat} (hm : l[k]? = some m) :
    (l.filter (· < m)).length = k := by
  have hnodup : l.Nodup := hl.imp Nat.ne_of_lt
  have hindex := getElem?_length_filter_lt hl (List.mem_of_getElem? hm)
  obtain ⟨hlt, -⟩ := List.getElem?_eq_some_iff.1 hindex
  exact (List.getElem?_inj hlt hnodup).1 (hindex.trans hm.symm)

end Ascending

/-! ## Searches from some place on -/

namespace Regex.Scratch

open ByteSearch.Search.Engine (advance arrival)

variable {budget : Budget} {p : Program} {h : Buffer}

/-- Steps over a number of symbols from a state on, unless that is dead. -/
def walkFrom (budget : Budget) (p : Program) (h : Buffer) (count offset : Nat)
    (state : Option Nat) (sc : Scratch) : Scratch × Option Nat :=
  match state with
  | some number => walk budget p h count offset number sc
  | none => (sc, none)

theorem walkFrom_zero (offset : Nat) (state : Option Nat) (sc : Scratch) :
    walkFrom budget p h 0 offset state sc = (sc, none) := by
  cases state <;> rfl

theorem walkFrom_succ (count offset : Nat) (state : Option Nat) (sc : Scratch) :
    walkFrom budget p h (count + 1) offset state sc =
      match advance budget p sc state h[offset]? with
      | (sc, move) =>
        match arrival move with
        | none => (sc, some offset)
        | some state => walkFrom budget p h count (offset + 1) state sc := by
  cases state with
  | none => rfl
  | some number =>
    rw [walkFrom, walk, advance]
    rcases step budget p sc number h[offset]? with ⟨sc, _ | _ | _⟩ <;> rfl

theorem search_eq_walkFrom (count : Nat) (sc : Scratch) :
    sc.search budget p h count =
      match sc.enter budget p with
      | (sc, move) =>
        match arrival move with
        | none => (sc, some 0)
        | some state => walkFrom budget p h count 0 state sc := by
  rw [search]
  rcases sc.enter budget p with ⟨sc, _ | _ | _⟩ <;> rfl

end Regex.Scratch

namespace Search

open ByteSearch.Regex (Budget Compiled Expr Program Scratch)

/-- A handler that stops at the match of a number, or at none. -/
def Handler.StopsAt (handler : Handler) : Option Nat → Prop
  | none => ∀ delivered, handler delivered = false
  | some k => ∀ delivered, (delivered.length < k → handler delivered = false) ∧
      (delivered.length = k → handler delivered = true)

namespace Engine

variable {budget : Budget} {p : Program} {h : Buffer} {ends : List Nat} {handler : Handler}

theorem deliver_eq (place : Place) (sc : Scratch) (delivered : List Match) :
    deliver budget p h ends handler place sc delivered =
      match resume budget p h ends place sc with
      | (sc, .gaveUp offset) =>
        ⟨delivered, .failed ((SearchStop.gaveUp offset).failure sc.clears), sc⟩
      | (sc, .finished) => ⟨delivered, .completed, sc⟩
      | (sc, .found stop place) =>
        if handler (delivered ++ [matchAt stop]) then
          ⟨delivered ++ [matchAt stop], .terminated, sc⟩
        else deliver budget p h ends handler place sc (delivered ++ [matchAt stop]) := by
  rw [deliver]
  split <;> rename_i hresume <;> rw [hresume]

theorem deliver_inside_zero (state : Option Nat) (sc : Scratch) (delivered : List Match) :
    deliver budget p h ends handler (.inside state 0) sc delivered =
      ⟨delivered, .completed, sc⟩ := by
  rw [deliver_eq]
  rfl

/-- What the next symbol brings. -/
theorem deliver_inside_succ (left : Nat) (state : Option Nat) (sc : Scratch)
    (delivered : List Match) :
    deliver budget p h ends handler (.inside state (left + 1)) sc delivered =
      match advance budget p sc state h[h.size - left]? with
      | (sc, move) =>
        match arrival move with
        | none =>
          ⟨delivered, .failed ((SearchStop.gaveUp (h.size - left)).failure sc.clears), sc⟩
        | some state =>
          if h.size - left ∈ ends then
            if handler (delivered ++ [matchAt (h.size - left)]) then
              ⟨delivered ++ [matchAt (h.size - left)], .terminated, sc⟩
            else
              deliver budget p h ends handler (.inside state left) sc
                (delivered ++ [matchAt (h.size - left)])
          else deliver budget p h ends handler (.inside state left) sc delivered := by
  rw [deliver_eq, resume, seek]
  rcases advance budget p sc state h[h.size - left]? with ⟨sc, move⟩
  cases hstate : arrival move with
  | none => simp only [hstate]
  | some state =>
    by_cases hmem : h.size - left ∈ ends
    · simp only [hstate, if_pos hmem]
    · simp only [hstate, if_neg hmem]
      rw [deliver_eq, resume]

/-- The matches that end before an offset. -/
def before (ends : List Nat) (offset : Nat) : List Match :=
  (ends.filter (· < offset)).map matchAt

theorem before_zero : before ends 0 = [] := by
  have hnone : ends.filter (· < 0) = [] := List.filter_eq_nil_iff.2 fun j _ => by simp
  rw [before, hnone, List.map_nil]

theorem before_succ_of_mem (hends : ends.Pairwise (· < ·)) {o : Nat} (ho : o ∈ ends) :
    before ends (o + 1) = before ends o ++ [matchAt o] := by
  rw [before, filter_lt_succ_of_mem hends ho, List.map_append, List.map_singleton, before]

theorem before_succ_of_not_mem {o : Nat} (ho : o ∉ ends) :
    before ends (o + 1) = before ends o := by
  rw [before, filter_lt_succ_of_not_mem ho, before]

theorem length_before_succ (hends : ends.Pairwise (· < ·)) {o : Nat} (ho : o ∈ ends) :
    (before ends (o + 1)).length = (before ends o).length + 1 := by
  rw [before_succ_of_mem hends ho, List.length_append, List.length_singleton]

theorem before_matchEnds (e : Expr) (h : Buffer) :
    before (e.matchEnds h) (h.size + 1) = (e.matchEnds h).map matchAt := by
  rw [before, e.filter_matchEnds_lt]

/-- The end of a scan for at most `limit` matches, given what came of its search. -/
def closing (c : Compiled) (h : Buffer) (limit : Option Nat) : Scratch × Option Nat → Scan Scratch
  | (sc, some offset) =>
    ⟨before (c.expr.matchEnds h) offset,
      .failed ((SearchStop.gaveUp offset).failure sc.clears), sc⟩
  | (sc, none) =>
    ⟨before (c.expr.matchEnds h) ((lastWanted (c.expr.matchEnds h) limit).getD h.size + 1),
      if (lastWanted (c.expr.matchEnds h) limit).isSome then .terminated else .completed, sc⟩

theorem scan_eq_closing (c : Compiled) (limit : Option Nat) (sc : Scratch) :
    scan budget c h limit sc = closing c h limit
      (sc.search budget c.program h ((lastWanted (c.expr.matchEnds h) limit).getD h.size + 1)) := by
  rw [scan]
  rcases sc.search budget c.program h
    ((lastWanted (c.expr.matchEnds h) limit).getD h.size + 1) with ⟨sc, _ | _⟩ <;> rfl

/-- A limit is not reached as long as fewer matches were delivered. -/
def Below (limit : Option Nat) (n : Nat) : Prop :=
  ∀ k, limit = some k → n < k

theorem below_zero {limit : Option Nat} (hlimit : limit ≠ some 0) : Below limit 0 :=
  fun _ hk => Nat.pos_of_ne_zero fun hzero => hlimit (hzero ▸ hk)

theorem Below.succ {limit : Option Nat} {n : Nat} (hbelow : Below limit n)
    (hne : limit ≠ some (n + 1)) : Below limit (n + 1) := by
  intro k hk
  have hlt := hbelow k hk
  have hne' : k ≠ n + 1 := fun heq => hne (heq ▸ hk)
  omega

theorem eq_true_iff_of_stopsAt {limit : Option Nat} (hhandler : handler.StopsAt limit)
    {delivered : List Match} {n : Nat} (hlength : delivered.length = n + 1)
    (hbelow : Below limit n) : handler delivered = true ↔ limit = some (n + 1) := by
  cases limit with
  | none => simp [hhandler delivered]
  | some k =>
    have hk := hbelow k rfl
    obtain ⟨hgo, hstop⟩ := hhandler delivered
    rw [Option.some.injEq]
    rcases Nat.lt_or_eq_of_le hk with hlt | heq
    · rw [hgo (by omega)]
      exact iff_of_false Bool.false_ne_true (by omega)
    · exact iff_of_true (hstop (by omega)) heq.symm

/-- A match that is wanted and not delivered yet ends at the offset or behind it. -/
theorem le_lastWanted_getD (hends : ends.Pairwise (· < ·)) {limit : Option Nat} {n o : Nat}
    (ho : o ≤ n) (hbelow : Below limit (before ends o).length) :
    o ≤ (lastWanted ends limit).getD n := by
  rw [before, List.length_map] at hbelow
  cases hlast : lastWanted ends limit with
  | none => exact ho
  | some last =>
    unfold lastWanted at hlast
    split at hlast
    · exact le_of_getElem?_eq_some hends (Nat.le_of_lt_succ (hbelow _ rfl)) hlast
    · cases hlast

/-- The last match that is wanted ends at the offset, if one more match is wanted there. -/
theorem lastWanted_eq_some (hends : ends.Pairwise (· < ·)) {o : Nat} (ho : o ∈ ends) :
    lastWanted ends (some ((before ends o).length + 1)) = some o := by
  rw [lastWanted, before, List.length_map]
  exact getElem?_length_filter_lt hends ho

theorem lastWanted_eq_none {limit : Option Nat} (hbelow : Below limit ends.length) :
    lastWanted ends limit = none := by
  unfold lastWanted
  split
  · exact List.getElem?_eq_none (Nat.le_of_lt_succ (hbelow _ rfl))
  · rfl

/-- One symbol. All matches before it were handed over, and fewer than are wanted. The handler stops
behind it if a match ends there and this is the last one that is wanted. -/
theorem deliver_inside_before (hends : ends.Pairwise (· < ·)) {limit : Option Nat}
    (hhandler : handler.StopsAt limit) {left o : Nat} (ho : h.size - left = o)
    (hbelow : Below limit (before ends o).length) (state : Option Nat) (sc : Scratch) :
    deliver budget p h ends handler (.inside state (left + 1)) sc (before ends o) =
      match advance budget p sc state h[o]? with
      | (sc, move) =>
        match arrival move with
        | none =>
          ⟨before ends o, .failed ((SearchStop.gaveUp o).failure sc.clears), sc⟩
        | some state =>
          if o ∈ ends ∧ limit = some ((before ends o).length + 1) then
            ⟨before ends (o + 1), .terminated, sc⟩
          else
            deliver budget p h ends handler (.inside state left) sc (before ends (o + 1)) := by
  rw [deliver_inside_succ, ho]
  rcases advance budget p sc state h[o]? with ⟨sc, move⟩
  cases hstate : arrival move with
  | none => simp only [hstate]
  | some state =>
    simp only [hstate]
    by_cases hmem : o ∈ ends
    · have hstop := eq_true_iff_of_stopsAt hhandler (length_before_succ hends hmem) hbelow
      rw [if_pos hmem, ← before_succ_of_mem hends hmem]
      simp only [hstop, hmem, true_and]
    · rw [if_neg hmem, if_neg (fun hand => hmem hand.1), before_succ_of_not_mem hmem]

/-- What is handed over from an offset on is what the rest of the search finds. -/
theorem deliver_inside_eq (c : Compiled) {limit : Option Nat} (hhandler : handler.StopsAt limit)
    {left : Nat} (hleft : left ≤ h.size + 1) (state : Option Nat) (sc : Scratch)
    (hbelow : Below limit (before (c.expr.matchEnds h) (h.size + 1 - left)).length) :
    deliver budget c.program h (c.expr.matchEnds h) handler (.inside state left) sc
        (before (c.expr.matchEnds h) (h.size + 1 - left)) =
      closing c h limit (Scratch.walkFrom budget c.program h
        ((lastWanted (c.expr.matchEnds h) limit).getD h.size + 1 - (h.size + 1 - left))
        (h.size + 1 - left) state sc) := by
  have hends := Expr.pairwise_matchEnds (h := h) c.expr
  have hall := before_matchEnds c.expr h
  generalize hM : c.expr.matchEnds h = M at *
  induction left generalizing state sc with
  | zero =>
    -- all matches were handed over, and the handler waits for more
    rw [Nat.sub_zero, hall, List.length_map] at hbelow
    have hlast := lastWanted_eq_none hbelow
    rw [deliver_inside_zero, Nat.sub_zero, hlast, Option.getD_none, Nat.sub_self,
      Scratch.walkFrom_zero, closing, hM, hlast]
    rfl
  | succ left ih =>
    have hoffset : h.size + 1 - (left + 1) = h.size - left := by omega
    have hnext : h.size + 1 - left = h.size - left + 1 := by omega
    rw [hoffset] at hbelow ⊢
    rw [hnext] at ih
    generalize ho : h.size - left = o at *
    have hle : o ≤ h.size := by omega
    have hwanted := le_lastWanted_getD hends hle hbelow
    have hcount : (lastWanted M limit).getD h.size + 1 - o =
        (lastWanted M limit).getD h.size + 1 - (o + 1) + 1 := by omega
    rw [deliver_inside_before hends hhandler ho hbelow, hcount, Scratch.walkFrom_succ]
    rcases advance budget c.program sc state h[o]? with ⟨sc, move⟩
    cases hstate : arrival move with
    | none => simp only [hstate, closing, hM]
    | some state =>
      simp only [hstate]
      by_cases hdone : o ∈ M ∧ limit = some ((before M o).length + 1)
      · -- the last match that is wanted: a search that knows the limit ends here too
        have hlast : lastWanted M limit = some o := by
          rw [hdone.2]
          exact lastWanted_eq_some hends hdone.1
        rw [if_pos hdone, hlast, Option.getD_some, Nat.sub_self, Scratch.walkFrom_zero, closing,
          hM, hlast]
        rfl
      · rw [if_neg hdone]
        refine ih (by omega) state sc ?_
        by_cases hmem : o ∈ M
        · rw [length_before_succ hends hmem]
          exact hbelow.succ fun hlimit => hdone ⟨hmem, hlimit⟩
        · rw [before_succ_of_not_mem hmem]
          exact hbelow

/-- **Handlers and limits.** A handler that stops at the match of some number gets what a scan for
as many matches finds, and the scratch space is left the same. -/
theorem scanWith_eq_scan (c : Compiled) {limit : Option Nat} (hlimit : limit ≠ some 0)
    (hhandler : handler.StopsAt limit) (sc : Scratch) :
    scanWith budget c h handler sc = scan budget c h limit sc := by
  rw [scanWith, scan_eq_closing, deliver_eq, resume, Scratch.search_eq_walkFrom]
  rcases sc.enter budget c.program with ⟨sc, move⟩
  cases hstate : arrival move with
  | none => simp only [hstate, closing, before_zero]
  | some state =>
    simp only [hstate]
    have hbelow : Below limit (before (c.expr.matchEnds h) (h.size + 1 - (h.size + 1))).length := by
      rw [Nat.sub_self, before_zero]
      exact below_zero hlimit
    have hinside := @deliver_inside_eq budget h handler c limit hhandler _
      (Nat.le_refl (h.size + 1)) state sc hbelow
    rw [Nat.sub_self, before_zero, deliver_eq, resume] at hinside
    exact hinside

end Engine

end Search

end ByteSearch
