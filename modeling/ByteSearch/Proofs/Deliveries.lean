import ByteSearch.Proofs.EngineSearches
import ByteSearch.Proofs.Exhaustion

/-!
# What a handler gets

A pattern and a haystack have one ascending list of the ends of all matches. `Delivers` says which
of them a scan hands over, and what this has to do with its ending. It holds of a scan from a place
on, if the matches before that place were handed over (`Searcher.exists_scansFrom`): the proof
follows the answers, each of which adds the next match or ends the scan, and less of the haystack is
left behind every match. The scratch space of earlier scans will do (`Searcher.serves_of_used`).

Main statement: `Searcher.scans_deliver`. The budget and the scratch space decide only whether a
scan fails. It may also fail behind the last match (`failed_behind_last_match`).
-/

namespace ByteSearch.Search

open ByteSearch.Regex (Budget Compiled Expr IsPlain Scratch sourceOf)

namespace Engine

/-- What a scan hands over to a handler that stops at the match of a number. `ends` lists the ends
of all matches. -/
structure Delivers {κ : Type} (ends : List Nat) (limit : Option Nat) (s : Scan κ) : Prop where
  /-- A prefix of the matches is handed over: one match for each end, in order. -/
  found : s.found <+: ends.map fun stop => ⟨0, none, stop, 0⟩
  /-- The scan was stopped exactly if the match of the number was handed over. -/
  terminated_iff : s.ending = .terminated ↔
    ∃ k stop, limit = some (k + 1) ∧ ends[k]? = some stop ∧ ⟨0, none, stop, 0⟩ ∈ s.found
  /-- Then nothing was handed over behind it. -/
  length_of_terminated : s.ending = .terminated → limit = some s.found.length
  /-- The scan was completed exactly if it did not fail, all matches were handed over, and the
  handler never stopped. -/
  completed_iff : s.ending = .completed ↔ (∀ failure, s.ending ≠ .failed failure) ∧
    s.found = (ends.map fun stop => ⟨0, none, stop, 0⟩) ∧ Below limit s.found.length
  /-- A failure comes before the handler stops. -/
  length_of_failed : ∀ failure, s.ending = .failed failure → Below limit s.found.length

section

variable {κ : Type} {ends : List Nat} {limit : Option Nat}

theorem mem_before {o stop : Nat} : matchAt stop ∈ before ends o ↔ stop ∈ ends ∧ stop < o := by
  rw [before, List.mem_map]
  constructor
  · rintro ⟨stop', hmem, heq⟩
    obtain rfl : stop' = stop := congrArg Match.stop heq
    exact ⟨(List.mem_filter.1 hmem).1, of_decide_eq_true (List.mem_filter.1 hmem).2⟩
  · rintro ⟨hmem, hlt⟩
    exact ⟨stop, List.mem_filter.2 ⟨hmem, decide_eq_true hlt⟩, rfl⟩

theorem initial_before (hends : ends.Pairwise (· < ·)) (o : Nat) :
    before ends o <+: ends.map matchAt :=
  (initial_filter_lt hends o).map matchAt

theorem length_before_of_getElem? (hends : ends.Pairwise (· < ·)) {k o : Nat}
    (ho : ends[k]? = some o) : (before ends o).length = k := by
  rw [before, List.length_map, length_filter_lt_of_getElem? hends ho]

theorem length_before_le_of_le {o o' : Nat} (hle : o ≤ o') :
    (before ends o).length ≤ (before ends o').length := by
  rw [before, before, List.length_map, List.length_map]
  refine (List.monotone_filter_right ends fun stop hstop => ?_).length_le
  exact decide_eq_true (Nat.lt_of_lt_of_le (of_decide_eq_true hstop) hle)

section

variable {EndsAt : Nat → Prop} {size : Nat} (hmem : ∀ j, j ∈ ends ↔ j ≤ size ∧ EndsAt j)

include hmem

/-- No match is left out up to the next one. -/
theorem before_of_isFirstFrom {offset stop : Nat} (hfirst : IsFirstFrom EndsAt size offset stop) :
    before ends stop = before ends offset := by
  rw [before, before]
  refine congrArg (List.map matchAt) (List.filter_congr fun j hj => decide_eq_decide.2 ?_)
  constructor
  · exact fun hlt => Nat.lt_of_not_le fun hle => hfirst.not_endsAt j hle hlt ((hmem j).1 hj).2
  · exact fun hlt => Nat.lt_of_lt_of_le hlt hfirst.offset_le

/-- Where there is no further match all were handed over. -/
theorem before_of_finished {offset : Nat} (hnone : ∀ j, offset ≤ j → j ≤ size → ¬EndsAt j) :
    before ends offset = ends.map matchAt := by
  have hall : ∀ j ∈ ends, j < offset := fun j hj => Nat.lt_of_not_le fun hle =>
    hnone j hle ((hmem j).1 hj).1 ((hmem j).1 hj).2
  rw [before, List.filter_eq_self.2 fun j hj => decide_eq_true (hall j hj)]

end

/-- A failure, before as many matches were handed over as are wanted. -/
theorem delivers_of_failed (hends : ends.Pairwise (· < ·)) {offset : Nat}
    (hbelow : Below limit (before ends offset).length) (failure : Failure) (sc : κ) :
    Delivers ends limit ⟨before ends offset, .failed failure, sc⟩ where
  found := initial_before hends offset
  terminated_iff := by
    refine iff_of_false (by rintro ⟨⟩) ?_
    rintro ⟨k, stop, rfl, hstop, hmem⟩
    obtain ⟨hstop', hlt⟩ := mem_before.1 hmem
    have hle : (before ends (stop + 1)).length ≤ (before ends offset).length :=
      length_before_le_of_le hlt
    rw [length_before_succ hends hstop', length_before_of_getElem? hends hstop] at hle
    exact Nat.not_lt_of_le hle (hbelow (k + 1) rfl)
  length_of_terminated := by rintro ⟨⟩
  completed_iff := iff_of_false (by rintro ⟨⟩) fun hall => hall.1 failure rfl
  length_of_failed := fun _ _ => hbelow

/-- The last match that is wanted. -/
theorem delivers_of_terminated (hends : ends.Pairwise (· < ·)) {stop : Nat} (hstop : stop ∈ ends)
    (hlimit : limit = some ((before ends stop).length + 1)) (sc : κ) :
    Delivers ends limit ⟨before ends (stop + 1), .terminated, sc⟩ := by
  have hlength := length_before_succ hends hstop
  have hget : ends[(before ends stop).length]? = some stop := by
    rw [before, List.length_map]
    exact getElem?_length_filter_lt hends hstop
  exact {
    found := initial_before hends (stop + 1)
    terminated_iff := iff_of_true rfl
      ⟨_, stop, hlimit, hget, mem_before.2 ⟨hstop, Nat.lt_succ_self stop⟩⟩
    length_of_terminated := fun _ => hlimit.trans (congrArg some hlength.symm)
    completed_iff := by
      refine iff_of_false (by rintro ⟨⟩) fun hall => ?_
      exact Nat.lt_irrefl _ (hlength ▸ hall.2.2 _ hlimit)
    length_of_failed := by rintro _ ⟨⟩ }

/-- The end of the haystack, before as many matches were handed over as are wanted. -/
theorem delivers_of_completed (hbelow : Below limit ends.length) (sc : κ) :
    Delivers ends limit ⟨ends.map matchAt, .completed, sc⟩ where
  found := List.prefix_rfl
  terminated_iff := by
    refine iff_of_false (by rintro ⟨⟩) ?_
    rintro ⟨k, stop, rfl, hstop, -⟩
    have hlt : k < ends.length := (List.getElem?_eq_some_iff.1 hstop).1
    exact Nat.not_lt_of_le hlt (hbelow (k + 1) rfl)
  length_of_terminated := by rintro ⟨⟩
  completed_iff := by
    refine iff_of_true rfl ⟨by rintro _ ⟨⟩, rfl, ?_⟩
    rw [List.length_map]
    exact hbelow
  length_of_failed := by rintro _ ⟨⟩

/-- A scan that does not fail hands over as many matches as the handler wants, if there are that
many. -/
theorem Delivers.found_eq_take {k : Nat} {s : Scan κ} (hdelivers : Delivers ends (some k) s)
    (hok : ∀ failure, s.ending ≠ .failed failure) (hk : k ≤ ends.length) :
    s.ending = .terminated ∧ s.found = (ends.map matchAt).take k := by
  have hfound := List.prefix_iff_eq_take.1 hdelivers.found
  cases hending : s.ending with
  | completed =>
    obtain ⟨-, hall, hbelow⟩ := hdelivers.completed_iff.1 hending
    have hlt := hbelow k rfl
    rw [hall, List.length_map] at hlt
    exact absurd hk (Nat.not_le_of_lt hlt)
  | terminated =>
    rw [← Option.some.inj (hdelivers.length_of_terminated hending)] at hfound
    exact ⟨rfl, hfound⟩
  | failed failure => exact absurd hending (hok failure)

end

end Engine

/-! ## Scans -/

namespace Searcher

open Engine (Below Delivers Scan before matchAt)

variable {α κ π : Type} {s : Searcher α κ π} {budget : Budget} {a : α} {handler : Handler}

section

variable {source : List Char} (hbuilt : s.build budget true source = .ok a)

include hbuilt

/-- A scan leaves scratch space of its automaton. -/
theorem serves_of_scansFrom {h : Buffer} {place : π} {offset : Nat} {sc : κ}
    {delivered : List Engine.Match} {r : Scan κ}
    (hscan : s.ScansFrom budget a h handler place sc delivered r)
    (hserves : s.Serves budget a sc) (hplace : s.StandsAt budget a h sc place offset) :
    s.Serves budget a r.scratch := by
  induction hscan generalizing offset with
  | stopped hnext | finished hnext | terminated hnext =>
    have hserves' := s.serves_next hserves hplace
    rwa [hnext] at hserves'
  | resumed hnext _ _ ih =>
    have hserves' := s.serves_next hserves hplace
    rw [hnext] at hserves'
    exact ih hserves' (s.found_of_next hbuilt hserves hplace hnext).2.2

/-- So do all scans, one after the other. -/
theorem serves_of_used {sc : κ} (hused : s.Used budget a sc) : s.Serves budget a sc := by
  induction hused with
  | new => exact s.serves_create budget a
  | left _ h handler hscan ih =>
    exact serves_of_scansFrom hbuilt hscan ih (s.standsAt_start ih h)

variable {h : Buffer} {ends : List Nat} {limit : Option Nat}

/-- From a place on, a scan comes to an end, and it hands over the matches that are left, up to the
one that is the last wanted. -/
theorem exists_scansFrom (hends : ends.Pairwise (· < ·))
    (hmem : ∀ j, j ∈ ends ↔ j ≤ h.size ∧ s.EndsAt source h j)
    (hhandler : handler.StopsAt limit) {place : π} {offset : Nat} {sc : κ}
    (hserves : s.Serves budget a sc) (hplace : s.StandsAt budget a h sc place offset)
    (hbelow : Below limit (before ends offset).length) :
    ∃ r, s.ScansFrom budget a h handler place sc (before ends offset) r ∧
      Delivers ends limit r := by
  -- less of the haystack is left behind every match
  induction hleft : h.size + 1 - offset using Nat.strongRecOn generalizing place offset sc with
  | ind left ih =>
    have hserves' := s.serves_next hserves hplace
    rcases hnext : s.next budget a h place sc with ⟨sc', ⟨pattern, stop, place'⟩ | _ | reason⟩
    · obtain ⟨rfl, hfirst, hplace'⟩ := s.found_of_next hbuilt hserves hplace hnext
      have hoffset := hfirst.offset_le
      have hsize := hfirst.stop_le
      have hstop : stop ∈ ends := (hmem stop).2 ⟨hsize, hfirst.endsAt⟩
      have hsame := Engine.before_of_isFirstFrom hmem hfirst
      have happend : before ends offset ++ [⟨Pattern.identifier, none, stop, 0⟩] =
          before ends (stop + 1) := by
        rw [← hsame]
        exact (Engine.before_succ_of_mem hends hstop).symm
      have hlength := Engine.length_before_succ hends hstop
      rw [hnext] at hserves'
      rw [← hsame] at hbelow
      have hstops := Engine.eq_true_iff_of_stopsAt hhandler hlength hbelow
      by_cases hlast : limit = some ((before ends stop).length + 1)
      · have hscan := ScansFrom.terminated hnext (happend ▸ hstops.2 hlast)
        rw [happend] at hscan
        exact ⟨_, hscan, Engine.delivers_of_terminated hends hstop hlast sc'⟩
      · have hmore := Bool.eq_false_iff.2 (mt hstops.1 hlast)
        obtain ⟨r, hrest, hr⟩ := ih (h.size + 1 - (stop + 1)) (by omega) hserves' hplace'
          (hlength ▸ hbelow.succ hlast) rfl
        exact ⟨r, .resumed hnext (happend ▸ hmore) (happend ▸ hrest), hr⟩
    · have hall := Engine.before_of_finished hmem (s.finished_of_next hbuilt hserves hplace hnext)
      refine ⟨_, .finished hnext, ?_⟩
      rw [hall, List.length_map] at hbelow
      rw [hall]
      exact Engine.delivers_of_completed hbelow sc'
    · exact ⟨_, .stopped hnext, Engine.delivers_of_failed hends hbelow _ sc'⟩

end

/-- A scan of a haystack for a handler that stops at the match of a number, or never. The budget is
the one with which the pattern was compiled, and the scratch space has any history. -/
inductive ScansFor (s : Searcher α κ π) (budget : Budget) (p : Pattern) (h : Buffer)
    (limit : Option Nat) : Scan κ → Prop where
  | intro {a : α} {sc : κ} {handler : Handler} {r : Scan κ} (hc : s.compile budget p = .ok a)
    (hused : s.Used budget a sc) (hlimit : limit ≠ some 0) (hhandler : handler.StopsAt limit)
    (hscan : s.Scans budget a h handler sc r) : ScansFor s budget p h limit r

theorem exists_ends (EndsAt : Nat → Prop) (size : Nat) :
    ∃ ends : List Nat, ends.Pairwise (· < ·) ∧ ∀ j, j ∈ ends ↔ j ≤ size ∧ EndsAt j := by
  classical
  refine ⟨(List.range (size + 1)).filter (EndsAt ·), List.pairwise_lt_range.filter _, fun j => ?_⟩
  rw [List.mem_filter, List.mem_range, Nat.lt_succ_iff, decide_eq_true_iff]

/-- **Matches for a handler.** A pattern and a haystack have one ascending list of the ends of all
matches. Whatever the budget is with which the pattern was compiled, and whatever scans the scratch
space has served, a scan comes to an end with one result and hands over matches from this list as
`Delivers` says. All scans that are completed hand over the same matches. -/
theorem scans_deliver (s : Searcher α κ π) (p : Pattern) (h : Buffer) :
    ∃ ends : List Nat, ends.Pairwise (· < ·) ∧
      (∀ j, j ∈ ends ↔ j ≤ h.size ∧ s.EndsAt (sourceOf p.bytes) h j) ∧
      (∀ budget a sc limit handler, s.compile budget p = .ok a → s.Used budget a sc →
        limit ≠ some 0 → Handler.StopsAt handler limit →
        ∃ r, s.Scans budget a h handler sc r ∧ (∀ r', s.Scans budget a h handler sc r' → r' = r) ∧
          Delivers ends limit r) ∧
      ∀ budget limit r budget' limit' r',
        s.ScansFor budget p h limit r → s.ScansFor budget' p h limit' r' →
        r.ending = .completed → r'.ending = .completed → r.found = r'.found := by
  obtain ⟨ends, hends, hmem⟩ := exists_ends (s.EndsAt (sourceOf p.bytes) h) h.size
  have hdelivers : ∀ budget a sc limit handler, s.compile budget p = .ok a →
      s.Used budget a sc → limit ≠ some 0 → Handler.StopsAt handler limit →
      ∃ r, s.Scans budget a h handler sc r ∧ (∀ r', s.Scans budget a h handler sc r' → r' = r) ∧
        Delivers ends limit r := by
    intro budget a sc limit handler hc hused hlimit hhandler
    have hbuilt := s.toBuilder.build_of_compile hc
    have hserves := serves_of_used hbuilt hused
    obtain ⟨r, hscan, hr⟩ := exists_scansFrom hbuilt hends hmem hhandler hserves
      (s.standsAt_start hserves h) (by rw [Engine.before_zero]; exact Engine.below_zero hlimit)
    rw [Engine.before_zero] at hscan
    exact ⟨r, hscan, fun r' => hscan.unique, hr⟩
  have hcompleted : ∀ budget limit r, s.ScansFor budget p h limit r → r.ending = .completed →
      r.found = ends.map matchAt := by
    rintro budget limit r ⟨hc, hused, hlimit, hhandler, hscan⟩ hdone
    obtain ⟨r', -, hunique, hr⟩ := hdelivers _ _ _ _ _ hc hused hlimit hhandler
    obtain rfl := hunique r hscan
    exact (hr.completed_iff.1 hdone).2.1
  exact ⟨ends, hends, hmem, hdelivers, fun _ _ _ _ _ _ hscan hscan' hdone hdone' =>
    (hcompleted _ _ _ hscan hdone).trans (hcompleted _ _ _ hscan' hdone').symm⟩

/-- A handler that stops at the second of two overlapping matches. The scratch space was used for
the same haystack before. -/
theorem scans_deliver_overlapping :
    ∃ c sc r,
      Engine.searcher.compile Engine.standardBudget ⟨[0x61, 0x62, 0x61], by decide⟩ = .ok c ∧
      Engine.searcher.Used Engine.standardBudget c sc ∧
      Engine.searcher.Scans Engine.standardBudget c #[0x61, 0x62, 0x61, 0x62, 0x61]
        (fun delivered => delivered.length == 2) sc r ∧
      r.ending = .terminated ∧ r.found = [⟨0, none, 3, 0⟩, ⟨0, none, 5, 0⟩] := by
  have hplain : IsPlain [0x61, 0x62, 0x61] := by decide
  have he := Regex.ofSource_sourceOf hplain
  have hcapacity : (Compiled.ofExpr (.inSequence ((Regex.sourceLiterals [0x61, 0x62, 0x61]).map
      Regex.Literal.expr))).minimumCapacity ≤ Engine.standardBudget.capacity := by decide +kernel
  generalize Expr.inSequence ((Regex.sourceLiterals [0x61, 0x62, 0x61]).map Regex.Literal.expr) =
    e at he hcapacity
  have hc : Engine.searcher.compile Engine.standardBudget ⟨[0x61, 0x62, 0x61], by decide⟩ =
      .ok (.ofExpr e) :=
    (automata_compile _ _).trans (Engine.compile_eq_ok he hcapacity)
  have hbuilt := automata.build_of_compile hc
  have hlist : e.matchEnds #[0x61, 0x62, 0x61, 0x62, 0x61] = [3, 5] :=
    (Regex.matchEnds_ofSource hplain he).trans (by decide)
  have hnever : Handler.StopsAt (fun _ => false) none := fun _ => rfl
  have hearlier : Engine.searcher.Scans Engine.standardBudget (.ofExpr e)
      #[0x61, 0x62, 0x61, 0x62, 0x61] (fun _ => false) {} _ :=
    Engine.scans_searcher _ (by decide) hnever {}
  have hused := Used.left (.new (s := Engine.searcher)) _ _ hearlier
  have hhandler : Handler.StopsAt (fun delivered => delivered.length == 2) (some 2) :=
    fun delivered => ⟨fun hlt => beq_false_of_ne (Nat.ne_of_lt hlt), beq_iff_eq.2⟩
  obtain ⟨ends, hascending, hends, hdelivers, -⟩ := scans_deliver Engine.searcher
    ⟨[0x61, 0x62, 0x61], by decide⟩ #[0x61, 0x62, 0x61, 0x62, 0x61]
  obtain rfl : ends = [3, 5] := hascending.eq_of_mem_iff (by decide) fun j => by
    rw [hends, ← hlist]
    exact (Engine.mem_matchEnds_iff hbuilt j).symm
  obtain ⟨r, hscan, hunique, hr⟩ := hdelivers _ _ _ _ _ hc hused (by decide) hhandler
  have hok : ∀ failure, r.ending ≠ .failed failure := by
    rw [← hunique _ (Engine.scans_searcher _ (by decide) hhandler _)]
    exact Engine.ending_of_unlimited rfl _ _ _
  exact ⟨_, _, r, hc, hused, hscan, hr.found_eq_take hok (by decide)⟩

end Searcher

namespace Engine

/-! ### A failure behind the last match -/

section Windows

open ByteSearch.Regex
open ByteSearch.Text (Ranges)

/-- The source text `a[ab]{12}x`: the states tell apart the letters that stand before them. -/
def windows : Pattern :=
  ⟨[0x61, 0x5B, 0x61, 0x62, 0x5D, 0x7B, 0x31, 0x32, 0x7D, 0x78], by decide⟩

def windowsExpr : Expr :=
  .sequence [.literal [0x61], .repetition 12 (some 12) true (.bytes [⟨0x61, 0x62⟩]),
    .literal [0x78]]

/-- What stands between the brackets. -/
def letterSet : ClassSet :=
  .union [.literal (.char 'a'), .literal (.char 'b')]

def windowsTree : Tree :=
  .sequence [.atom (.literal (.char 'a')),
    .repetition 12 (some 12) true (.atom (.bracketed false letterSet)),
    .atom (.literal (.char 'x'))]

theorem atom_letterSet :
    Meaning.atom {} (.bracketed false letterSet) = .ok (.bytes [⟨0x61, 0x62⟩]) := by
  have hmembers : Meaning.classMembers {} letterSet = .ok [⟨0x61, 0x62⟩] := by
    refine congrArg Except.ok (?_ : Ranges.normalize [⟨0x61, 0x61⟩, ⟨0x62, 0x62⟩] = _)
    rw [Ranges.normalize, List.mergeSort_of_pairwise (by decide)]
    rfl
  have hfold : Meaning.foldAndNegate {} false [⟨0x61, 0x62⟩] = [⟨0x61, 0x62⟩] := by
    show Ranges.normalize _ = _
    rw [Ranges.normalize, List.mergeSort_of_pairwise (by decide)]
    rfl
  rw [Meaning.atom, hmembers]
  exact congrArg (Except.ok <| Meaning.setExpr {} ·) hfold

theorem meaning_windowsTree : windowsTree.meaning {} = .ok (windowsExpr, {}) := by
  have ha : Meaning.atom {} (.literal (.char 'a')) = .ok (.literal [0x61]) := rfl
  have hx : Meaning.atom {} (.literal (.char 'x')) = .ok (.literal [0x78]) := rfl
  simp only [windowsTree, Tree.meaning, Tree.meanings, bind, Except.bind, Except.map, ha, hx,
    atom_letterSet]
  rfl

theorem ofSource_windows : Expr.ofSource (sourceOf windows.bytes) = .ok windowsExpr := by
  have hsource : sourceOf windows.bytes =
      ['a', '[', 'a', 'b', ']', '\x7b', '1', '2', '\x7d', 'x'] := by decide +kernel
  have htree : (Lexer.tokens ['a', '[', 'a', 'b', ']', '\x7b', '1', '2', '\x7d', 'x'] >>=
      Tree.ofTokens) = .ok windowsTree := by with_unfolding_all rfl
  rw [hsource, Expr.ofSource, ← bind_assoc, htree]
  simp only [bind, Except.bind, meaning_windowsTree]
  rfl

/-- The bytes of one match. -/
def oneMatch : Bytes :=
  0x61 :: (List.replicate 12 0x62 ++ [0x78])

/-- Letters behind which the states differ for a long time. -/
def letters (n : Nat) : Bytes :=
  (List.range n).map fun i => if i ^ 3 / 264 % 2 = 0 then 0x61 else 0x62

/-- One match, and many letters behind it. -/
def matchInFront : Buffer :=
  (oneMatch ++ letters 286).toArray

theorem size_matchInFront : matchInFront.size = 300 := by
  simp [matchInFront, oneMatch, letters]

theorem getElem?_matchInFront {i : Nat} (hi : i < 14) : matchInFront[i]? = oneMatch[i]? := by
  have hlength : i < oneMatch.length := hi
  rw [matchInFront, List.getElem?_toArray, List.getElem?_append_left hlength]

theorem occursAt_matchInFront {b : UInt8} {i : Nat} (hi : i < 14) (hb : oneMatch[i]? = some b) :
    OccursAt matchInFront [b] i := by
  refine ⟨by rw [size_matchInFront, List.length_singleton]; omega, fun j hj => ?_⟩
  obtain rfl : j = 0 := Nat.lt_one_iff.1 hj
  exact (getElem?_matchInFront hi).trans hb

theorem eq_of_getElem?_matchInFront {i : Nat} (hx : matchInFront[i]? = some 0x78) : i = 13 := by
  rw [matchInFront, List.getElem?_toArray, List.getElem?_append] at hx
  split at hx
  · rename_i hi
    have hfront : ∀ i, i < oneMatch.length → oneMatch[i]? = some 0x78 → i = 13 := by decide
    exact hfront i hi hx
  · obtain ⟨n, -, hletter⟩ := List.mem_map.1 (List.mem_of_getElem? hx)
    split at hletter <;> cases hletter

theorem matchEnds_matchInFront : windowsExpr.matchEnds matchInFront = [14] := by
  refine (Expr.pairwise_matchEnds _).eq_of_mem_iff (by decide) fun j => ?_
  rw [Expr.mem_matchEnds (Expr.wellFormed_of_ofSource ofSource_windows), List.mem_singleton]
  constructor
  · -- the last byte of a match is the only one of its kind
    rintro ⟨-, i, -, j, -, k, -, -, ⟨⟨-, hx⟩, rfl⟩, rfl⟩
    have hk := eq_of_getElem?_matchInFront (hx 0 (by decide))
    exact congrArg (· + 1) hk
  · rintro rfl
    have hletters : ∀ k, k < 12 → matchInFront[1 + k]? = some 0x62 := by
      intro k hk
      rw [getElem?_matchInFront (by omega)]
      exact (by decide : ∀ k, k < 12 → oneMatch[1 + k]? = some 0x62) k hk
    have hbetween : Regex.Times (Expr.Spans matchInFront (.bytes [⟨0x61, 0x62⟩])) 12 1 13 :=
      Regex.times_of_forall fun k hk => ⟨⟨0x62, hletters k hk, by decide⟩, rfl⟩
    have hrepeated : Expr.Spans matchInFront
        (.repetition 12 (some 12) true (.bytes [⟨0x61, 0x62⟩])) 1 13 :=
      ⟨12, Nat.le_refl _, fun m hm => Nat.le_of_eq (Option.some.inj hm), hbetween⟩
    have hfirst := occursAt_matchInFront (by decide) (show oneMatch[0]? = some 0x61 from rfl)
    have hlast := occursAt_matchInFront (by decide) (show oneMatch[13]? = some 0x78 from rfl)
    have hsize : 14 ≤ matchInFront.size := by
      rw [size_matchInFront]
      decide
    exact ⟨hsize, 0, Nat.zero_le _, 1, ⟨hfirst, rfl⟩, 13, hrepeated, 14, ⟨hlast, rfl⟩, rfl⟩

/-- The automaton can be searched at all, and its states stop fitting behind the match. Both take
the same long computation of the classes of bytes. -/
theorem exhausted_matchInFront :
    (Compiled.ofExpr windowsExpr).minimumCapacity ≤ 20000 ∧
      Scratch.exhaustedAt 20000 (Compiled.ofExpr windowsExpr).program matchInFront 301 =
        some 224 := by
  decide +kernel

/-- A search that fails behind the last match: all matches are handed over, the handler never
stops, and yet the scan is not completed. -/
theorem failed_behind_last_match :
    ∃ c r, searcher.compile ⟨20000, some 0⟩ windows = .ok c ∧
      (∀ j, j ≤ matchInFront.size ∧ searcher.EndsAt (sourceOf windows.bytes) matchInFront j ↔
        j ∈ [14]) ∧
      searcher.Scans ⟨20000, some 0⟩ c matchInFront (fun _ => false)
        (searcher.create ⟨20000, some 0⟩ c) r ∧
      r.found = [⟨0, none, 14, 0⟩] ∧ r.ending = .failed (.scratchExhausted 224 0) := by
  obtain ⟨hcapacity, hexhausted⟩ := exhausted_matchInFront
  have hc : searcher.compile ⟨20000, some 0⟩ windows = .ok (.ofExpr windowsExpr) :=
    (automata_compile _ _).trans (compile_eq_ok ofSource_windows hcapacity)
  have hhandler : Handler.StopsAt (fun _ => false) none := fun _ => rfl
  have hexpr : (Compiled.ofExpr windowsExpr).expr = windowsExpr := rfl
  refine ⟨_, _, hc, fun j => ?_, scans_searcher _ (by decide) hhandler {}, ?_⟩
  · rw [← matchEnds_matchInFront]
    exact (mem_matchEnds_iff (automata.build_of_compile hc) j).symm
  · have hsymbols : (lastWanted [14] none).getD 300 + 1 = 301 := rfl
    have hspent : Scratch.isSpent ⟨20000, some 0⟩ {} = true := rfl
    obtain ⟨sc, hsearch, hclears⟩ := Scratch.search_of_exhaustedAt hspent hexhausted
    rw [scan_eq_closing, hexpr, matchEnds_matchInFront, size_matchInFront, hsymbols, hsearch,
      closing, hexpr, matchEnds_matchInFront, SearchStop.failure, hclears]
    exact ⟨rfl, rfl⟩

end Windows

end Engine

end ByteSearch.Search
