import ByteSearch.Proofs.PlainPatterns
import ByteSearch.Search.Engine

/-!
# What the engine reports

A run of the engine that comes to its end records one match for each end of a match, in ascending
order (`engine_steps`). It does come to its end if the pattern is compiled and the number of clears
is not limited (`engine_completes`).

For a plain pattern the events are known from the bytes alone (`engine_matches_plain`): one for each
offset at which the pattern fits, at the end of the match. Without dots these are the events of
brute force, moved by the length of the pattern.
-/

namespace ByteSearch

/-! ## Searches without a limit -/

namespace Regex.Scratch

variable {budget : Budget}

theorem isSpent_of_unlimited (hb : budget.maxClears = none) (sc : Scratch) :
    sc.isSpent budget = false := by
  rw [isSpent, hb, Option.any_none]

theorem enter_of_unlimited (hb : budget.maxClears = none) (p : Program) (sc : Scratch) :
    (enter budget p sc).2 ≠ .gaveUp := by
  unfold enter
  simp only [isSpent_of_unlimited hb]
  split
  · simp
  · split
    · simp
    · split <;> simp

theorem extend_of_unlimited (hb : budget.maxClears = none) (p : Program) (sc : Scratch)
    (current : Nat) (s : Subset) (u : Symbol) (row : Nat) :
    (extend budget p sc current s u row).2 ≠ .gaveUp := by
  unfold extend
  simp only [isSpent_of_unlimited hb]
  split
  · simp
  · split
    · simp
    · split <;> simp

theorem step_of_unlimited (hb : budget.maxClears = none) (p : Program) (sc : Scratch)
    (current : Nat) (u : Symbol) : (step budget p sc current u).2 ≠ .gaveUp := by
  unfold step
  simp only
  split
  · simp
  · simp
  · split
    · exact extend_of_unlimited hb p sc current _ u _
    · simp

theorem walk_of_unlimited (hb : budget.maxClears = none) (p : Program) (h : Buffer)
    (count offset current : Nat) (sc : Scratch) :
    (walk budget p h count offset current sc).2 = none := by
  induction count generalizing offset current sc with
  | zero => rfl
  | succ count ih =>
    have hstep := step_of_unlimited hb p sc current h[offset]?
    rw [walk]
    split
    · exact ih ..
    · rfl
    · rename_i heq
      rw [heq] at hstep
      exact absurd rfl hstep

/-- A search gives up only if the number of clears is limited. -/
theorem search_of_unlimited (hb : budget.maxClears = none) (p : Program) (h : Buffer)
    (count : Nat) (sc : Scratch) : (search budget p h count sc).2 = none := by
  have henter := enter_of_unlimited hb p sc
  unfold search
  split
  · exact walk_of_unlimited hb p h ..
  · rfl
  · rename_i heq
    rw [heq] at henter
    exact absurd rfl henter

end Regex.Scratch

theorem Regex.exists_expr_of_compile {source : List Char} {c : Compiled}
    (hc : compile source = .ok c) : ∃ e, Expr.ofSource source = .ok e ∧ c = .ofExpr e := by
  rw [compile] at hc
  cases he : Expr.ofSource source with
  | error r =>
    rw [he] at hc
    cases hc
  | ok e =>
    rw [he] at hc
    exact ⟨e, rfl, (Except.ok.inj hc).symm⟩

namespace Search

open ByteSearch.Regex (Budget Compiled Expr FitsAt IsPlain Scratch sourceOf)

variable {budget : Budget} {h : Buffer} {p : Pattern}

/-! ## Runs that come to their end -/

namespace Engine

theorem compile_eq_ok {e : Expr} (he : Expr.ofSource (sourceOf p.bytes) = .ok e)
    (hcapacity : (Compiled.ofExpr e).minimumCapacity ≤ budget.capacity) :
    compile budget p = .ok (.ofExpr e) := by
  rw [compile, Regex.compile, he]
  exact if_pos hcapacity

theorem ofSource_of_compile {c : Compiled} (hc : compile budget p = .ok c) :
    ∃ e, Expr.ofSource (sourceOf p.bytes) = .ok e ∧ c = .ofExpr e := by
  rw [compile] at hc
  cases hcompile : Regex.compile (sourceOf p.bytes) with
  | error r =>
    rw [hcompile] at hc
    cases hc
  | ok c' =>
    rw [hcompile] at hc
    simp only at hc
    split at hc
    · cases hc
      exact Regex.exists_expr_of_compile hcompile
    · cases hc

/-- A search over the whole haystack that does not stop finds all ends of matches. -/
theorem scan_of_search_none {c : Compiled} {sc sc' : Scratch}
    (hsearch : sc.search budget c.program h (h.size + 1) = (sc', none)) :
    scan budget c h none sc = ⟨(c.expr.matchEnds h).map matchAt, .completed, sc'⟩ := by
  simp only [scan, lastWanted, Option.getD_none, hsearch]
  exact congrArg (fun found => Scan.mk (found.map matchAt) .completed sc')
    (c.expr.filter_matchEnds_lt h)

/-- A search that stops is a failure. -/
theorem scan_of_search_some {c : Compiled} {sc sc' : Scratch} {offset : Nat}
    (hsearch : sc.search budget c.program h (h.size + 1) = (sc', some offset)) :
    (scan budget c h none sc).ending =
      .failed ((SearchStop.gaveUp offset).failure sc'.clears) := by
  simp only [scan, lastWanted, Option.getD_none, hsearch]

end Engine

/-- A run that comes to its end records the ends of all matches. -/
theorem engine_steps (hdone : ((engine budget).run h p).failure = none) :
    ∃ e, Expr.ofSource (sourceOf p.bytes) = .ok e ∧ ((engine budget).run h p).steps =
      ((e.matchEnds h).map fun j => ⟨j, Pattern.identifier⟩).map Step.record := by
  cases hc : Engine.compile budget p with
  | error f =>
    simp only [engine, hc] at hdone
    cases hdone
  | ok c =>
    obtain ⟨e, he, rfl⟩ := Engine.ofSource_of_compile hc
    refine ⟨e, he, ?_⟩
    rcases hsearch : Scratch.search budget (Compiled.ofExpr e).program h (h.size + 1) {} with
      ⟨sc, _ | offset⟩
    · simp only [engine, hc, Engine.scan_of_search_none hsearch, List.map_map]
      rfl
    · simp only [engine, hc, Engine.scan_of_search_some hsearch] at hdone
      cases hdone

/-- The engine comes to its end on every pattern that it compiles, if clearing is not limited. -/
theorem engine_completes (hb : budget.maxClears = none) {e : Expr}
    (he : Expr.ofSource (sourceOf p.bytes) = .ok e)
    (hcapacity : (Compiled.ofExpr e).minimumCapacity ≤ budget.capacity) (h : Buffer) :
    ((engine budget).run h p).failure = none := by
  have hnone := Scratch.search_of_unlimited hb (Compiled.ofExpr e).program h (h.size + 1) {}
  rcases hsearch : Scratch.search budget (Compiled.ofExpr e).program h (h.size + 1) {} with
    ⟨sc, stopped⟩
  rw [hsearch] at hnone
  obtain rfl : stopped = none := hnone
  simp only [engine, Engine.compile_eq_ok he hcapacity, Engine.scan_of_search_none hsearch]

/-! ## Plain patterns -/

/-- The events of the engine for a plain pattern, as a list. -/
theorem engine_collects (hplain : IsPlain p.bytes)
    (hdone : ((engine budget).run h p).failure = none) :
    ((engine budget).run h p).into (Sink.empty : Collector) =
      ⟨(((List.range (h.size + 1)).filter fun i => FitsAt h p.bytes i).map
        fun i => ⟨i + p.length, Pattern.identifier⟩).toArray, 0⟩ := by
  obtain ⟨e, he, hsteps⟩ := engine_steps hdone
  rw [Run.into, hsteps, Collector.run_record, Regex.matchEnds_ofSource hplain he, List.map_map]
  exact congrArg (Collector.mk · 0) (Array.empty_append ..)

theorem count_engine {σ : Type} [Sink σ] [LawfulSink σ] (hplain : IsPlain p.bytes)
    (hdone : ((engine budget).run h p).failure = none) (s : σ) :
    Sink.count (((engine budget).run h p).into s) =
      Sink.count s + ((List.range (h.size + 1)).filter fun i => FitsAt h p.bytes i).length := by
  obtain ⟨e, he, hsteps⟩ := engine_steps hdone
  rw [Run.into, hsteps, count_run_record, Regex.matchEnds_ofSource hplain he, List.length_map,
    List.length_map]

/-- Without dots the offsets at which a pattern fits are those that brute force finds. -/
theorem filter_fitsAt_eq (hdot : 0x2E ∉ p.bytes) :
    ((List.range (h.size + 1)).filter fun i => FitsAt h p.bytes i) = occurrences h p.bytes := by
  have hfits : ((List.range (h.size + 1)).filter fun i => FitsAt h p.bytes i).Pairwise (· < ·) :=
    List.pairwise_lt_range.filter _
  refine hfits.eq_of_mem_iff (pairwise_occurrences h p.bytes) fun i => ?_
  rw [List.mem_filter, List.mem_range, decide_eq_true_eq, Regex.fitsAt_iff_occursAt hdot,
    mem_occurrences]
  refine and_iff_right_of_imp fun hoccurs => ?_
  exact Nat.lt_succ_of_le (Nat.le_trans (Nat.le_add_right ..) hoccurs.1)

/-- **Plain patterns.** If no byte of a pattern but the dot belongs to the notation, a run of the
engine that comes to its end records one event for each offset at which the pattern fits, at the end
of the match, in ascending order. Without dots these are the events of brute force, moved by the
length of the pattern, and any sink that counts has the same count after both. -/
theorem engine_matches_plain (hplain : IsPlain p.bytes)
    (hdone : ((engine budget).run h p).failure = none) :
    let found : Collector := ((engine budget).run h p).into Sink.empty
    let expected : Collector := (bruteForce.run h p).into Sink.empty
    (found.events.toList.Pairwise fun a b => a.offset < b.offset) ∧
      (∀ event, event ∈ found.events ↔ ∃ i, FitsAt h p.bytes i ∧ event = ⟨i + p.length, 0⟩) ∧
      found.absorbed = 0 ∧
      (0x2E ∉ p.bytes →
        found.events = expected.events.map (fun event =>
          { event with offset := event.offset + p.length }) ∧
        ∀ {σ : Type} [Sink σ] [LawfulSink σ],
          Sink.count (((engine budget).run h p).into (Sink.empty : σ)) =
            Sink.count ((bruteForce.run h p).into (Sink.empty : σ))) := by
  intro found expected
  have hfound : found = _ := engine_collects hplain hdone
  refine ⟨?_, fun event => ?_, ?_, fun hdot => ⟨?_, ?_⟩⟩
  · rw [hfound, List.pairwise_map]
    exact (List.pairwise_lt_range.filter _).imp fun hlt => Nat.add_lt_add_right hlt _
  · rw [hfound, List.mem_toArray, List.mem_map]
    refine exists_congr fun i => ?_
    rw [List.mem_filter, List.mem_range, decide_eq_true_eq]
    constructor
    · rintro ⟨⟨-, hfits⟩, rfl⟩
      exact ⟨hfits, rfl⟩
    · rintro ⟨hfits, rfl⟩
      exact ⟨⟨Nat.lt_succ_of_le (Nat.le_trans (Nat.le_add_right ..) hfits.1), hfits⟩, rfl⟩
  · rw [hfound]
  · have hexpected : expected =
        ⟨((occurrences h p.bytes).map fun i => ⟨i, Pattern.identifier⟩).toArray, 0⟩ := by
      simp only [expected, bruteForce_run, Run.into, Collector.run_record]
      exact congrArg (Collector.mk · 0) (Array.empty_append ..)
    rw [hfound, hexpected, filter_fitsAt_eq hdot]
    simp only [List.map_toArray, List.map_map]
    rfl
  · intro σ _ _
    rw [count_engine hplain hdone, count_bruteForce, filter_fitsAt_eq hdot, length_occurrences]

/-- A pattern with a byte that is not UTF-8, and overlapping occurrences of it. -/
theorem engine_matches_plain_overlapping :
    Sink.count (((engine Engine.standardBudget).run #[0x61, 0xFF, 0x61, 0xFF, 0x61]
      ⟨[0x61, 0xFF, 0x61], by decide⟩).into (Sink.empty : Counter)) = 2 := by
  have hplain : IsPlain [0x61, 0xFF, 0x61] := by decide
  have hcapacity : (Compiled.ofExpr (.inSequence ((Regex.sourceLiterals [0x61, 0xFF, 0x61]).map
      Regex.Literal.expr))).minimumCapacity ≤ Engine.standardBudget.capacity := by decide +kernel
  have hdone := engine_completes rfl (p := ⟨[0x61, 0xFF, 0x61], by decide⟩)
    (Regex.ofSource_sourceOf hplain) hcapacity #[0x61, 0xFF, 0x61, 0xFF, 0x61]
  have hmatches := engine_matches_plain hplain hdone
  rw [(hmatches.2.2.2 (by decide)).2]
  decide

end Search

end ByteSearch
