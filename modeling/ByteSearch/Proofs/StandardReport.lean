import ByteSearch.Bench.Verdict
import ByteSearch.Proofs.EngineMatches
import ByteSearch.Proofs.LaneTotals
import ByteSearch.Proofs.Reports

/-!
# Reports on the standard strategies

The counts that a verdict compares and the number of failures depend on the strategies of a registry
alone (`Yields.exactCounts_eq`, `Yields.failures_eq`). For the standard strategies, or some of them,
both are known but for what the engine does (`exactCounts_standard`, `failures_standard`).

Main statement: `standard_reports`. Only the engine can fail, and only the engine can make the
verdict differ from agreement on the number of occurrences.
-/

namespace ByteSearch.Bench

open ByteSearch.Regex (Budget FitsAt IsPlain)
open ByteSearch.Search

variable {r : Registry} {h : Buffer} {p : Pattern} {rep : Report}

/-! ## Any registry -/

/-- Results that belong to entries are filtered and mapped like the entries. -/
theorem map_filter_of_forall₂ {α : Type} {f : Entry → α} {g : Result → α} {a : Entry → Bool}
    {b : Result → Bool} (hfilter : ∀ e x, ResultOf Counter h p e x → b x = a e)
    (hmap : ∀ e x, ResultOf Counter h p e x → g x = f e) {entries : List Entry}
    {results : List Result} (hall : List.Forall₂ (ResultOf Counter h p) entries results) :
    (results.filter b).map g = (entries.filter a).map f := by
  induction hall with
  | nil => rfl
  | cons hx _ ih =>
    rw [List.filter_cons, List.filter_cons, hfilter _ _ hx]
    split
    · rw [List.map_cons, List.map_cons, ih, hmap _ _ hx]
    · exact ih

theorem ResultOf.isDone {e : Entry} {x : Result} (hx : ResultOf Counter h p e x) :
    x.status.isDone = (e.strategy.run h p).failure.isNone := by
  rw [hx.status]
  cases (e.strategy.run h p).failure <;> rfl

/-- The counts that a verdict compares are those of the exact strategies that do not fail. -/
theorem Yields.exactCounts_eq (hrep : Yields Counter r h p rep) :
    rep.exactCounts =
      (r.entries.filter fun e => e.strategy.exact && (e.strategy.run h p).failure.isNone).map
        fun e =>
          (e.name, Sink.count (Sink.run (Sink.empty : Counter) (e.strategy.run h p).steps)) := by
  refine map_filter_of_forall₂ (fun e x hx => ?_) (fun e x hx => ?_) hrep.forall₂_resultOf
  · rw [Result.counts, hx.exact, hx.isDone]
  · rw [hx.name, hx.hits]

theorem Yields.failures_eq (hrep : Yields Counter r h p rep) :
    rep.failures = r.entries.countP fun e => (e.strategy.run h p).failure.isSome := by
  have hmap := map_filter_of_forall₂ (f := fun _ => ()) (g := fun _ => ())
    (a := fun e => (e.strategy.run h p).failure.isSome) (b := fun x => !x.status.isDone)
    (fun e x hx => by rw [hx.isDone, Option.not_isNone]) (fun _ _ _ => rfl) hrep.forall₂_resultOf
  rw [Report.failures, List.countP_eq_length_filter, List.countP_eq_length_filter]
  simpa only [List.length_map] using congrArg List.length hmap

theorem Yields.names_eq (hrep : Yields Counter r h p rep) : rep.results.map (·.name) = r.names := by
  have hmap := map_filter_of_forall₂ (f := Entry.name) (g := Result.name) (a := fun _ => true)
    (b := fun _ => true) (fun _ _ _ => rfl) (fun e x hx => hx.name) hrep.forall₂_resultOf
  rwa [List.filter_true, List.filter_true] at hmap

/-- Every result is that of an entry. -/
theorem Yields.exists_entry (hrep : Yields Counter r h p rep) {x : Result} (hx : x ∈ rep.results) :
    ∃ e ∈ r.entries, ResultOf Counter h p e x := by
  obtain ⟨i, hi, rfl⟩ := List.getElem_of_mem hx
  have hall := hrep.forall₂_resultOf
  have hlen := hall.length_eq
  exact ⟨r.entries[i], List.getElem_mem _, hall.get (by omega) hi⟩

/-! ## The standard strategies -/

section

variable {budget : Budget} {keep : String → Bool}

/-- The number of matches that the engine reports, before it fails or to the end. -/
def engineHits (budget : Budget) (h : Buffer) (p : Pattern) : Nat :=
  Sink.count (((engine budget).run h p).into (Sink.empty : Counter))

theorem count_naive : Sink.count (Sink.run (Sink.empty : Counter) (bruteForce.run h p).steps) =
    occurrenceCount h p.bytes :=
  (count_bruteForce (Sink.empty : Counter) h p).trans (Nat.zero_add _)

theorem count_vectorized : Sink.count (Sink.run (Sink.empty : Counter) (inLanes.run h p).steps) =
    occurrenceCount h p.bytes :=
  (count_inLanes (Sink.empty : Counter) h p).trans ((Nat.mod_zero _).trans (Nat.zero_add _))

/-- Both ways to count occurrences are exact and never fail; the engine is exact where it does not
fail; the others are not exact. -/
theorem exactCounts_standard
    (hrep : Yields Counter ((Registry.standard budget).retain keep) h p rep) :
    rep.exactCounts =
      (if ((engine budget).run h p).failure.isNone && keep "engine-scan" then
        [("engine-scan", engineHits budget h p)] else []) ++
      (if keep "naive-scan" then [("naive-scan", occurrenceCount h p.bytes)] else []) ++
      (if keep "vectorized-scan" then [("vectorized-scan", occurrenceCount h p.bytes)]
        else []) := by
  have hengine : (engine budget).exact = true := rfl
  have hnaive : (bruteForce.exact && (bruteForce.run h p).failure.isNone) = true := rfl
  have hvectorized : (inLanes.exact && (inLanes.run h p).failure.isNone) = true := rfl
  rw [hrep.exactCounts_eq]
  simp only [Registry.retain, Registry.standard, List.filter_filter]
  simp only [List.filter_cons, List.filter_nil, firstByte, nothing, hengine, hnaive, hvectorized,
    Bool.false_and, Bool.true_and, Bool.false_eq_true, if_false]
  generalize (((engine budget).run h p).failure.isNone && keep "engine-scan") = keptEngine
  cases keptEngine <;> cases keep "naive-scan" <;> cases keep "vectorized-scan" <;>
    simp only [if_true, if_false, Bool.false_eq_true, List.map_cons, List.map_nil, count_naive,
      count_vectorized, List.nil_append, List.cons_append] <;> rfl

theorem failures_standard (hrep : Yields Counter ((Registry.standard budget).retain keep) h p rep) :
    rep.failures =
      if ((engine budget).run h p).failure.isSome && keep "engine-scan" then 1 else 0 := by
  have hbytes : (firstByte.run h p).failure.isSome = false := rfl
  have hnaive : (bruteForce.run h p).failure.isSome = false := rfl
  have hvectorized : (inLanes.run h p).failure.isSome = false := rfl
  have hnull : (nothing.run h p).failure.isSome = false := rfl
  rw [hrep.failures_eq]
  simp only [Registry.retain, Registry.standard, List.countP_filter, List.countP_cons,
    List.countP_nil, hbytes, hnaive, hvectorized, hnull, Bool.false_and, Bool.false_eq_true,
    if_false, Nat.zero_add, Nat.add_zero]

/-- What a report on those of the standard strategies says whose names are kept. -/
structure StandardReport (budget : Budget) (h : Buffer) (p : Pattern) (keep : String → Bool)
    (rep : Report) : Prop where
  names : rep.results.map (·.name) =
    ["byte-scan", "engine-scan", "naive-scan", "vectorized-scan", "null-scan"].filter keep
  /-- Only the engine can fail. -/
  done : ∀ x ∈ rep.results, x.name ≠ "engine-scan" → x.status = .done
  engineResult : ∀ x ∈ rep.results, x.name = "engine-scan" →
    x.status = .ofFailure ((engine budget).run h p).failure ∧ x.hits = engineHits budget h p
  occurrences : ∀ x ∈ rep.results, x.name = "naive-scan" ∨ x.name = "vectorized-scan" →
    x.hits = occurrenceCount h p.bytes
  failures : rep.failures =
    if keep "engine-scan" = true ∧ ((engine budget).run h p).failure ≠ none then 1 else 0
  /-- Only a count of the engine can make the counts differ. -/
  divergent : ∀ counts, rep.verdict = .divergent counts →
    keep "engine-scan" = true ∧ ((engine budget).run h p).failure = none ∧
      engineHits budget h p ≠ occurrenceCount h p.bytes ∧
      (keep "naive-scan" = true ∨ keep "vectorized-scan" = true)
  unchecked : rep.verdict = .unchecked ↔
    keep "naive-scan" = false ∧ keep "vectorized-scan" = false ∧
      (keep "engine-scan" = false ∨ ((engine budget).run h p).failure ≠ none)

/-- A standard strategy is the engine, or it never fails. -/
theorem mem_standard {e : Entry} (he : e ∈ (Registry.standard budget).entries) :
    e = ⟨"engine-scan", engine budget⟩ ∨
      e.name ≠ "engine-scan" ∧ (e.strategy.run h p).failure = none ∧
        (e.name = "naive-scan" ∨ e.name = "vectorized-scan" →
          Sink.count (Sink.run (Sink.empty : Counter) (e.strategy.run h p).steps) =
            occurrenceCount h p.bytes) := by
  simp only [Registry.standard, List.mem_cons, List.not_mem_nil, or_false] at he
  rcases he with rfl | rfl | rfl | rfl | rfl
  · exact .inr ⟨by decide, rfl, fun hname => absurd hname (by decide)⟩
  · exact .inl rfl
  · exact .inr ⟨by decide, rfl, fun _ => count_naive⟩
  · exact .inr ⟨by decide, rfl, fun _ => count_vectorized⟩
  · exact .inr ⟨by decide, rfl, fun hname => absurd hname (by decide)⟩

theorem Yields.exists_standard
    (hrep : Yields Counter ((Registry.standard budget).retain keep) h p rep) {x : Result}
    (hx : x ∈ rep.results) :
    ∃ e ∈ (Registry.standard budget).entries, ResultOf Counter h p e x := by
  obtain ⟨e, he, hof⟩ := hrep.exists_entry hx
  exact ⟨e, (List.mem_filter.1 he).1, hof⟩

/-- The verdict on a count of the engine and two equal counts, each of which may be missing. -/
theorem ofCounts_cases (a b c : Bool) (e n : Nat) :
    let verdict := Verdict.ofCounts ((if a then [("engine-scan", e)] else []) ++
      (if b then [("naive-scan", n)] else []) ++ (if c then [("vectorized-scan", n)] else []))
    (∀ counts, verdict = .divergent counts → a = true ∧ e ≠ n ∧ (b = true ∨ c = true)) ∧
      (verdict = .unchecked ↔ a = false ∧ b = false ∧ c = false) := by
  by_cases hn : n = e
  · subst hn
    cases a <;> cases b <;> cases c <;> simp [Verdict.ofCounts]
  · have hne : e ≠ n := fun h => hn h.symm
    cases a <;> cases b <;> cases c <;> simp [Verdict.ofCounts, hn, hne]

theorem standardReport (hrep : Yields Counter ((Registry.standard budget).retain keep) h p rep) :
    StandardReport budget h p keep rep := by
  have hverdict := ofCounts_cases (((engine budget).run h p).failure.isNone && keep "engine-scan")
    (keep "naive-scan") (keep "vectorized-scan") (engineHits budget h p) (occurrenceCount h p.bytes)
  rw [← exactCounts_standard hrep] at hverdict
  refine ⟨?_, fun x hx hname => ?_, fun x hx hname => ?_, fun x hx hname => ?_, ?_, ?_, ?_⟩
  · rw [hrep.names_eq, Registry.names_retain]
    rfl
  · obtain ⟨e, he, hof⟩ := hrep.exists_standard hx
    rcases mem_standard (h := h) (p := p) he with rfl | ⟨-, hdone, -⟩
    · exact absurd hof.name hname
    · rw [hof.status, hdone]
      rfl
  · obtain ⟨e, he, hof⟩ := hrep.exists_standard hx
    rcases mem_standard (h := h) (p := p) he with rfl | ⟨hother, -, -⟩
    · exact ⟨hof.status, hof.hits⟩
    · exact absurd (hof.name.symm.trans hname) hother
  · obtain ⟨e, he, hof⟩ := hrep.exists_standard hx
    rcases mem_standard (h := h) (p := p) he with rfl | ⟨-, -, hcount⟩
    · have hother : ¬ ("engine-scan" = "naive-scan" ∨ "engine-scan" = "vectorized-scan") := by
        decide
      rw [hof.name] at hname
      exact absurd hname hother
    · rw [hof.name] at hname
      rw [hof.hits, hcount hname]
  · rw [failures_standard hrep]
    simp only [Bool.and_eq_true, Option.isSome_iff_ne_none, and_comm]
  · intro counts hcounts
    obtain ⟨hengine, hne, hother⟩ := hverdict.1 counts hcounts
    rw [Bool.and_eq_true, Option.isNone_iff_eq_none] at hengine
    exact ⟨hengine.2, hengine.1, hne, hother⟩
  · refine hverdict.2.trans ?_
    simp only [Bool.and_eq_false_iff, Option.isNone_eq_false_iff, Option.isSome_iff_ne_none]
    tauto

/-- **Standard strategies.** However the standard strategies run, a report on them, or on those
whose names are kept, finds the number of occurrences wherever all occurrences are counted. Only the
engine may fail, or count something else; on all of the strategies the verdict says exactly that. -/
theorem standard_reports (budget : Budget) (h : Buffer) (p : Pattern) (rep : Report) :
    (Yields Counter (Registry.standard budget) h p rep →
      StandardReport budget h p (fun _ => true) rep ∧
        rep.verdict =
          if ((engine budget).run h p).failure ≠ none then .agreed (occurrenceCount h p.bytes) 2
          else if engineHits budget h p = occurrenceCount h p.bytes then
            .agreed (occurrenceCount h p.bytes) 3
          else .divergent [("engine-scan", engineHits budget h p),
            ("naive-scan", occurrenceCount h p.bytes),
            ("vectorized-scan", occurrenceCount h p.bytes)]) ∧
      ∀ keep, Yields Counter ((Registry.standard budget).retain keep) h p rep →
        StandardReport budget h p keep rep := by
  refine ⟨fun hrep => ⟨standardReport hrep, ?_⟩, fun keep hrep => standardReport hrep⟩
  have hall : Yields Counter ((Registry.standard budget).retain fun _ => true) h p rep := hrep
  have hcounts := exactCounts_standard hall
  rw [Report.verdict, hcounts]
  cases ((engine budget).run h p).failure with
  | some f => simp [Verdict.ofCounts]
  | none =>
    by_cases hn : engineHits budget h p = occurrenceCount h p.bytes
    · simp [Verdict.ofCounts, hn]
    · have hn' : ¬ occurrenceCount h p.bytes = engineHits budget h p := fun heq => hn heq.symm
      simp [Verdict.ofCounts, hn, hn']

end

/-- The engine refuses `(` and reads `a.` as `a` with any byte behind it. -/
theorem standard_reports_refused_and_dot :
    (run (Registry.standard Engine.standardBudget) #[0x28, 0x61, 0x28] ⟨[0x28], by decide⟩
        fun _ => ⟨0⟩).report.verdict = .agreed 2 2 ∧
      (run (Registry.standard Engine.standardBudget) #[0x61, 0x62, 0x61, 0x0A, 0x61]
        ⟨[0x61, 0x2E], by decide⟩ fun _ => ⟨0⟩).report.verdict =
          .divergent [("engine-scan", 2), ("naive-scan", 0), ("vectorized-scan", 0)] := by
  constructor
  · have hreport := (standard_reports Engine.standardBudget #[0x28, 0x61, 0x28] ⟨[0x28], by decide⟩
      _).1 (.inSequence fun _ => ⟨0⟩)
    rw [run, hreport.2]
    decide +kernel
  · have hplain : IsPlain [0x61, 0x2E] := by decide
    have hcapacity : (Regex.Compiled.ofExpr (.inSequence ((Regex.sourceLiterals [0x61, 0x2E]).map
        Regex.Literal.expr))).minimumCapacity ≤ Engine.standardBudget.capacity := by decide +kernel
    have hdone := engine_completes rfl (p := ⟨[0x61, 0x2E], by decide⟩)
      (Regex.ofSource_sourceOf hplain) hcapacity #[0x61, 0x62, 0x61, 0x0A, 0x61]
    have hreport := (standard_reports Engine.standardBudget #[0x61, 0x62, 0x61, 0x0A, 0x61]
      ⟨[0x61, 0x2E], by decide⟩ _).1 (.inSequence fun _ => ⟨0⟩)
    rw [run, hreport.2, if_neg (not_not.2 hdone), engineHits, count_engine hplain hdone]
    decide

end ByteSearch.Bench
