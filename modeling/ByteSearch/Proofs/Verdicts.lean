import ByteSearch.Bench.Verdict
import Mathlib.Data.List.Basic

/-!
# What a verdict depends on

A verdict compares all counts with the first of them. That this depends on neither their order nor
on what stands between them follows from three characterizations, one for each verdict
(`ofCounts_eq_agreed_iff`, `ofCounts_eq_divergent_iff`, `ofCounts_eq_unchecked_iff`): they speak of
the members of the list and of their number only.

Main statement: `verdict_of_results`.
-/

namespace ByteSearch.Bench

/-- A result that takes part in the comparison: the strategy claims to be exact and came to its end.
-/
def Result.Eligible (x : Result) : Prop :=
  x.exact = true ∧ x.status = .done

instance (x : Result) : Decidable x.Eligible :=
  inferInstanceAs (Decidable (x.exact = true ∧ x.status = .done))

theorem Result.counts_iff (x : Result) : x.counts = true ↔ x.Eligible := by
  rw [counts, Bool.and_eq_true]
  refine and_congr_right fun _ => ?_
  cases x.status with
  | done => exact ⟨fun _ => rfl, fun _ => rfl⟩
  | failed message =>
    refine ⟨fun h => ?_, fun h => ?_⟩
    · cases h
    · cases h

/-- What is compared of a result, if it takes part. -/
def Result.count? (x : Result) : Option (String × Nat) :=
  if x.Eligible then some (x.name, x.hits) else none

/-! ## Lists of counts -/

namespace Verdict

variable {counts counts' : List (String × Nat)} {hits n : Nat}

theorem ofCounts_eq_unchecked_iff : ofCounts counts = .unchecked ↔ counts = [] := by
  cases counts with
  | nil => exact ⟨fun _ => rfl, fun _ => rfl⟩
  | cons c counts =>
    rw [ofCounts]
    split <;> simp

theorem ofCounts_eq_agreed_iff :
    ofCounts counts = .agreed hits n ↔ 1 ≤ n ∧ counts.length = n ∧ ∀ c ∈ counts, c.2 = hits := by
  cases counts with
  | nil =>
    simp only [ofCounts, List.length_nil]
    constructor
    · intro h
      cases h
    · omega
  | cons c counts =>
    obtain ⟨name, first⟩ := c
    simp only [ofCounts, List.all_eq_true, beq_iff_eq]
    constructor
    · intro h
      split at h
      · rename_i hall
        cases h
        exact ⟨by simp, rfl, hall⟩
      · cases h
    · rintro ⟨-, rfl, hall⟩
      obtain rfl : first = hits := hall (name, first) List.mem_cons_self
      rw [if_pos hall]

theorem ofCounts_eq_divergent_iff :
    ofCounts counts = .divergent counts' ↔
      counts' = counts ∧ ∃ a ∈ counts, ∃ b ∈ counts, a.2 ≠ b.2 := by
  cases counts with
  | nil => simp [ofCounts]
  | cons c counts =>
    obtain ⟨name, first⟩ := c
    simp only [ofCounts, List.all_eq_true, beq_iff_eq]
    constructor
    · intro h
      split at h
      · cases h
      · rename_i hall
        cases h
        push Not at hall
        obtain ⟨a, ha, hne⟩ := hall
        exact ⟨rfl, a, ha, (name, first), List.mem_cons_self, hne⟩
    · rintro ⟨rfl, a, ha, b, hb, hne⟩
      rw [if_neg]
      intro hall
      exact hne ((hall a ha).trans (hall b hb).symm)

/-- A verdict, and the same verdict with the counts that it lists in another order. -/
inductive Reordered : Verdict → Verdict → Prop
  | agreed (hits strategies : Nat) : Reordered (.agreed hits strategies) (.agreed hits strategies)
  | divergent {counts counts' : List (String × Nat)} (hperm : counts'.Perm counts) :
    Reordered (.divergent counts) (.divergent counts')
  | unchecked : Reordered .unchecked .unchecked

theorem reordered_ofCounts (hperm : counts'.Perm counts) :
    (ofCounts counts).Reordered (ofCounts counts') := by
  cases hverdict : ofCounts counts with
  | unchecked =>
    obtain rfl := ofCounts_eq_unchecked_iff.1 hverdict
    rw [hperm.eq_nil]
    exact .unchecked
  | agreed hits n =>
    obtain ⟨hpos, hlength, hall⟩ := ofCounts_eq_agreed_iff.1 hverdict
    have hverdict' : ofCounts counts' = .agreed hits n :=
      ofCounts_eq_agreed_iff.2
        ⟨hpos, hperm.length_eq.trans hlength, fun c hc => hall c (hperm.mem_iff.1 hc)⟩
    rw [hverdict']
    exact .agreed hits n
  | divergent listed =>
    obtain ⟨rfl, a, ha, b, hb, hne⟩ := ofCounts_eq_divergent_iff.1 hverdict
    have hverdict' : ofCounts counts' = .divergent counts' :=
      ofCounts_eq_divergent_iff.2 ⟨rfl, a, hperm.mem_iff.2 ha, b, hperm.mem_iff.2 hb, hne⟩
    rw [hverdict']
    exact .divergent hperm

end Verdict

/-! ## Reports -/

namespace Report

variable {r r' : Report}

/-- What is compared of the result in some place. -/
def countAt (r : Report) (i : Nat) : Option (String × Nat) :=
  r.results[i]?.bind Result.count?

/-- The report with its results taken from these places. -/
def takenFrom (r : Report) (places : List Nat) : Report :=
  { r with results := places.filterMap (r.results[·]?) }

theorem exactCounts_eq_map (r : Report) :
    r.exactCounts = (r.results.filter (·.Eligible)).map fun x => (x.name, x.hits) := by
  have hcounts : Result.counts = fun x => decide x.Eligible := by
    funext x
    rw [Bool.eq_iff_iff, x.counts_iff, decide_eq_true_iff]
  rw [exactCounts, hcounts]

theorem exactCounts_eq_filterMap (r : Report) : r.exactCounts = r.results.filterMap (·.count?) := by
  rw [exactCounts_eq_map]
  induction r.results with
  | nil => rfl
  | cons x results ih =>
    by_cases hx : x.Eligible
    · have hcount : x.count? = some (x.name, x.hits) := if_pos hx
      rw [List.filter_cons_of_pos (by simpa using hx), List.filterMap_cons_some hcount,
        List.map_cons, ih]
    · have hcount : x.count? = none := if_neg hx
      rw [List.filter_cons_of_neg (by simpa using hx), List.filterMap_cons_none hcount, ih]

theorem exactCounts_takenFrom (r : Report) (places : List Nat) :
    (r.takenFrom places).exactCounts = places.filterMap r.countAt := by
  rw [exactCounts_eq_filterMap, takenFrom, List.filterMap_filterMap]
  rfl

theorem takenFrom_range (r : Report) : r.takenFrom (List.range r.results.length) = r := by
  have hplaces : (List.range r.results.length).map (r.results[·]?) = r.results.map some := by
    refine List.ext_getElem? fun i => ?_
    by_cases hi : i < r.results.length
    · simp [hi]
    · simp [hi]
  have hresults : (List.range r.results.length).filterMap (r.results[·]?) = r.results := by
    have hid := congrArg (List.filterMap id) hplaces
    rw [List.filterMap_map, List.filterMap_map] at hid
    exact hid.trans List.filterMap_some
  rw [takenFrom, hresults]

theorem mem_exactCounts {c : String × Nat} :
    c ∈ r.exactCounts ↔ ∃ x ∈ r.results, x.Eligible ∧ (x.name, x.hits) = c := by
  simp only [exactCounts_eq_map, List.mem_map, List.mem_filter, decide_eq_true_iff, and_assoc]

theorem verdict_eq_agreed_iff {hits n : Nat} :
    r.verdict = .agreed hits n ↔
      1 ≤ n ∧ r.results.countP (·.Eligible) = n ∧ ∀ x ∈ r.results, x.Eligible → x.hits = hits := by
  have hlength : r.exactCounts.length = r.results.countP (·.Eligible) := by
    rw [exactCounts_eq_map, List.length_map, List.countP_eq_length_filter]
  rw [verdict, Verdict.ofCounts_eq_agreed_iff, hlength]
  refine and_congr_right fun _ => and_congr_right fun _ => ⟨fun h x hx heligible => ?_, ?_⟩
  · exact h _ (mem_exactCounts.2 ⟨x, hx, heligible, rfl⟩)
  · intro h c hc
    obtain ⟨x, hx, heligible, rfl⟩ := mem_exactCounts.1 hc
    exact h x hx heligible

theorem verdict_eq_divergent_iff {counts : List (String × Nat)} :
    r.verdict = .divergent counts ↔
      counts = r.exactCounts ∧ ∃ a ∈ r.exactCounts, ∃ b ∈ r.exactCounts, a.2 ≠ b.2 :=
  Verdict.ofCounts_eq_divergent_iff

/-- What is not compared has no influence, wherever it stands. -/
theorem verdict_insert {front back : List Result} {x : Result}
    (hr : r.results = front ++ x :: back) (hx : ¬ x.Eligible) (hr' : r'.results = front ++ back) :
    r'.verdict = r.verdict := by
  have hnone : x.count? = none := if_neg hx
  rw [verdict, verdict, exactCounts_eq_filterMap, exactCounts_eq_filterMap, hr, hr',
    List.filterMap_append, List.filterMap_append, List.filterMap_cons_none hnone]

theorem reordered_verdict (hperm : r'.results.Perm r.results) :
    r.verdict.Reordered r'.verdict := by
  refine Verdict.reordered_ofCounts ?_
  rw [exactCounts_eq_filterMap, exactCounts_eq_filterMap]
  exact hperm.filterMap _

/-- The counts are listed in the order in which their results are taken. -/
theorem verdict_takenFrom {places : List Nat} {counts : List (String × Nat)}
    (hplaces : places.Perm (List.range r.results.length)) (hr : r.verdict = .divergent counts) :
    counts = (List.range r.results.length).filterMap r.countAt ∧
      (r.takenFrom places).verdict = .divergent (places.filterMap r.countAt) := by
  have hcounts : (List.range r.results.length).filterMap r.countAt = r.exactCounts := by
    rw [← exactCounts_takenFrom, takenFrom_range]
  obtain ⟨rfl, a, ha, b, hb, hne⟩ := verdict_eq_divergent_iff.1 hr
  refine ⟨hcounts.symm, verdict_eq_divergent_iff.2 ?_⟩
  rw [exactCounts_takenFrom]
  rw [← hcounts] at ha hb
  have hperm := hplaces.filterMap r.countAt
  exact ⟨rfl, a, hperm.mem_iff.2 ha, b, hperm.mem_iff.2 hb, hne⟩

/-- Two counts that differ still differ among more. -/
theorem divergent_of_subset {counts : List (String × Nat)} (hr : r.verdict = .divergent counts)
    (hsubset : ∀ x ∈ r.results, x ∈ r'.results) : r'.verdict = .divergent r'.exactCounts := by
  have hmem : ∀ c ∈ r.exactCounts, c ∈ r'.exactCounts := by
    intro c hc
    obtain ⟨x, hx, hcount⟩ := mem_exactCounts.1 hc
    exact mem_exactCounts.2 ⟨x, hsubset x hx, hcount⟩
  obtain ⟨-, a, ha, b, hb, hne⟩ := verdict_eq_divergent_iff.1 hr
  exact verdict_eq_divergent_iff.2 ⟨rfl, a, hmem a ha, b, hmem b hb, hne⟩

/-- **What a verdict depends on.** Results that are not exact, or failed, have no influence. The
order of the results has none but on the order of the counts that differ, and counts that differ do
so whatever is added. The strategies agree if at least one takes part and all that do have the same
number of hits; if two of them differ all are listed, in the order of the report. -/
theorem verdict_of_results (r : Report) :
    (∀ front x back (r' : Report), r.results = front ++ x :: back → ¬ x.Eligible →
        r'.results = front ++ back → r'.verdict = r.verdict) ∧
      (∀ r' : Report, r'.results.Perm r.results → r.verdict.Reordered r'.verdict) ∧
      (∀ places counts, places.Perm (List.range r.results.length) →
        r.verdict = .divergent counts →
        counts = (List.range r.results.length).filterMap r.countAt ∧
          (r.takenFrom places).verdict = .divergent (places.filterMap r.countAt)) ∧
      (∀ (r' : Report) counts, r.verdict = .divergent counts →
        (∀ x ∈ r.results, x ∈ r'.results) → ∃ counts', r'.verdict = .divergent counts') ∧
      (∀ hits n, r.verdict = .agreed hits n ↔
        1 ≤ n ∧ r.results.countP (·.Eligible) = n ∧
          ∀ x ∈ r.results, x.Eligible → x.hits = hits) ∧
      ∀ counts, r.verdict = .divergent counts ↔
        counts = (r.results.filter (·.Eligible)).map (fun x => (x.name, x.hits)) ∧
          ∃ a ∈ counts, ∃ b ∈ counts, a.2 ≠ b.2 := by
  refine ⟨fun front x back r' hr hx hr' => verdict_insert hr hx hr',
    fun r' hperm => reordered_verdict hperm,
    fun places counts hplaces hr => verdict_takenFrom hplaces hr,
    fun r' counts hr hsubset => ⟨_, divergent_of_subset hr hsubset⟩,
    fun hits n => verdict_eq_agreed_iff, fun counts => ?_⟩
  rw [verdict_eq_divergent_iff, ← exactCounts_eq_map]
  refine and_congr_right fun hcounts => ?_
  rw [hcounts]

/-- A name that occurs twice, with an inexact and a failed result in between. Without the count that
differs the rest agrees. -/
theorem verdict_of_results_two_differ :
    let naive : Result := ⟨"naive-scan", .done, 3, ⟨0⟩, true⟩
    let vectorized : Result := ⟨"vectorized-scan", .done, 4, ⟨0⟩, true⟩
    let bytes : Result := ⟨"byte-scan", .done, 9, ⟨0⟩, false⟩
    let engine : Result := ⟨"engine-scan", .failed "x", 0, ⟨0⟩, true⟩
    let r : Report := ⟨10, 2, [naive, bytes, vectorized, engine, naive]⟩
    r.verdict = .divergent [("naive-scan", 3), ("vectorized-scan", 4), ("naive-scan", 3)] ∧
      (r.takenFrom [2, 3, 4, 1, 0]).verdict =
        .divergent [("vectorized-scan", 4), ("naive-scan", 3), ("naive-scan", 3)] ∧
      (⟨10, 2, [naive, vectorized, engine, naive]⟩ : Report).verdict = r.verdict ∧
      (∃ counts, (⟨10, 2, bytes :: r.results⟩ : Report).verdict = .divergent counts) ∧
      (⟨10, 2, [naive, bytes, engine, naive]⟩ : Report).verdict = .agreed 3 2 := by
  intro naive vectorized bytes engine r
  obtain ⟨hinsert, -, hplaces, hsubset, -, hdivergent⟩ := verdict_of_results r
  have hr : r.verdict =
      .divergent [("naive-scan", 3), ("vectorized-scan", 4), ("naive-scan", 3)] :=
    (hdivergent _).2 (by decide)
  refine ⟨hr, (hplaces [2, 3, 4, 1, 0] _ (by decide) hr).2, ?_, ?_, ?_⟩
  · exact hinsert [naive] bytes [vectorized, engine, naive] _ rfl (by decide) rfl
  · exact hsubset _ _ hr fun x hx => List.mem_cons_of_mem _ hx
  · exact ((verdict_of_results _).2.2.2.2.1 3 2).2 (by decide)

end Report

end ByteSearch.Bench
