import ByteSearch.Search.Builder
import Mathlib.Order.Bounds.Basic

/-!
# Which patterns are compiled

Whether a pattern is refused is a matter of the pattern alone, and the capacity decides about the
rest (`Classifies`). For `Builder.compile` this rests only on what a `Builder` says of the builds:
either every build of a source text fails for the same reason, or every build without the check
succeeds (`Builder.refused_or_built`), and in each case the outcome for all budgets is known
(`Builder.compile_of_refused`, `Builder.compile_of_built`).

Main statement: `Engine.compile_classifies`.
-/

namespace ByteSearch.Search

open ByteSearch.Regex (Budget)

/-- The capacities with which there is an outcome without a failure. -/
def enoughFor {α : Type} (outcome : Budget → Except Failure α) : Set Nat :=
  { n | ∃ maxClears a, outcome ⟨n, maxClears⟩ = .ok a }

/-- How the outcome of compiling one pattern depends on the budget. -/
structure Classifies {α : Type} (outcome : Budget → Except Failure α) : Prop where
  /-- There are two failures. -/
  failure_cases {budget : Budget} {f : Failure} : outcome budget = .error f →
    (∃ pattern reason, f = .notCompiled pattern reason) ∨
      ∃ capacity reason, f = .scratchTooSmall capacity reason
  /-- A refused pattern is refused with every budget, and for the same reason. -/
  refused_iff (budget budget' : Budget) (pattern reason : String) :
    outcome budget = .error (.notCompiled pattern reason) ↔
      outcome budget' = .error (.notCompiled pattern reason)
  /-- A capacity is too small exactly if it is below the least one that is enough, and the failure
  says which capacity that was. -/
  tooSmall_iff (budget : Budget) (capacity : Nat) :
    (∃ reason, outcome budget = .error (.scratchTooSmall capacity reason)) ↔
      capacity = budget.capacity ∧
        ∃ least, IsLeast (enoughFor outcome) least ∧ budget.capacity < least
  /-- A greater capacity is enough too. -/
  ok_of_le {budget budget' : Budget} : budget.capacity ≤ budget'.capacity →
    (∃ a, outcome budget = .ok a) → ∃ a, outcome budget' = .ok a
  /-- The number of clears does not matter. -/
  maxClears_eq (capacity : Nat) (m m' : Option Nat) :
    (outcome ⟨capacity, m⟩).map (fun _ => ()) = (outcome ⟨capacity, m'⟩).map fun _ => ()

section

variable {α : Type} {outcome : Budget → Except Failure α}

/-- An outcome that is the same refusal whatever the budget is. -/
theorem classifies_of_refused {pattern reason : String}
    (h : ∀ budget, outcome budget = .error (.notCompiled pattern reason)) :
    Classifies outcome where
  failure_cases {budget f} hf := by
    obtain rfl := Except.error.inj ((h budget).symm.trans hf)
    exact .inl ⟨pattern, reason, rfl⟩
  refused_iff budget budget' _ _ := by rw [h, h]
  tooSmall_iff budget capacity := by
    refine iff_of_false ?_ ?_
    · rintro ⟨_, hf⟩
      exact nomatch (h budget).symm.trans hf
    · rintro ⟨-, least, ⟨⟨m, a, ha⟩, -⟩, -⟩
      exact nomatch (h ⟨least, m⟩).symm.trans ha
  ok_of_le {budget budget'} _ := by
    rintro ⟨a, ha⟩
    exact nomatch (h budget).symm.trans ha
  maxClears_eq _ _ _ := by rw [h, h]

/-- A least capacity decides the outcome. -/
structure DecidedBy (outcome : Budget → Except Failure α) (minimum : Nat)
    (reason : Nat → String) : Prop where
  ok_of_le (budget : Budget) : minimum ≤ budget.capacity → ∃ a, outcome budget = .ok a
  error_of_lt (budget : Budget) : budget.capacity < minimum →
    outcome budget = .error (.scratchTooSmall budget.capacity (reason budget.capacity))

namespace DecidedBy

variable {minimum : Nat} {reason : Nat → String} (hdecided : DecidedBy outcome minimum reason)

include hdecided

theorem ok_iff (budget : Budget) : (∃ a, outcome budget = .ok a) ↔ minimum ≤ budget.capacity := by
  refine ⟨fun hok => Nat.le_of_not_lt fun hlt => ?_, hdecided.ok_of_le budget⟩
  obtain ⟨a, ha⟩ := hok
  exact nomatch (hdecided.error_of_lt budget hlt).symm.trans ha

theorem error_iff (budget : Budget) (f : Failure) :
    outcome budget = .error f ↔ budget.capacity < minimum ∧
      f = .scratchTooSmall budget.capacity (reason budget.capacity) := by
  constructor
  · intro hf
    have hlt : budget.capacity < minimum := Nat.lt_of_not_le fun hle => by
      obtain ⟨a, ha⟩ := hdecided.ok_of_le budget hle
      exact nomatch ha.symm.trans hf
    exact ⟨hlt, Except.error.inj (hf.symm.trans (hdecided.error_of_lt budget hlt))⟩
  · rintro ⟨hlt, rfl⟩
    exact hdecided.error_of_lt budget hlt

theorem isLeast : IsLeast (enoughFor outcome) minimum := by
  refine ⟨⟨none, hdecided.ok_of_le ⟨minimum, none⟩ (Nat.le_refl _)⟩, ?_⟩
  rintro n ⟨m, hok⟩
  exact (hdecided.ok_iff ⟨n, m⟩).1 hok

theorem classifies : Classifies outcome where
  failure_cases {budget f} hf :=
    .inr ⟨_, _, ((hdecided.error_iff budget f).1 hf).2⟩
  refused_iff budget budget' pattern why := by
    refine iff_of_false (fun hf => ?_) (fun hf => ?_)
    · exact nomatch ((hdecided.error_iff budget _).1 hf).2
    · exact nomatch ((hdecided.error_iff budget' _).1 hf).2
  tooSmall_iff budget capacity := by
    constructor
    · rintro ⟨why, hf⟩
      obtain ⟨hlt, hsame⟩ := (hdecided.error_iff budget _).1 hf
      exact ⟨(Failure.scratchTooSmall.inj hsame).1, minimum, hdecided.isLeast, hlt⟩
    · rintro ⟨rfl, least, hleast, hlt⟩
      rw [hleast.unique hdecided.isLeast] at hlt
      exact ⟨_, hdecided.error_of_lt budget hlt⟩
  ok_of_le {budget budget'} hle hok :=
    hdecided.ok_of_le budget' (Nat.le_trans ((hdecided.ok_iff budget).1 hok) hle)
  maxClears_eq capacity m m' := by
    rcases Nat.lt_or_ge capacity minimum with hlt | hge
    · rw [hdecided.error_of_lt ⟨capacity, m⟩ hlt, hdecided.error_of_lt ⟨capacity, m'⟩ hlt]
    · obtain ⟨a, ha⟩ := hdecided.ok_of_le ⟨capacity, m⟩ hge
      obtain ⟨a', ha'⟩ := hdecided.ok_of_le ⟨capacity, m'⟩ hge
      rw [ha, ha']
      rfl

end DecidedBy

end

namespace Builder

variable {α : Type} (b : Builder α)

/-- Without the check all builds of a source text fail, or all succeed. -/
theorem refused_or_built (source : List Char) :
    (∃ reason, ∀ budget checked, b.build budget checked source = .error reason) ∨
      ∀ budget, ∃ a, b.build budget false source = .ok a := by
  by_cases hrefused : ∃ budget reason, b.build budget false source = .error reason
  · obtain ⟨budget, reason, h⟩ := hrefused
    exact .inl ⟨reason, b.build_of_refused h⟩
  · refine .inr fun budget => ?_
    cases h : b.build budget false source with
    | error reason => exact absurd ⟨budget, reason, h⟩ hrefused
    | ok a => exact ⟨a, rfl⟩

variable {p : Pattern}

/-- An automaton that is compiled is one that passes the check. -/
theorem build_of_compile {budget : Budget} {a : α} (hc : b.compile budget p = .ok a) :
    b.build budget true (Regex.sourceOf p.bytes) = .ok a := by
  simp only [compile] at hc
  split at hc
  · rename_i hbuilt
    cases hc
    exact hbuilt
  · split at hc <;> cases hc

theorem compile_of_refused {reason : String}
    (hrefused : ∀ budget checked, b.build budget checked (Regex.sourceOf p.bytes) = .error reason)
    (budget : Budget) : b.compile budget p = .error (.refusal p.bytes reason) := by
  simp only [compile, hrefused]

theorem compile_of_built
    (hbuilt : ∀ budget, ∃ a, b.build budget false (Regex.sourceOf p.bytes) = .ok a) :
    DecidedBy (b.compile · p) (b.minimum (Regex.sourceOf p.bytes))
      (b.tooSmall · (Regex.sourceOf p.bytes)) where
  ok_of_le budget hle := by
    obtain ⟨a, ha⟩ := hbuilt budget
    obtain ⟨a', ha'⟩ := b.build_of_le ha hle
    exact ⟨a', by simp only [compile, ha']⟩
  error_of_lt budget hlt := by
    obtain ⟨a, ha⟩ := hbuilt budget
    simp only [compile, b.build_of_lt ha hlt, ha]

/-- Compiling in two attempts takes no refused pattern for a small capacity, nor the other way
around. -/
theorem classifies (p : Pattern) : Classifies (b.compile · p) := by
  rcases b.refused_or_built (Regex.sourceOf p.bytes) with ⟨reason, hrefused⟩ | hbuilt
  · exact classifies_of_refused (b.compile_of_refused hrefused)
  · exact (b.compile_of_built hbuilt).classifies

end Builder

/-- With the builds of this library two attempts come to the same as one that looks at the least
capacity. -/
theorem automata_compile (budget : Budget) (p : Pattern) :
    automata.compile budget p = Engine.compile budget p := by
  have hbuild : automata.build = Automata.build := rfl
  rw [Builder.compile, Engine.compile, hbuild]
  cases hc : Regex.compile (Regex.sourceOf p.bytes) with
  | error r => simp only [Automata.build_of_error hc]
  | ok c =>
    have hminimum : Automata.minimum (Regex.sourceOf p.bytes) = c.minimumCapacity := by
      rw [Automata.minimum, hc]
    simp only [Automata.build_of_ok hc, hminimum]
    by_cases hle : c.minimumCapacity ≤ budget.capacity
    · simp [hle, Nat.not_lt.2 hle]
    · simp [hle, Nat.lt_of_not_le hle]

namespace Engine

/-- **Which patterns are compiled.** With whatever builds a pattern is compiled in two attempts,
its refusal does not depend on the budget, a capacity is too small just if it is below the least one
that is enough, and the number of clears does not matter. So it is with the engine, which compiles
in this way. If a pattern is not compiled, the strategy fails for the same reason and leaves every
sink as it was. -/
theorem compile_classifies (p : Pattern) :
    (∀ {α : Type} (b : Builder α), Classifies (b.compile · p)) ∧
      (∀ budget, automata.compile budget p = compile budget p) ∧
      Classifies (compile · p) ∧
      (∀ capacity m m', compile ⟨capacity, m⟩ p = compile ⟨capacity, m'⟩ p) ∧
      ∀ budget f, compile budget p = .error f → ∀ h,
        ((engine budget).run h p).failure = some f ∧
          ∀ {σ : Type} [Sink σ] (s : σ), ((engine budget).run h p).into s = s := by
  refine ⟨fun b => b.classifies p, fun budget => automata_compile budget p, ?_, fun _ _ _ => rfl,
    fun budget f hf h => ?_⟩
  · have hclassifies := automata.classifies p
    simp only [automata_compile] at hclassifies
    exact hclassifies
  · have hrun : (engine budget).run h p = ⟨[], some f, []⟩ := by
      simp only [engine, hf]
    rw [hrun]
    exact ⟨rfl, fun s => rfl⟩

/-- The source text `a(b` is refused with any capacity, and `int` needs more than none. -/
theorem compile_classifies_without_room :
    compile standardBudget ⟨[0x61, 0x28, 0x62], by decide⟩ =
        .error (.notCompiled "a(b" "error building NFA") ∧
      (∃ least, IsLeast (enoughFor (compile · ⟨[0x69, 0x6E, 0x74], by decide⟩)) least ∧
        0 < least) ∧
      ((engine ⟨0, none⟩).run #[0x69, 0x6E, 0x74] ⟨[0x69, 0x6E, 0x74], by decide⟩).into
        (⟨7⟩ : Counter) = ⟨7⟩ := by
  have hopen : Regex.Expr.ofSource (Regex.sourceOf [0x61, 0x28, 0x62]) = .error .groupUnclosed := by
    have hsource : Regex.sourceOf [0x61, 0x28, 0x62] = ['a', '(', 'b'] := by decide +kernel
    rw [hsource]
    rfl
  have hint : Regex.Expr.ofSource (Regex.sourceOf [0x69, 0x6E, 0x74]) =
      .ok (.literal [0x69, 0x6E, 0x74]) := by
    have hsource : Regex.sourceOf [0x69, 0x6E, 0x74] = ['i', 'n', 't'] := by decide +kernel
    rw [hsource]
    rfl
  have hrefused : compile ⟨0, none⟩ ⟨[0x61, 0x28, 0x62], by decide⟩ =
      .error (.notCompiled "a(b" "error building NFA") := by
    have htext : Utf8.lossy [0x61, 0x28, 0x62] = "a(b" := by decide +kernel
    rw [compile, Regex.compile, hopen]
    show Except.error (Failure.notCompiled (Utf8.lossy _) _) = _
    rw [htext]
    rfl
  obtain ⟨-, -, hopens, -⟩ := compile_classifies ⟨[0x61, 0x28, 0x62], by decide⟩
  obtain ⟨-, -, hints, -, hfails⟩ := compile_classifies ⟨[0x69, 0x6E, 0x74], by decide⟩
  have hsmall : ∃ reason, compile ⟨0, none⟩ ⟨[0x69, 0x6E, 0x74], by decide⟩ =
      .error (.scratchTooSmall 0 reason) := by
    rw [compile, Regex.compile, hint]
    have hpos : ¬ (Regex.Compiled.ofExpr (.literal [0x69, 0x6E, 0x74])).minimumCapacity ≤ 0 := by
      simp only [Regex.Compiled.minimumCapacity, Regex.Scratch.minimumCapacity]
      omega
    exact ⟨capacityTooSmall 0 _, if_neg hpos⟩
  have hopened := (hopens.refused_iff ⟨0, none⟩ standardBudget _ _).1 hrefused
  have hleast := ((hints.tooSmall_iff ⟨0, none⟩ 0).1 hsmall).2
  refine ⟨hopened, hleast, ?_⟩
  obtain ⟨reason, hreason⟩ := hsmall
  exact (hfails _ _ hreason _).2 (⟨7⟩ : Counter)

end Engine

end ByteSearch.Search
