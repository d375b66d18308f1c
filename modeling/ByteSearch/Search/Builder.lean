import ByteSearch.Search.Engine

/-!
# Compiling in two attempts

Whoever asks for an automaton learns from a failed build only a text. This text does not say whether
the source text is refused or the capacity is too small for it. So `Builder.compile` repeats a
failed build without the check of the capacity: if it succeeds then, the pattern is all right and
the capacity is what is wrong.

A `Builder` is what must be known of the builds for this. `automata` is the one of this library, and
compiling with it in two attempts is `Engine.compile`.
-/

namespace ByteSearch.Search

open ByteSearch.Regex (Budget Compiled)

/-- Builds of automata of some kind. -/
structure Builder (α : Type) where
  /-- Builds the automaton of a source text, or says why not. The Boolean says whether the capacity
  is checked. -/
  build (budget : Budget) (checked : Bool) (source : List Char) : Except String α
  /-- The least capacity with which a source text passes the check. -/
  minimum (source : List Char) : Nat
  /-- What is said of a capacity that is below the least one. -/
  tooSmall (capacity : Nat) (source : List Char) : String
  /-- A refusal without the check comes before the check, and whatever the budget is. -/
  build_of_refused {budget : Budget} {source : List Char} {reason : String}
    (hrefused : build budget false source = .error reason) (budget' : Budget) (checked : Bool) :
    build budget' checked source = .error reason
  /-- The check lets pass what is not below the least capacity. -/
  build_of_le {budget : Budget} {source : List Char} {a : α}
    (hbuilt : build budget false source = .ok a) (hle : minimum source ≤ budget.capacity) :
    ∃ a, build budget true source = .ok a
  /-- The check refuses what is below the least capacity. -/
  build_of_lt {budget : Budget} {source : List Char} {a : α}
    (hbuilt : build budget false source = .ok a) (hlt : budget.capacity < minimum source) :
    build budget true source = .error (tooSmall budget.capacity source)

/-- Compiles a pattern. If the build fails a second one without the check finds out which of the two
failures it is. -/
def Builder.compile {α : Type} (b : Builder α) (budget : Budget) (p : Pattern) :
    Except Failure α :=
  let source := Regex.sourceOf p.bytes
  match b.build budget true source with
  | .ok a => .ok a
  | .error reason =>
    match b.build budget false source with
    | .ok _ => .error (.scratchTooSmall budget.capacity reason)
    | .error _ => .error (.refusal p.bytes reason)

namespace Automata

/-- Builds an automaton, with or without the check of the capacity. -/
def build (budget : Budget) (checked : Bool) (source : List Char) : Except String Compiled :=
  match Regex.compile source with
  | .error r => .error r.message
  | .ok c =>
    if checked ∧ budget.capacity < c.minimumCapacity then
      .error (Engine.capacityTooSmall budget.capacity c.minimumCapacity)
    else .ok c

/-- The least capacity for a source text. -/
def minimum (source : List Char) : Nat :=
  match Regex.compile source with
  | .error _ => 0
  | .ok c => c.minimumCapacity

theorem build_of_error {source : List Char} {r : Regex.Refusal}
    (hr : Regex.compile source = .error r) (budget : Budget) (checked : Bool) :
    build budget checked source = .error r.message := by
  rw [build, hr]

theorem build_of_ok {source : List Char} {c : Compiled} (hc : Regex.compile source = .ok c)
    (budget : Budget) (checked : Bool) :
    build budget checked source =
      if checked ∧ budget.capacity < minimum source then
        .error (Engine.capacityTooSmall budget.capacity (minimum source))
      else .ok c := by
  rw [build, minimum, hc]

theorem exists_of_build {budget : Budget} {checked : Bool} {source : List Char} {a : Compiled}
    (hbuilt : build budget checked source = .ok a) : ∃ c, Regex.compile source = .ok c := by
  cases hc : Regex.compile source with
  | error r =>
    rw [build_of_error hc] at hbuilt
    cases hbuilt
  | ok c => exact ⟨c, rfl⟩

end Automata

/-- The builds of this library. -/
def automata : Builder Compiled where
  build := Automata.build
  minimum := Automata.minimum
  tooSmall capacity source := Engine.capacityTooSmall capacity (Automata.minimum source)
  build_of_refused {budget source reason} hrefused budget' checked := by
    cases hc : Regex.compile source with
    | error r =>
      rw [Automata.build_of_error hc] at hrefused ⊢
      exact hrefused
    | ok c =>
      rw [Automata.build_of_ok hc, if_neg (by simp)] at hrefused
      cases hrefused
  build_of_le {budget source a} hbuilt hle := by
    obtain ⟨c, hc⟩ := Automata.exists_of_build hbuilt
    refine ⟨c, ?_⟩
    rw [Automata.build_of_ok hc, if_neg (by omega)]
  build_of_lt {budget source a} hbuilt hlt := by
    obtain ⟨c, hc⟩ := Automata.exists_of_build hbuilt
    rw [Automata.build_of_ok hc, if_pos ⟨rfl, hlt⟩]

end ByteSearch.Search
