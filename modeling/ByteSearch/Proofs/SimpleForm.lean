import ByteSearch.Proofs.MatchEnds
import ByteSearch.Proofs.Occurrences

/-!
# Sequences in simple form

`Expr.inSequence` flattens nested sequences and joins adjacent literals. It does not change what is
matched (`spans_inSequence`), keeps expressions well-formed (`wellFormed_inSequence`), and has the
assertions of its items (`looks_inSequence`).
-/

namespace ByteSearch.Regex.Expr

open ByteSearch.Search (occursAt_append)

variable {h : Buffer}

/-! ## Matches -/

theorem spansInTurn_append (as bs : List Expr) (i j : Nat) :
    SpansInTurn h (as ++ bs) i j ↔ ∃ k, SpansInTurn h as i k ∧ SpansInTurn h bs k j := by
  induction as generalizing i with
  | nil => simp [SpansInTurn]
  | cons e es ih =>
    simp only [List.cons_append, SpansInTurn, ih]
    constructor
    · intro hspan
      obtain ⟨k, hk, l, hl, hj⟩ := hspan
      exact ⟨l, ⟨k, hk, hl⟩, hj⟩
    · intro hspan
      obtain ⟨l, ⟨k, hk, hl⟩, hj⟩ := hspan
      exact ⟨k, hk, l, hl, hj⟩

theorem spansInTurn_singleton (e : Expr) (i j : Nat) :
    SpansInTurn h [e] i j ↔ Spans h e i j := by
  simp [SpansInTurn]

theorem spansInTurn_sequenceItems (e : Expr) (i j : Nat) :
    SpansInTurn h (sequenceItems e) i j ↔ Spans h e i j := by
  unfold sequenceItems
  split
  · simp only [Spans]
  · simp only [Spans, SpansInTurn]
  · exact spansInTurn_singleton e i j

theorem spansInTurn_flatMap (items : List Expr) (i j : Nat) :
    SpansInTurn h (items.flatMap sequenceItems) i j ↔ SpansInTurn h items i j := by
  induction items generalizing i with
  | nil => rfl
  | cons e es ih =>
    simp only [List.flatMap_cons, spansInTurn_append, spansInTurn_sequenceItems, ih, SpansInTurn]

/-- Joining two literals does not change what is matched. -/
theorem spansInTurn_consItem (e : Expr) (items : List Expr) (i j : Nat) :
    SpansInTurn h (consItem e items) i j ↔ SpansInTurn h (e :: items) i j := by
  unfold consItem
  split
  · rename_i v w rest
    simp only [SpansInTurn, Spans, occursAt_append, List.length_append]
    constructor
    · intro hspan
      obtain ⟨k, ⟨⟨hv, hw⟩, rfl⟩, hj⟩ := hspan
      exact ⟨_, ⟨hv, rfl⟩, _, ⟨hw, rfl⟩, by rwa [Nat.add_assoc]⟩
    · intro hspan
      obtain ⟨k, ⟨hv, rfl⟩, l, ⟨hw, rfl⟩, hj⟩ := hspan
      exact ⟨_, ⟨⟨hv, hw⟩, rfl⟩, by rwa [← Nat.add_assoc]⟩
  · rfl

theorem spansInTurn_foldr (items : List Expr) (i j : Nat) :
    SpansInTurn h (items.foldr consItem []) i j ↔ SpansInTurn h items i j := by
  induction items generalizing i with
  | nil => rfl
  | cons e es ih =>
    rw [List.foldr_cons, spansInTurn_consItem]
    simp only [SpansInTurn, ih]

/-- The simple form of a sequence matches what the items match in turn. -/
theorem spans_inSequence (items : List Expr) (i j : Nat) :
    Spans h (inSequence items) i j ↔ SpansInTurn h items i j := by
  rw [← spansInTurn_flatMap items, ← spansInTurn_foldr]
  unfold inSequence
  split
  · rename_i heq
    simp only [heq, Spans, SpansInTurn]
  · rename_i e heq
    rw [heq, spansInTurn_singleton]
  · simp only [Spans]

/-! ## Well-formedness -/

theorem allWellFormed_iff {items : List Expr} :
    AllWellFormed items ↔ ∀ e ∈ items, e.WellFormed := by
  induction items with
  | nil => simp [AllWellFormed]
  | cons e es ih => simp only [AllWellFormed, ih, List.forall_mem_cons]

theorem allWellFormed_sequenceItems {e : Expr} (he : e.WellFormed) :
    AllWellFormed (sequenceItems e) := by
  unfold sequenceItems
  split
  · exact he
  · trivial
  · exact ⟨he, trivial⟩

theorem allWellFormed_consItem {e : Expr} {items : List Expr} (he : e.WellFormed)
    (hitems : AllWellFormed items) : AllWellFormed (consItem e items) := by
  unfold consItem
  split
  · exact ⟨trivial, hitems.2⟩
  · exact ⟨he, hitems⟩

theorem allWellFormed_foldr {items : List Expr} (hitems : ∀ e ∈ items, e.WellFormed) :
    AllWellFormed (items.foldr consItem []) := by
  induction items with
  | nil => trivial
  | cons e es ih =>
    rw [List.forall_mem_cons] at hitems
    exact allWellFormed_consItem hitems.1 (ih hitems.2)

theorem wellFormed_inSequence {items : List Expr} (hitems : ∀ e ∈ items, e.WellFormed) :
    (inSequence items).WellFormed := by
  have hflat : ∀ e ∈ items.flatMap sequenceItems, e.WellFormed := by
    intro e he
    obtain ⟨item, hitem, he⟩ := List.mem_flatMap.1 he
    exact allWellFormed_iff.1 (allWellFormed_sequenceItems (hitems item hitem)) e he
  have hfold := allWellFormed_foldr hflat
  unfold inSequence
  split
  · trivial
  · rename_i e heq
    rw [heq] at hfold
    exact hfold.1
  · exact hfold

/-! ## Assertions -/

theorem looksAll_eq (items : List Expr) : looksAll items = items.flatMap looks := by
  induction items with
  | nil => rfl
  | cons e es ih => rw [looksAll, ih, List.flatMap_cons]

theorem looksAll_sequenceItems (e : Expr) : looksAll (sequenceItems e) = e.looks := by
  unfold sequenceItems
  split
  · rw [looks]
  · rfl
  · rw [looksAll, looksAll, List.append_nil]

theorem looksAll_consItem (e : Expr) (items : List Expr) :
    looksAll (consItem e items) = e.looks ++ looksAll items := by
  unfold consItem
  split <;> rfl

theorem looksAll_foldr (items : List Expr) :
    looksAll (items.foldr consItem []) = looksAll items := by
  induction items with
  | nil => rfl
  | cons e es ih => rw [List.foldr_cons, looksAll_consItem, ih, looksAll]

/-- The assertions of a sequence are those of its items. -/
theorem looks_inSequence (items : List Expr) :
    (inSequence items).looks = items.flatMap looks := by
  have hflat : looksAll (items.flatMap sequenceItems) = items.flatMap looks := by
    rw [looksAll_eq, List.flatMap_assoc]
    simp only [← looksAll_eq, looksAll_sequenceItems]
  have hfold := hflat ▸ looksAll_foldr (items.flatMap sequenceItems)
  unfold inSequence
  split
  · rename_i heq
    rw [heq] at hfold
    exact hfold
  · rename_i e heq
    rw [heq, looksAll, looksAll, List.append_nil] at hfold
    exact hfold
  · rw [looks, hfold]

end ByteSearch.Regex.Expr
