import ByteSearch.Proofs.PositionSets

/-!
# The ends of matches

`Expr.matchEnds` gives the offsets at which a match ends, all of them and each once, in ascending
order (`Expr.mem_matchEnds`, `Expr.pairwise_matchEnds`).

A located expression has matches of its own (`Located.Spans`). The image of a set of positions holds
the ends of the matches that begin in the set (`Located.testBit_image`), and the located form of an
expression has the same matches as the expression (`Expr.spans_locate`). Two things need an argument
there: nested repetitions are one repetition (`Located.spans_repeated`), and a repetition without a
maximum stops after as many rounds as there are positions, because a match never moves back and
rounds that do not move can be left out (`Times.shorten`).
-/

namespace ByteSearch.Regex

open ByteSearch.Search (OccursAt agreesAt agreesAt_iff)
open ByteSearch.Text (Ranges)

/-! ## Relations in a row -/

section Times

variable {R S : Nat → Nat → Prop} {i j m n : Nat}

theorem times_add : Times R (m + n) i j ↔ ∃ k, Times R m i k ∧ Times R n k j := by
  induction m generalizing i with
  | zero => simp [Times]
  | succ m ih =>
    rw [Nat.succ_add]
    simp only [Times, ih]
    constructor
    · intro hspan
      obtain ⟨k, hk, l, hl, hj⟩ := hspan
      exact ⟨l, ⟨k, hk, hl⟩, hj⟩
    · intro hspan
      obtain ⟨l, ⟨k, hk, hl⟩, hj⟩ := hspan
      exact ⟨k, hk, l, hl, hj⟩

/-- Steps over one position each. -/
theorem times_of_forall (hR : ∀ k, k < n → R (i + k) (i + k + 1)) : Times R n i (i + n) := by
  induction n generalizing i with
  | zero => rfl
  | succ n ih =>
    have htail := ih (i := i + 1) fun k hk => by
      have hnext := hR (k + 1) (Nat.succ_lt_succ hk)
      rwa [Nat.add_comm k 1, ← Nat.add_assoc] at hnext
    rw [Nat.add_assoc, Nat.add_comm 1 n] at htail
    exact ⟨i + 1, hR 0 (Nat.succ_pos n), htail⟩

/-- Two relations that agree where a property holds, and that keep the property, agree in a row. -/
theorem times_congr {P : Nat → Prop} (hRS : ∀ i j, P i → (R i j ↔ S i j))
    (hP : ∀ i j, P i → S i j → P j) (hi : P i) : Times R n i j ↔ Times S n i j := by
  induction n generalizing i with
  | zero => rfl
  | succ n ih =>
    simp only [Times]
    constructor
    · intro hspan
      obtain ⟨k, hk, hj⟩ := hspan
      have hk' := (hRS i k hi).1 hk
      exact ⟨k, hk', (ih (hP i k hi hk')).1 hj⟩
    · intro hspan
      obtain ⟨k, hk, hj⟩ := hspan
      exact ⟨k, (hRS i k hi).2 hk, (ih (hP i k hi hk)).2 hj⟩

/-- What every step keeps holds at the end, if it holds at the start. -/
theorem Times.preserves {P : Nat → Prop} (hP : ∀ i j, P i → R i j → P j) (h : Times R n i j)
    (hi : P i) : P j := by
  induction n generalizing i with
  | zero =>
    obtain rfl : i = j := h
    exact hi
  | succ n ih =>
    obtain ⟨k, hk, hj⟩ := h
    exact ih hj (hP i k hi hk)

/-- Steps that do not move can be left out, as long as there are as many steps as the distance. -/
theorem Times.shorten {P : Nat → Prop} (hP : ∀ i j, P i → R i j → P j)
    (hle : ∀ i j, P i → R i j → i ≤ j) (h : Times R n i j) (hi : P i) (hmn : m ≤ n)
    (hm : j - i ≤ m) : Times R m i j := by
  induction n generalizing i m with
  | zero =>
    obtain rfl : m = 0 := Nat.le_zero.1 hmn
    exact h
  | succ n ih =>
    obtain ⟨k, hk, hj⟩ := h
    have hik := hle i k hi hk
    rcases Nat.eq_or_lt_of_le hik with rfl | hlt
    · by_cases hlast : m = n + 1
      · exact hlast ▸ ⟨i, hk, hj⟩
      · exact ih hj hi (by omega) hm
    · have hkj : k ≤ j := by
        have hPk := hP i k hi hk
        refine (Times.preserves (P := fun x => P x ∧ k ≤ x) (fun a b ha hab => ?_) hj
          ⟨hPk, Nat.le_refl k⟩).2
        exact ⟨hP a b ha.1 hab, Nat.le_trans ha.2 (hle a b ha.1 hab)⟩
      cases m with
      | zero => omega
      | succ m => exact ⟨k, hk, ih hj (hP i k hi hk) (by omega) (by omega)⟩

/-- `n` blocks of `a` to `a + c` steps each are `n * a` to `n * (a + c)` steps. -/
theorem times_blocks {a c : Nat} :
    Times (fun i j => ∃ k, a ≤ k ∧ k ≤ a + c ∧ Times R k i j) n i j ↔
      ∃ k, n * a ≤ k ∧ k ≤ n * (a + c) ∧ Times R k i j := by
  induction n generalizing i with
  | zero => simp [Times]
  | succ n ih =>
    have hsum : n * (a + c) = n * a + n * c := Nat.mul_add ..
    have hsucc : (n + 1) * a = n * a + a := Nat.succ_mul ..
    have hsucc' : (n + 1) * (a + c) = n * (a + c) + (a + c) := Nat.succ_mul ..
    simp only [Times, ih]
    constructor
    · intro hspan
      obtain ⟨x, ⟨k, hk, hk', hx⟩, l, hl, hl', hj⟩ := hspan
      exact ⟨k + l, by omega, by omega, times_add.2 ⟨x, hx, hj⟩⟩
    · intro hspan
      obtain ⟨k, hk, hk', hj⟩ := hspan
      -- the first block takes as few steps as the others leave for it
      obtain ⟨l, hl⟩ : ∃ l, k = max a (k - n * (a + c)) + l :=
        ⟨k - max a (k - n * (a + c)), by omega⟩
      rw [hl, times_add] at hj
      obtain ⟨x, hx, hj⟩ := hj
      exact ⟨x, ⟨_, by omega, by omega, hx⟩, l, by omega, by omega, hj⟩

end Times

/-! ## Matches of located expressions -/

namespace Located

mutual

/-- The located expression matches from `i` to `j`. -/
def Spans : Located → Nat → Nat → Prop
  | .stay at_, i, j => at_.testBit i = true ∧ i = j
  | .move at_ width, i, j => at_.testBit i = true ∧ j = i + width
  | .repetition min more body, i, j => ∃ n, min ≤ n ∧ n ≤ min + more ∧ Times (Spans body) n i j
  | .sequence items, i, j => SpansInTurn items i j
  | .alternatives branches, i, j => SpansAny branches i j

/-- The located expressions match one after the other. -/
def SpansInTurn : List Located → Nat → Nat → Prop
  | [], i, j => i = j
  | e :: es, i, j => ∃ k, Spans e i k ∧ SpansInTurn es k j

/-- One of the located expressions matches. -/
def SpansAny : List Located → Nat → Nat → Prop
  | [], _, _ => False
  | e :: es, i, j => Spans e i j ∨ SpansAny es i j

end

/-- Every number of times between the products is possible if the inner repetition may happen once
or not at all. -/
theorem spans_repeated (min more : Nat) (l : Located) (i j : Nat) :
    (repeated min more l).Spans i j ↔
      ∃ n, min ≤ n ∧ n ≤ min + more ∧ Times l.Spans n i j := by
  unfold repeated
  split
  · rename_i a c body
    split
    · rename_i ha
      have hle : min * a ≤ (min + more) * (a + c) := Nat.mul_le_mul (by omega) (by omega)
      simp only [Spans, times_blocks]
      constructor
      · intro hspan
        obtain ⟨k, hk, hk', hj⟩ := hspan
        rw [Nat.add_sub_cancel' hle] at hk'
        obtain rfl | rfl : a = 0 ∨ a = 1 := by omega
        · exact ⟨min + more, by omega, by omega, k, by omega, hk', hj⟩
        · -- as many rounds as there are steps, but not more than allowed
          rcases Nat.le_total k (min + more) with hkn | hkn
          · exact ⟨k, by omega, hkn, k, by omega, Nat.le_mul_of_pos_right k (by omega), hj⟩
          · exact ⟨min + more, by omega, by omega, k, by omega, hk', hj⟩
      · intro hspan
        obtain ⟨n, hn, hn', k, hk, hk', hj⟩ := hspan
        have hlow : min * a ≤ n * a := Nat.mul_le_mul_right a hn
        have hhigh : n * (a + c) ≤ (min + more) * (a + c) := Nat.mul_le_mul_right (a + c) hn'
        exact ⟨k, by omega, by omega, hj⟩
    · simp only [Spans]
  · simp only [Spans]

/-! ## Images -/

section Iteration

variable {f : Positions → Positions} {R : Nat → Nat → Prop}

/-- A set that the map does not change is not left. -/
theorem testBit_of_fixed (hf : ∀ s j, (f s).testBit j = true ↔ ∃ i, s.testBit i = true ∧ R i j)
    {s : Positions} (hs : f s = s) (n j : Nat) :
    s.testBit j = true ↔ ∃ i, s.testBit i = true ∧ Times R n i j := by
  induction n with
  | zero => simp [Times]
  | succ n ih =>
    rw [ih]
    constructor
    · intro hspan
      obtain ⟨k, hk, hj⟩ := hspan
      obtain ⟨i, hi, hik⟩ := (hf s k).1 (hs.symm ▸ hk)
      exact ⟨i, hi, k, hik, hj⟩
    · intro hspan
      obtain ⟨i, hi, k, hik, hj⟩ := hspan
      exact ⟨k, hs ▸ (hf s k).2 ⟨i, hi, hik⟩, hj⟩

theorem testBit_exactly (hf : ∀ s j, (f s).testBit j = true ↔ ∃ i, s.testBit i = true ∧ R i j)
    (n : Nat) (s : Positions) (j : Nat) :
    (exactly f n s).testBit j = true ↔ ∃ i, s.testBit i = true ∧ Times R n i j := by
  induction n generalizing s with
  | zero => simp [exactly, Times]
  | succ n ih =>
    simp only [exactly]
    split
    · rename_i hs
      exact testBit_of_fixed hf hs (n + 1) j
    · simp only [ih, hf, Times]
      constructor
      · intro hspan
        obtain ⟨k, ⟨i, hi, hik⟩, hj⟩ := hspan
        exact ⟨i, hi, k, hik, hj⟩
      · intro hspan
        obtain ⟨i, hi, k, hik, hj⟩ := hspan
        exact ⟨k, ⟨i, hi, hik⟩, hj⟩

theorem testBit_upTo (hf : ∀ s j, (f s).testBit j = true ↔ ∃ i, s.testBit i = true ∧ R i j)
    (n : Nat) (s : Positions) (j : Nat) :
    (upTo f n s).testBit j = true ↔
      ∃ m, m ≤ n ∧ ∃ i, s.testBit i = true ∧ Times R m i j := by
  induction n generalizing s with
  | zero => simp [upTo, Times]
  | succ n ih =>
    simp only [upTo]
    split
    · rename_i hs
      have hkeep : ∀ i k, s.testBit i = true → R i k → s.testBit k = true := by
        intro i k hi hik
        rw [← hs, Nat.testBit_or, Bool.or_eq_true]
        exact .inr ((hf s k).2 ⟨i, hi, hik⟩)
      constructor
      · exact fun hj => ⟨0, Nat.zero_le _, j, hj, rfl⟩
      · intro hspan
        obtain ⟨m, -, i, hi, hj⟩ := hspan
        exact hj.preserves hkeep hi
    · simp only [ih, Nat.testBit_or, Bool.or_eq_true, hf]
      constructor
      · rintro ⟨m, hm, k, hk | ⟨i, hi, hik⟩, hj⟩
        · exact ⟨m, by omega, k, hk, hj⟩
        · exact ⟨m + 1, by omega, i, hi, k, hik, hj⟩
      · intro hspan
        obtain ⟨m, hm, i, hi, hj⟩ := hspan
        cases m with
        | zero => exact ⟨0, Nat.zero_le _, i, .inl hi, hj⟩
        | succ m =>
          obtain ⟨k, hik, hj⟩ := hj
          exact ⟨m, by omega, k, .inr ⟨i, hi, hik⟩, hj⟩

end Iteration

mutual

/-- The image of a set of positions holds the ends of the matches that begin in the set. -/
theorem testBit_image : ∀ (l : Located) (s : Positions) (j : Nat),
    (l.image s).testBit j = true ↔ ∃ i, s.testBit i = true ∧ l.Spans i j
  | .stay at_, s, j => by
    simp [image, Spans]
  | .move at_ width, s, j => by
    simp only [image, Spans, Nat.testBit_shiftLeft, Nat.testBit_and, Bool.and_eq_true,
      decide_eq_true_eq]
    constructor
    · intro hspan
      obtain ⟨hj, hs, ha⟩ := hspan
      exact ⟨j - width, hs, ha, by omega⟩
    · intro hspan
      obtain ⟨i, hs, ha, rfl⟩ := hspan
      rw [Nat.add_sub_cancel]
      exact ⟨by omega, hs, ha⟩
  | .repetition min more body, s, j => by
    have hbody := testBit_image body
    simp only [image, Spans, testBit_upTo hbody, testBit_exactly hbody]
    constructor
    · intro hspan
      obtain ⟨m, hm, k, ⟨i, hi, hik⟩, hj⟩ := hspan
      exact ⟨i, hi, min + m, by omega, by omega, times_add.2 ⟨k, hik, hj⟩⟩
    · intro hspan
      obtain ⟨i, hi, n, hn, hn', hj⟩ := hspan
      obtain ⟨m, rfl⟩ := Nat.exists_eq_add_of_le hn
      obtain ⟨k, hik, hj⟩ := times_add.1 hj
      exact ⟨m, by omega, k, ⟨i, hi, hik⟩, hj⟩
  | .sequence items, s, j => by
    simp only [image, Spans]
    exact testBit_imageInTurn items s j
  | .alternatives branches, s, j => by
    simp only [image, Spans]
    exact testBit_imageAny branches s j

theorem testBit_imageInTurn : ∀ (items : List Located) (s : Positions) (j : Nat),
    (imageInTurn items s).testBit j = true ↔ ∃ i, s.testBit i = true ∧ SpansInTurn items i j
  | [], s, j => by
    simp [imageInTurn, SpansInTurn]
  | e :: es, s, j => by
    simp only [imageInTurn, SpansInTurn, testBit_imageInTurn es, testBit_image e]
    constructor
    · intro hspan
      obtain ⟨k, ⟨i, hi, hik⟩, hj⟩ := hspan
      exact ⟨i, hi, k, hik, hj⟩
    · intro hspan
      obtain ⟨i, hi, k, hik, hj⟩ := hspan
      exact ⟨k, ⟨i, hi, hik⟩, hj⟩

theorem testBit_imageAny : ∀ (branches : List Located) (s : Positions) (j : Nat),
    (imageAny branches s).testBit j = true ↔ ∃ i, s.testBit i = true ∧ SpansAny branches i j
  | [], s, j => by
    simp [imageAny, SpansAny]
  | e :: es, s, j => by
    simp only [imageAny, SpansAny, Nat.testBit_or, Bool.or_eq_true, testBit_imageAny es,
      testBit_image e, and_or_left, exists_or]

end

end Located

/-! ## Matches of expressions -/

namespace Expr

mutual

/-- Every repetition has a minimum that is not above its maximum. -/
def WellFormed : Expr → Prop
  | .repetition min max _ body => (∀ m, max = some m → min ≤ m) ∧ WellFormed body
  | .capture body => WellFormed body
  | .sequence items => AllWellFormed items
  | .alternatives branches => AllWellFormed branches
  | _ => True

/-- All of the expressions are well-formed. -/
def AllWellFormed : List Expr → Prop
  | [] => True
  | e :: es => WellFormed e ∧ AllWellFormed es

end

variable {h : Buffer}

mutual

/-- A match never moves back and stays within the haystack. -/
theorem le_of_spans : ∀ (e : Expr) (i j : Nat), i ≤ h.size → Spans h e i j → i ≤ j ∧ j ≤ h.size
  | .empty, i, j, hi, hij => by
    obtain rfl : i = j := hij
    exact ⟨Nat.le_refl i, hi⟩
  | .literal w, i, j, _, hij => by
    obtain ⟨hw, rfl⟩ := hij
    exact ⟨Nat.le_add_right .., hw.1⟩
  | .bytes s, i, j, _, hij => by
    obtain ⟨⟨b, hb, -⟩, rfl⟩ := hij
    exact ⟨Nat.le_succ i, (Array.getElem?_eq_some_iff.1 hb).1⟩
  | .chars s, i, j, _, hij => by
    obtain ⟨c, -, hc, rfl⟩ := hij
    exact ⟨Nat.le_add_right .., hc.1⟩
  | .look l, i, j, hi, hij => by
    obtain ⟨-, rfl⟩ := hij
    exact ⟨Nat.le_refl i, hi⟩
  | .repetition min max greedy body, i, j, hi, hij => by
    obtain ⟨n, -, -, hn⟩ := hij
    refine hn.preserves (P := fun x => i ≤ x ∧ x ≤ h.size) (fun x y hx hxy => ?_)
      ⟨Nat.le_refl i, hi⟩
    have hy := le_of_spans body x y hx.2 hxy
    exact ⟨Nat.le_trans hx.1 hy.1, hy.2⟩
  | .capture body, i, j, hi, hij => le_of_spans body i j hi hij
  | .sequence items, i, j, hi, hij => le_of_spansInTurn items i j hi hij
  | .alternatives branches, i, j, hi, hij => le_of_spansAny branches i j hi hij

theorem le_of_spansInTurn : ∀ (items : List Expr) (i j : Nat), i ≤ h.size →
    SpansInTurn h items i j → i ≤ j ∧ j ≤ h.size
  | [], i, j, hi, hij => by
    obtain rfl : i = j := hij
    exact ⟨Nat.le_refl i, hi⟩
  | e :: es, i, j, hi, hij => by
    obtain ⟨k, hik, hkj⟩ := hij
    have hk := le_of_spans e i k hi hik
    have hj := le_of_spansInTurn es k j hk.2 hkj
    exact ⟨Nat.le_trans hk.1 hj.1, hj.2⟩

theorem le_of_spansAny : ∀ (branches : List Expr) (i j : Nat), i ≤ h.size →
    SpansAny h branches i j → i ≤ j ∧ j ≤ h.size
  | [], _, _, _, hij => hij.elim
  | e :: es, i, j, hi, hij => by
    rcases hij with hij | hij
    · exact le_of_spans e i j hi hij
    · exact le_of_spansAny es i j hi hij

end

/-! ## Locating -/

/-- A literal is located byte by byte. -/
theorem spansInTurn_literal (w : Bytes) (i j : Nat) :
    Located.SpansInTurn (w.map fun b => .move ((Index.ofBuffer h).offsetsOf b) 1) i j ↔
      agreesAt h w i = true ∧ j = i + w.length := by
  induction w generalizing i with
  | nil => simp [Located.SpansInTurn, agreesAt, eq_comm]
  | cons b w ih =>
    simp only [List.map_cons, Located.SpansInTurn, Located.Spans, Index.testBit_offsetsOf, ih,
      agreesAt, Bool.and_eq_true, beq_iff_eq, List.length_cons]
    constructor
    · intro hspan
      obtain ⟨k, ⟨hb, rfl⟩, hw, hj⟩ := hspan
      exact ⟨⟨hb, hw⟩, by omega⟩
    · intro hspan
      obtain ⟨⟨hb, hw⟩, hj⟩ := hspan
      exact ⟨i + 1, ⟨hb, rfl⟩, hw, by omega⟩

/-- A set of characters is located by the length of the encoding. -/
theorem spansAny_chars (s : Ranges) (i j : Nat) :
    Located.SpansAny ([1, 2, 3, 4].map fun width => .move (charOffsets h s width) width) i j ↔
      Spans h (.chars s) i j := by
  simp only [List.map_cons, List.map_nil, Located.SpansAny, Located.Spans, testBit_charOffsets,
    Spans, or_false]
  constructor
  · rintro (⟨⟨c, hc, hlen, hocc⟩, hj⟩ | ⟨⟨c, hc, hlen, hocc⟩, hj⟩ | ⟨⟨c, hc, hlen, hocc⟩, hj⟩ |
      ⟨⟨c, hc, hlen, hocc⟩, hj⟩)
    all_goals exact ⟨c, hc, hocc, by omega⟩
  · intro hspan
    obtain ⟨c, hc, hocc, hj⟩ := hspan
    have hlen : (Bytes.ofChar c).length = c.utf8Size := String.length_utf8EncodeChar c
    have hpos := c.utf8Size_pos
    have hfour := c.utf8Size_le_four
    obtain h₁ | h₂ | h₃ | h₄ : (Bytes.ofChar c).length = 1 ∨ (Bytes.ofChar c).length = 2 ∨
        (Bytes.ofChar c).length = 3 ∨ (Bytes.ofChar c).length = 4 := by omega
    · exact .inl ⟨⟨c, hc, h₁, hocc⟩, by omega⟩
    · exact .inr (.inl ⟨⟨c, hc, h₂, hocc⟩, by omega⟩)
    · exact .inr (.inr (.inl ⟨⟨c, hc, h₃, hocc⟩, by omega⟩))
    · exact .inr (.inr (.inr ⟨⟨c, hc, h₄, hocc⟩, by omega⟩))

/-- More rounds than the minimum and one for each position are never needed. -/
theorem spans_unbounded {R : Nat → Nat → Prop} {min i j : Nat} (hi : i ≤ h.size)
    (hR : ∀ i j, i ≤ h.size → R i j → i ≤ j ∧ j ≤ h.size) :
    (∃ n, min ≤ n ∧ n ≤ min + (h.size + 1) ∧ Times R n i j) ↔
      ∃ n, min ≤ n ∧ Times R n i j := by
  constructor
  · intro hspan
    obtain ⟨n, hn, -, hj⟩ := hspan
    exact ⟨n, hn, hj⟩
  · intro hspan
    obtain ⟨n, hn, hj⟩ := hspan
    by_cases hle : n ≤ min + (h.size + 1)
    · exact ⟨n, hn, hle, hj⟩
    · have hsize : j ≤ h.size :=
        hj.preserves (P := fun x => x ≤ h.size) (fun x y hx hxy => (hR x y hx hxy).2) hi
      refine ⟨min + (h.size + 1), by omega, by omega, ?_⟩
      exact hj.shorten (P := fun x => x ≤ h.size) (fun x y hx hxy => (hR x y hx hxy).2)
        (fun x y hx hxy => (hR x y hx hxy).1) hi (by omega) (by omega)

mutual

/-- The located form of an expression has the same matches. -/
theorem spans_locate : ∀ (e : Expr), e.WellFormed → ∀ (i j : Nat), i ≤ h.size →
    ((e.locate h (Index.ofBuffer h)).Spans i j ↔ Spans h e i j)
  | .empty, _, i, j, hi => by
    simp only [locate, Located.Spans, Spans, Index.testBit_positions, hi, true_and]
  | .literal w, _, i, j, hi => by
    simp only [locate, Located.Spans, Spans, spansInTurn_literal, agreesAt_iff hi]
  | .bytes s, _, i, j, _ => by
    simp only [locate, Located.Spans, Spans, Index.testBit_offsetsIn]
  | .chars s, _, i, j, _ => by
    simp only [locate, Located.Spans, spansAny_chars]
  | .look l, _, i, j, hi => by
    simp only [locate, Located.Spans, Spans, Look.testBit_positions l hi]
  | .repetition min none greedy body, hwf, i, j, hi => by
    have hbody : ∀ n, Times (body.locate h (Index.ofBuffer h)).Spans n i j ↔
        Times (Spans h body) n i j := fun n =>
      times_congr (spans_locate body hwf.2) (fun x y hx hxy => (le_of_spans body x y hx hxy).2) hi
    have hsize : (Index.ofBuffer h).size = h.size := rfl
    simp only [locate, Located.spans_repeated, hbody, Spans, reduceCtorEq, false_implies,
      implies_true, true_and, hsize]
    exact spans_unbounded hi (le_of_spans body)
  | .repetition min (some max) greedy body, hwf, i, j, hi => by
    have hbody : ∀ n, Times (body.locate h (Index.ofBuffer h)).Spans n i j ↔
        Times (Spans h body) n i j := fun n =>
      times_congr (spans_locate body hwf.2) (fun x y hx hxy => (le_of_spans body x y hx hxy).2) hi
    have hmax := hwf.1 max rfl
    simp only [locate, Located.spans_repeated, hbody, Spans, Option.some.injEq, forall_eq',
      Nat.add_sub_cancel' hmax]
  | .capture body, hwf, i, j, hi => by
    simp only [locate, Spans]
    exact spans_locate body hwf i j hi
  | .sequence items, hwf, i, j, hi => by
    simp only [locate, Located.Spans, Spans]
    exact spansInTurn_locateAll items hwf i j hi
  | .alternatives branches, hwf, i, j, hi => by
    simp only [locate, Located.Spans, Spans]
    exact spansAny_locateAll branches hwf i j hi

theorem spansInTurn_locateAll : ∀ (items : List Expr), AllWellFormed items → ∀ (i j : Nat),
    i ≤ h.size →
    (Located.SpansInTurn (locateAll h (Index.ofBuffer h) items) i j ↔ SpansInTurn h items i j)
  | [], _, i, j, _ => by
    simp only [locateAll, Located.SpansInTurn, SpansInTurn]
  | e :: es, hwf, i, j, hi => by
    simp only [locateAll, Located.SpansInTurn, SpansInTurn]
    constructor
    · intro hspan
      obtain ⟨k, hik, hkj⟩ := hspan
      have hk := (spans_locate e hwf.1 i k hi).1 hik
      exact ⟨k, hk, (spansInTurn_locateAll es hwf.2 k j (le_of_spans e i k hi hk).2).1 hkj⟩
    · intro hspan
      obtain ⟨k, hik, hkj⟩ := hspan
      exact ⟨k, (spans_locate e hwf.1 i k hi).2 hik,
        (spansInTurn_locateAll es hwf.2 k j (le_of_spans e i k hi hik).2).2 hkj⟩

theorem spansAny_locateAll : ∀ (branches : List Expr), AllWellFormed branches → ∀ (i j : Nat),
    i ≤ h.size →
    (Located.SpansAny (locateAll h (Index.ofBuffer h) branches) i j ↔ SpansAny h branches i j)
  | [], _, i, j, _ => by
    simp only [locateAll, Located.SpansAny, SpansAny]
  | e :: es, hwf, i, j, hi => by
    simp only [locateAll, Located.SpansAny, SpansAny]
    exact or_congr (spans_locate e hwf.1 i j hi) (spansAny_locateAll es hwf.2 i j hi)

end

/-! ## The ends -/

/-- **Ends of matches.** The offsets that the matcher lists are those at which a match ends. -/
theorem mem_matchEnds {e : Expr} (hwf : e.WellFormed) (j : Nat) :
    j ∈ e.matchEnds h ↔ EndsAt h e j := by
  rw [matchEnds, Positions.mem_toList, Located.testBit_image, EndsAt]
  refine and_congr_right fun _ => exists_congr fun i => ?_
  rw [Index.testBit_positions]
  exact and_congr_right fun hi => spans_locate e hwf i j hi

theorem pairwise_matchEnds (e : Expr) : (e.matchEnds h).Pairwise (· < ·) :=
  List.pairwise_lt_range.filter _

theorem filter_matchEnds_lt (e : Expr) (h : Buffer) :
    (e.matchEnds h).filter (· < h.size + 1) = e.matchEnds h := by
  refine List.filter_eq_self.2 fun j hj => ?_
  have hle := (Positions.mem_toList.1 hj).1
  exact decide_eq_true (Nat.lt_succ_of_le hle)

end Expr

end ByteSearch.Regex
