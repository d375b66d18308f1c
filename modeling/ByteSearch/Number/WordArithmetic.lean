/-!
# Arithmetic in words

A program that computes with words of 64 bits may come to a fault (`Fault`). Whether a result that
is no word is one depends on the arithmetic: `checked` arithmetic stops there, and `wrapping`
arithmetic goes on with what is left of the result in a word. To divide by zero, and to ask for a
place that is not in a list, is a fault in both.

Words are written here as numbers that fit into one. As long as the exact result fits too, both
kinds of arithmetic compute it (`Arithmetic.add_ofNat`, `Arithmetic.sub_ofNat`,
`Arithmetic.mul_ofNat`).
-/

namespace ByteSearch.Number

/-- What stops a program. -/
inductive Fault where
  /-- A result that is no word. -/
  | overflow
  | divisionByZero
  /-- A place that is not in a list. -/
  | outOfBounds
  deriving DecidableEq, Repr

/-- A program that may come to a fault. -/
abbrev Faulting (α : Type) := Except Fault α

@[simp] theorem ok_bind {α β : Type} (a : α) (f : α → Faulting β) :
    (Except.ok a : Faulting α) >>= f = f a := rfl

/-- What is done about a result that is no word. -/
inductive Arithmetic where
  | checked
  | wrapping
  deriving DecidableEq, Repr

namespace Arithmetic

/-- Goes on with a word, which is the result just if the condition holds. -/
def settle (ar : Arithmetic) (exact : Prop) [Decidable exact] (w : UInt64) : Faulting UInt64 :=
  match ar with
  | checked => if exact then .ok w else .error .overflow
  | wrapping => .ok w

def add (ar : Arithmetic) (a b : UInt64) : Faulting UInt64 :=
  ar.settle (a.toNat + b.toNat < UInt64.size) (a + b)

def sub (ar : Arithmetic) (a b : UInt64) : Faulting UInt64 :=
  ar.settle (b.toNat ≤ a.toNat) (a - b)

def mul (ar : Arithmetic) (a b : UInt64) : Faulting UInt64 :=
  ar.settle (a.toNat * b.toNat < UInt64.size) (a * b)

def div (a b : UInt64) : Faulting UInt64 :=
  if b = 0 then .error .divisionByZero else .ok (a / b)

theorem settle_of (ar : Arithmetic) {exact : Prop} [Decidable exact] (hexact : exact)
    (w : UInt64) : ar.settle exact w = .ok w := by
  cases ar with
  | checked => exact if_pos hexact
  | wrapping => rfl

theorem add_ofNat (ar : Arithmetic) {a b : Nat} (hsum : a + b < UInt64.size) :
    ar.add (.ofNat a) (.ofNat b) = .ok (.ofNat (a + b)) := by
  have ha : (UInt64.ofNat a).toNat = a := UInt64.toNat_ofNat_of_lt' (by omega)
  have hb : (UInt64.ofNat b).toNat = b := UInt64.toNat_ofNat_of_lt' (by omega)
  rw [add, settle_of ar (by rw [ha, hb]; exact hsum), UInt64.ofNat_add]

theorem sub_ofNat (ar : Arithmetic) {a b : Nat} (hle : b ≤ a) (ha : a < UInt64.size) :
    ar.sub (.ofNat a) (.ofNat b) = .ok (.ofNat (a - b)) := by
  have ha' : (UInt64.ofNat a).toNat = a := UInt64.toNat_ofNat_of_lt' ha
  have hb' : (UInt64.ofNat b).toNat = b := UInt64.toNat_ofNat_of_lt' (by omega)
  rw [sub, settle_of ar (by rw [ha', hb']; exact hle), UInt64.ofNat_sub hle]

theorem mul_ofNat (ar : Arithmetic) {a b : Nat} (ha : a < UInt64.size) (hb : b < UInt64.size)
    (hproduct : a * b < UInt64.size) : ar.mul (.ofNat a) (.ofNat b) = .ok (.ofNat (a * b)) := by
  have ha' : (UInt64.ofNat a).toNat = a := UInt64.toNat_ofNat_of_lt' ha
  have hb' : (UInt64.ofNat b).toNat = b := UInt64.toNat_ofNat_of_lt' hb
  rw [mul, settle_of ar (by rw [ha', hb']; exact hproduct), UInt64.ofNat_mul]

theorem div_ofNat {a b : Nat} (ha : a < UInt64.size) (hb : b < UInt64.size) (hpos : 0 < b) :
    div (.ofNat a) (.ofNat b) = .ok (.ofNat (a / b)) := by
  have hb' : (UInt64.ofNat b).toNat = b := UInt64.toNat_ofNat_of_lt' hb
  have hne : UInt64.ofNat b ≠ 0 := by
    intro heq
    rw [heq] at hb'
    exact Nat.ne_of_gt hpos hb'.symm
  rw [div, if_neg hne, UInt64.ofNat_div ha hb]

end Arithmetic

/-! ## Loops -/

/-- The words below another one, in ascending order. -/
def below (n : UInt64) : List UInt64 :=
  (List.range n.toNat).map .ofNat

/-- The words from `first` on that are below another one, in ascending order. -/
def between (first n : UInt64) : List UInt64 :=
  (List.range' first.toNat (n.toNat - first.toNat)).map .ofNat

section

variable {α σ : Type}

/-- One round of a loop that counts them: the number of rounds in front of it is kept beside the
state. -/
def countedRound (ar : Arithmetic) (body : σ → UInt64 → α → Faulting σ) (counted : UInt64 × σ)
    (x : α) : Faulting (UInt64 × σ) := do
  let next ← ar.add counted.1 1
  let s ← body counted.2 counted.1 x
  return (next, s)

/-- A loop over a list that counts its rounds. -/
def countingRounds (ar : Arithmetic) (body : σ → UInt64 → α → Faulting σ) (xs : List α) (s : σ) :
    Faulting σ := do
  let counted ← xs.foldlM (countedRound ar body) (0, s)
  return counted.2

/-- A loop whose rounds lead from each state of a sequence to the next one comes to no fault. -/
theorem foldlM_of_rounds {body : σ → α → Faulting σ} {xs : List α} (state : Nat → σ)
    (hround : ∀ k (hk : k < xs.length), body (state k) xs[k] = .ok (state (k + 1))) :
    xs.foldlM body (state 0) = .ok (state xs.length) := by
  induction xs generalizing state with
  | nil => rfl
  | cons x xs ih =>
    have hfirst : body (state 0) x = .ok (state 1) := hround 0 (Nat.succ_pos xs.length)
    have hrest := ih (fun k => state (k + 1)) fun k hk => hround (k + 1) (Nat.succ_lt_succ hk)
    rw [List.foldlM_cons, hfirst, ok_bind]
    exact hrest

theorem foldlM_below {body : σ → UInt64 → Faulting σ} {n : Nat} (hn : n < UInt64.size)
    (state : Nat → σ) (hround : ∀ k, k < n → body (state k) (.ofNat k) = .ok (state (k + 1))) :
    (below (.ofNat n)).foldlM body (state 0) = .ok (state n) := by
  have hlength : (below (.ofNat n)).length = n := by
    rw [below, List.length_map, List.length_range, UInt64.toNat_ofNat_of_lt' hn]
  have hloop : (below (.ofNat n)).foldlM body (state 0) = _ :=
    foldlM_of_rounds state fun k hk => by
      rw [hlength] at hk
      simp only [below, List.getElem_map, List.getElem_range]
      exact hround k hk
  rw [hloop, hlength]

theorem countingRounds_of_rounds (ar : Arithmetic) {body : σ → UInt64 → α → Faulting σ}
    {xs : List α} (hsize : xs.length < UInt64.size) (state : Nat → σ)
    (hround : ∀ k (hk : k < xs.length), body (state k) (.ofNat k) xs[k] = .ok (state (k + 1))) :
    countingRounds ar body xs (state 0) = .ok (state xs.length) := by
  have hcounted : ∀ k (hk : k < xs.length),
      countedRound ar body (.ofNat k, state k) xs[k] = .ok (.ofNat (k + 1), state (k + 1)) := by
    intro k hk
    have hnext : ar.add (.ofNat k) 1 = .ok (.ofNat (k + 1)) := ar.add_ofNat (b := 1) (by omega)
    rw [countedRound, hnext, ok_bind, hround k hk]
    rfl
  have hloop := foldlM_of_rounds (fun k => (UInt64.ofNat k, state k)) hcounted
  show (xs.foldlM (countedRound ar body) (.ofNat 0, state 0) >>= fun counted => .ok counted.2) = _
  rw [hloop]
  rfl

end

end ByteSearch.Number
