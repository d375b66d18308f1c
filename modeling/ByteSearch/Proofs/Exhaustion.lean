import ByteSearch.Regex.Scratch

/-!
# Running out of scratch space

Scratch space that must not be cleared again keeps all states that a search meets, and the search
gives up at the first new state for which there is no room left (`Scratch.extend_of_new`).

As long as all states are new it does not matter what the tables say: the scratch space grows by one
state with each symbol. A `Filling` is what is left to know of it then, and `Filling.givesUpAt`
follows the search with that alone. `Scratch.search_of_exhaustedAt` says that the search itself
gives up at the same offset, without another clear.
-/

namespace ByteSearch.Regex

/-- A number by which states are told apart. It has a binary digit for every node, and one more if
the state is accepting; states may have the same number. -/
def Subset.mark (s : Subset) : Nat :=
  2 * s.nodes.foldl (fun m i => m ||| 1 <<< i) 0 + s.accepting.toNat

namespace Scratch

variable {budget : Budget} {p : Program} {h : Buffer}

/-! ## One step -/

section Step

variable {sc : Scratch} {current room : Nat} {s t : Subset} {u : Symbol}

/-- The row of transitions for a symbol. -/
def rowOf (p : Program) : Symbol → Nat
  | some b => p.classes.classOf b
  | none => p.classes.count

/-- A transition that is not known is worked out. -/
theorem step_of_unknown (hstate : sc.states[current]? = some s)
    (hmove : sc.moves[(current, rowOf p u)]? = none) :
    step budget p sc current u = extend budget p sc current s u (rowOf p u) := by
  unfold step
  cases u <;> simp only [rowOf] at hmove ⊢ <;> simp only [hmove, hstate]

/-- Adds a new state, and the transition to it from the state with a number. -/
def extended (sc : Scratch) (current row room : Nat) (t : Subset) : Scratch :=
  { push { sc with room } t with moves := sc.moves.insert (current, row) (some sc.states.size) }

/-- A new state is added if there is room for it. If there is none, and no clear is left, the
search gives up. -/
theorem extend_of_new (hspent : sc.isSpent budget = true) (row : Nat)
    (hnext : s.next p u sc.room = (t, room)) (halive : t.isDead = false)
    (hnew : sc.numbers[t]? = none) :
    extend budget p sc current s u row =
      if fits budget p { sc with room } t then
        (sc.extended current row room t, .to sc.states.size)
      else ({ sc with room }, .gaveUp) := by
  have hspent' : isSpent budget { sc with room } = true := hspent
  simp only [extend, hnext, halive, hnew, hspent', Bool.false_eq_true, if_false, if_true]
  rfl

end Step

/-! ## Searches that meet only new states -/

/-- What is left to know of scratch space in which all states are new: the last state and its
number, the marks of all states, their bytes, and the room for pending nodes. -/
structure Filling where
  last : Subset
  number : Nat
  marks : List Nat
  bytes : Nat
  room : Nat

namespace Filling

def ofStart (p : Program) : Filling :=
  let (s, room) := Subset.start p 0
  ⟨s, 0, [s.mark], s.size, room⟩

def push (f : Filling) (t : Subset) (room : Nat) : Filling :=
  ⟨t, f.number + 1, t.mark :: f.marks, f.bytes + t.size, room⟩

def used (p : Program) (f : Filling) : Nat :=
  (f.number + 1 + fixedStates) * stateBytes p + (f.number + 1 + 1) * tableBytes +
    fixedStates * Subset.emptySize + f.bytes + 12 * 4 + 16 * p.size + 4 * f.room

/-- Where a search that meets only new states gives up, if it does: at the first symbol behind which
the state does not fit. There is no such offset if a state might be known. -/
def givesUpAt (capacity : Nat) (p : Program) : Nat → Nat → Bytes → Filling → Option Nat
  | 0, _, _, _ => none
  | count + 1, offset, bytes, f =>
    let (t, room) := f.last.next p bytes.head? f.room
    if t.isDead || f.marks.contains t.mark then none
    else if { f with room }.used p + stateBytes p + tableBytes + t.size ≤ capacity then
      givesUpAt capacity p count (offset + 1) bytes.tail (f.push t room)
    else some offset

/-- Scratch space of which this is known. From the last state on no transition is known. -/
structure Describes (f : Filling) (sc : Scratch) : Prop where
  size : sc.states.size = f.number + 1
  last : sc.states[f.number]? = some f.last
  numbers : ∀ t : Subset, t.mark ∉ f.marks → sc.numbers[t]? = none
  moves : ∀ current row : Nat, f.number ≤ current → sc.moves[(current, row)]? = none
  bytes : sc.bytes = f.bytes
  room : sc.room = f.room

variable {f : Filling} {sc : Scratch} {t : Subset} {room : Nat}

theorem Describes.fits_iff (hf : f.Describes sc) :
    fits budget p { sc with room } t = true ↔
      { f with room }.used p + stateBytes p + tableBytes + t.size ≤ budget.capacity := by
  rw [fits, decide_eq_true_eq, Scratch.used, Filling.used, hf.size, hf.bytes]

/-- A new state becomes the last one. -/
theorem Describes.push (hf : f.Describes sc) (t : Subset) (row room : Nat) :
    (f.push t room).Describes (sc.extended f.number row room t) where
  size := by
    rw [Scratch.extended, Scratch.push, Array.size_push, hf.size]
    rfl
  last := by
    simp only [Scratch.extended, Scratch.push, Filling.push, ← hf.size, Array.getElem?_push_size]
  numbers := by
    intro r hr
    rw [Filling.push, List.mem_cons, not_or] at hr
    have hne : t ≠ r := fun heq => hr.1 (heq ▸ rfl)
    simp only [Scratch.extended, Scratch.push, Std.HashMap.getElem?_insert, beq_iff_eq, hne,
      if_false]
    exact hf.numbers r hr.2
  moves := by
    intro current row' hcurrent
    have hlt : f.number < current := hcurrent
    have hne : (f.number, row) ≠ (current, row') := by
      rw [ne_eq, Prod.mk.injEq]
      omega
    simp only [Scratch.extended, Std.HashMap.getElem?_insert, beq_iff_eq, hne, if_false]
    exact hf.moves current row' (Nat.le_of_lt hlt)
  bytes := congrArg (· + t.size) hf.bytes
  room := rfl

/-- A search that meets only new states gives up where they no longer fit. -/
theorem walk_of_givesUpAt {count offset stopped : Nat}
    (hspent : sc.isSpent budget = true) (hf : f.Describes sc)
    (hstopped : f.givesUpAt budget.capacity p count offset (h.toList.drop offset) = some stopped) :
    ∃ sc', walk budget p h count offset f.number sc = (sc', some stopped) ∧
      sc'.clears = sc.clears := by
  induction count generalizing offset f sc with
  | zero => cases hstopped
  | succ count ih =>
    have hsymbol : (h.toList.drop offset).head? = h[offset]? := by
      rw [List.head?_drop, Array.getElem?_toList]
    rcases hnext : f.last.next p h[offset]? sc.room with ⟨t, room⟩
    simp only [givesUpAt, hsymbol, ← hf.room, hnext] at hstopped
    split at hstopped
    · cases hstopped
    · rename_i hnew
      rw [Bool.or_eq_true, List.contains_iff_mem, not_or, Bool.not_eq_true] at hnew
      -- the tables know nothing of the new state, so it is worked out here
      have hmove := hf.moves f.number (rowOf p h[offset]?) (Nat.le_refl _)
      rw [walk, step_of_unknown hf.last hmove,
        extend_of_new hspent _ hnext hnew.1 (hf.numbers t hnew.2)]
      split at hstopped
      · rename_i hfits
        rw [if_pos (hf.fits_iff.2 hfits), hf.size]
        rw [List.tail_drop] at hstopped
        exact ih (f := f.push t room) hspent (hf.push t _ room) hstopped
      · rename_i hfits
        rw [if_neg (mt hf.fits_iff.1 hfits)]
        exact ⟨_, congrArg _ hstopped, rfl⟩

/-- Empty scratch space with the first state. -/
def firstScratch (p : Program) : Scratch :=
  Scratch.push { room := (ofStart p).room } (ofStart p).last

theorem ofStart_describes (p : Program) : (ofStart p).Describes (firstScratch p) where
  size := rfl
  last := rfl
  numbers := by
    intro r hr
    have hne : (ofStart p).last ≠ r := fun heq => hr (List.mem_singleton.2 (heq ▸ rfl))
    simp only [firstScratch, Scratch.push, Std.HashMap.getElem?_insert, beq_iff_eq, hne, if_false]
    exact Std.HashMap.getElem?_empty
  moves := fun _ _ _ => Std.HashMap.getElem?_empty
  bytes := Nat.zero_add _
  room := rfl

theorem enter_empty (halive : (ofStart p).last.isDead = false)
    (hfits : (ofStart p).used p ≤ budget.capacity) :
    enter budget p {} = (firstScratch p, .to 0) := by
  have hstart : Subset.start p ({} : Scratch).room = ((ofStart p).last, (ofStart p).room) := rfl
  have hnumber : (∅ : Std.HashMap Subset Nat)[(ofStart p).last]? = none :=
    Std.HashMap.getElem?_empty
  have hused : (ofStart p).used p = Scratch.used p { room := (ofStart p).room } +
      stateBytes p + tableBytes + (ofStart p).last.size := by
    have hnumber : (ofStart p).number = 0 := rfl
    have hbytes : (ofStart p).bytes = (ofStart p).last.size := rfl
    have hsize : (#[] : Array Subset).size = 0 := rfl
    simp only [Filling.used, Scratch.used, hnumber, hbytes, hsize, Nat.add_mul]
    omega
  have hfits' : fits budget p { room := (ofStart p).room } (ofStart p).last = true := by
    rw [fits, decide_eq_true_eq, ← hused]
    exact hfits
  simp only [enter, hstart, halive, hnumber, hfits', Bool.false_eq_true, if_false, if_true]
  rfl

end Filling

/-- Where a search in empty scratch space gives up, if it meets only new states. -/
def exhaustedAt (capacity : Nat) (p : Program) (h : Buffer) (count : Nat) : Option Nat :=
  let f := Filling.ofStart p
  if f.last.isDead || capacity < f.used p then none else f.givesUpAt capacity p count 0 h.toList

/-- **Running out.** A search in empty scratch space that must not be cleared gives up where new
states no longer fit. -/
theorem search_of_exhaustedAt {count stopped : Nat} (hspent : isSpent budget {} = true)
    (hstopped : exhaustedAt budget.capacity p h count = some stopped) :
    ∃ sc', search budget p h count {} = (sc', some stopped) ∧ sc'.clears = 0 := by
  simp only [exhaustedAt] at hstopped
  split at hstopped
  · cases hstopped
  · rename_i hstored
    rw [Bool.or_eq_true, not_or, Bool.not_eq_true, decide_eq_true_eq, Nat.not_lt] at hstored
    rw [search, Filling.enter_empty hstored.1 hstored.2]
    have hspent' : isSpent budget (Filling.firstScratch p) = true := hspent
    exact Filling.walk_of_givesUpAt hspent' (Filling.ofStart_describes p) hstopped

end Scratch

end ByteSearch.Regex
