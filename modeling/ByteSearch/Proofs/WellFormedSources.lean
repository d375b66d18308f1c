import ByteSearch.Proofs.SimpleForm
import ByteSearch.Regex.Compiled

/-!
# Source texts have well-formed expressions

A counted repetition whose minimum is above its maximum is refused when it is read
(`Lexer.bounded_counted`). From there the bounds are handed on: from tokens to trees
(`Tree.bounded_ofTokens`), and from trees to expressions, whose simple forms keep them
(`Expr.wellFormed_repeated`, `Expr.wellFormed_oneOf`).

Main statement: `Expr.wellFormed_of_ofSource`. So the ends of matches are known for every source
text that is not refused (`Expr.mem_matchEnds`).
-/

namespace ByteSearch.Regex

section Ensures

variable {α β : Type}

/-- What is not refused has a property. -/
def Ensures (x : Except Refusal α) (Q : α → Prop) : Prop :=
  ∀ a, x = .ok a → Q a

theorem ensures_ok {a : α} {Q : α → Prop} (ha : Q a) : Ensures (.ok a) Q := by
  intro b hb
  cases hb
  exact ha

theorem ensures_error {r : Refusal} {Q : α → Prop} : Ensures (.error r) Q := by
  intro b hb
  cases hb

theorem ensures_bind {x : Except Refusal α} {f : α → Except Refusal β} {P : α → Prop}
    {Q : β → Prop} (hx : Ensures x P) (hf : ∀ a, P a → Ensures (f a) Q) : Ensures (x >>= f) Q := by
  intro b hb
  cases h : x with
  | error r =>
    rw [h] at hb
    cases hb
  | ok a =>
    rw [h] at hb
    exact hf a (hx a h) b hb

theorem ensures_map {x : Except Refusal α} {f : α → β} {P : α → Prop} {Q : β → Prop}
    (hx : Ensures x P) (hf : ∀ a, P a → Q (f a)) : Ensures (x.map f) Q := by
  intro b hb
  cases h : x with
  | error r =>
    rw [h] at hb
    cases hb
  | ok a =>
    rw [h] at hb
    cases hb
    exact hf a (hx a h)

theorem ensures_any (x : Except Refusal α) : Ensures x fun _ => True :=
  fun _ _ => trivial

end Ensures

/-- A minimum that is not above the maximum, if there is one. -/
def Bounds (min : Nat) (max : Option Nat) : Prop :=
  ∀ m, max = some m → min ≤ m

/-! ## Tokens -/

/-- The token is no repetition, or its bounds are in order. -/
def Token.Bounded : Token → Prop
  | .repetition min max _ => Bounds min max
  | _ => True

namespace Lexer

/-- A counted repetition is refused at its end unless its bounds are in order. -/
theorem bounded_closing (x : Bool) (min : Nat) (max : Option Nat) (s : List Char) :
    Ensures (match s with
      | '\x7d' :: rest =>
        let (g, s) := greedy (skip x rest)
        if max.all (min ≤ ·) then .ok (Token.repetition min max g, s) else .error .countInvalid
      | _ => .error .countUnclosed) (·.1.Bounded) := by
  split
  · simp only
    split
    · rename_i hmax
      refine ensures_ok fun m hm => ?_
      rw [hm, Option.all_some, decide_eq_true_eq] at hmax
      exact hmax
    · exact ensures_error
  · exact ensures_error

theorem bounded_counted (x : Bool) (s : List Char) : Ensures (counted x s) (·.1.Bounded) := by
  refine ensures_bind (ensures_any _) fun s _ => ensures_bind (ensures_any _) fun (min, s) _ => ?_
  simp only
  split
  · refine ensures_bind (ensures_any _) fun s _ => ?_
    split
    · exact ensures_bind (ensures_any _) fun _ _ => bounded_closing x min _ _
    · refine ensures_bind (ensures_any _) fun _ _ => ?_
      exact ensures_bind (ensures_any _) fun _ _ => bounded_closing x min _ _
  · exact ensures_bind (ensures_any _) fun _ _ => bounded_closing x min _ _

theorem bounded_opening (x : Bool) (s : List Char) : Ensures (opening x s) (·.1.Bounded) := by
  unfold opening
  split
  · exact ensures_error
  · exact ensures_error
  · exact ensures_error
  · exact ensures_error
  · exact ensures_bind (ensures_any _) fun _ _ => ensures_ok trivial
  · exact ensures_bind (ensures_any _) fun _ _ => ensures_ok trivial
  · refine ensures_bind (ensures_any _) fun _ _ => ?_
    split
    · split
      · exact ensures_ok trivial
      · exact ensures_error
    · exact ensures_ok trivial
  · exact ensures_ok trivial

theorem bounded_tokenLoop (fuel : Nat) (x : Bool) (saved : List Bool) (s : List Char) :
    Ensures (tokenLoop fuel x saved s) (∀ t ∈ ·, t.Bounded) := by
  have hcons {t : Token} {more : Except Refusal (List Token)} (ht : t.Bounded)
      (hmore : Ensures more (∀ t ∈ ·, t.Bounded)) :
      Ensures (more >>= fun more => .ok (t :: more)) (∀ t ∈ ·, t.Bounded) :=
    ensures_bind hmore fun _ hmore => ensures_ok (List.forall_mem_cons.2 ⟨ht, hmore⟩)
  induction fuel generalizing x saved s with
  | zero => exact ensures_ok (List.forall_mem_nil _)
  | succ fuel ih =>
    rw [tokenLoop]
    split
    · exact ensures_ok (List.forall_mem_nil _)
    · refine ensures_bind (bounded_opening _ _) fun _ ht => ?_
      split
      · exact hcons trivial (ih _ _ _)
      · exact hcons trivial (ih _ _ _)
      · exact hcons ht (ih _ _ _)
    · split
      · exact ensures_error
      · exact hcons trivial (ih _ _ _)
    · exact hcons trivial (ih _ _ _)
    · exact ensures_bind (ensures_any _) fun _ _ => hcons trivial (ih _ _ _)
    · exact hcons (fun m hm => Nat.zero_le m) (ih _ _ _)
    · exact hcons (fun m hm => Nat.zero_le m) (ih _ _ _)
    · exact hcons (fun m hm => nomatch hm) (ih _ _ _)
    · exact ensures_bind (bounded_counted _ _) fun _ ht => hcons ht (ih _ _ _)
    · exact ensures_bind (ensures_any _) fun _ _ => hcons trivial (ih _ _ _)
    · exact hcons trivial (ih _ _ _)

theorem bounded_tokens (s : List Char) : Ensures (tokens s) (∀ t ∈ ·, t.Bounded) :=
  bounded_tokenLoop _ _ _ _

end Lexer

/-! ## Trees -/

namespace Tree

mutual

/-- The bounds of all repetitions in a tree are in order. -/
def Bounded : Tree → Prop
  | .repetition min max _ body => Bounds min max ∧ Bounded body
  | .group _ body => Bounded body
  | .sequence items => AllBounded items
  | .alternatives branches => AllBounded branches
  | _ => True

/-- The bounds of all repetitions in some trees are in order. -/
def AllBounded : List Tree → Prop
  | [] => True
  | t :: ts => Bounded t ∧ AllBounded ts

end

theorem allBounded_iff {items : List Tree} : AllBounded items ↔ ∀ t ∈ items, t.Bounded := by
  induction items with
  | nil => simp [AllBounded]
  | cons t ts ih => simp only [AllBounded, ih, List.forall_mem_cons]

theorem bounded_ofItems {items : List Tree} (h : ∀ t ∈ items, t.Bounded) :
    (ofItems items).Bounded := by
  unfold ofItems
  split
  · trivial
  · exact h _ List.mem_cons_self
  · exact allBounded_iff.2 fun t ht => h t (List.mem_reverse.1 ht)

/-- The bounds in all that is open are in order. -/
def Frame.Bounded : Frame → Prop
  | .group items _ | .alternatives items => ∀ t ∈ items, t.Bounded

namespace State

/-- The bounds in all that was read are in order. -/
def Bounded (s : State) : Prop :=
  (∀ t ∈ s.items, t.Bounded) ∧ ∀ f ∈ s.frames, f.Bounded

variable {s : State}

theorem Bounded.body (h : s.Bounded) : s.body.1.Bounded ∧ ∀ f ∈ s.body.2, f.Bounded := by
  have hitems := bounded_ofItems h.1
  unfold State.body
  split
  · rename_i branches frames heq
    have hframes := h.2
    rw [heq, List.forall_mem_cons] at hframes
    refine ⟨allBounded_iff.2 fun t ht => ?_, hframes.2⟩
    rcases List.mem_cons.1 (List.mem_reverse.1 ht) with rfl | ht
    · exact hitems
    · exact hframes.1 t ht
  · exact ⟨hitems, h.2⟩

theorem Bounded.cons (h : s.Bounded) {t : Tree} (ht : t.Bounded) :
    ({ s with items := t :: s.items } : State).Bounded :=
  ⟨List.forall_mem_cons.2 ⟨ht, h.1⟩, h.2⟩

theorem Bounded.repeated (h : s.Bounded) {min : Nat} {max : Option Nat} (hbounds : Bounds min max)
    (greedy : Bool) : Ensures (s.repeated min max greedy) State.Bounded := by
  unfold State.repeated
  split
  · exact ensures_error
  · exact ensures_error
  · exact ensures_error
  · rename_i item items _ _ heq
    have hitems := h.1
    rw [heq, List.forall_mem_cons] at hitems
    exact ensures_ok ⟨List.forall_mem_cons.2 ⟨⟨hbounds, hitems.1⟩, hitems.2⟩, h.2⟩

theorem Bounded.opened (h : s.Bounded) (kind : GroupKind) :
    Ensures (s.opened kind) State.Bounded := by
  have hframes : ∀ f ∈ Frame.group s.items kind :: s.frames, f.Bounded :=
    List.forall_mem_cons.2 ⟨h.1, h.2⟩
  unfold State.opened
  split
  · split
    · exact ensures_error
    · exact ensures_ok ⟨List.forall_mem_nil _, hframes⟩
  · exact ensures_ok ⟨List.forall_mem_nil _, hframes⟩

theorem Bounded.closed (h : s.Bounded) : Ensures s.closed State.Bounded := by
  obtain ⟨hbody, hrest⟩ := h.body
  unfold State.closed
  split
  · rename_i body items kind frames heq
    rw [heq] at hbody hrest
    rw [List.forall_mem_cons] at hrest
    exact ensures_ok ⟨List.forall_mem_cons.2 ⟨hbody, hrest.1⟩, hrest.2⟩
  · exact ensures_error

theorem Bounded.separated (h : s.Bounded) : s.separated.Bounded := by
  have hitems := bounded_ofItems h.1
  unfold State.separated
  split
  · rename_i branches frames heq
    have hframes := h.2
    rw [heq, List.forall_mem_cons] at hframes
    exact ⟨List.forall_mem_nil _,
      List.forall_mem_cons.2 ⟨List.forall_mem_cons.2 ⟨hitems, hframes.1⟩, hframes.2⟩⟩
  · exact ⟨List.forall_mem_nil _,
      List.forall_mem_cons.2 ⟨List.forall_mem_singleton.2 hitems, h.2⟩⟩

theorem Bounded.step (h : s.Bounded) {t : Token} (ht : t.Bounded) :
    Ensures (s.step t) State.Bounded := by
  cases t with
  | atom a => exact ensures_ok (h.cons trivial)
  | flags d => exact ensures_ok (h.cons trivial)
  | opening kind => exact h.opened kind
  | closing => exact h.closed
  | bar => exact ensures_ok h.separated
  | repetition min max greedy => exact h.repeated ht greedy

theorem Bounded.run (h : s.Bounded) {tokens : List Token} (htokens : ∀ t ∈ tokens, t.Bounded) :
    Ensures (tokens.foldlM State.step s) State.Bounded := by
  induction tokens generalizing s with
  | nil => exact ensures_ok h
  | cons t ts ih =>
    rw [List.forall_mem_cons] at htokens
    rw [List.foldlM_cons]
    exact ensures_bind (h.step htokens.1) fun _ h => ih h htokens.2

end State

theorem bounded_ofTokens {tokens : List Token} (htokens : ∀ t ∈ tokens, t.Bounded) :
    Ensures (ofTokens tokens) Bounded := by
  have hempty : ({} : State).Bounded := ⟨List.forall_mem_nil _, List.forall_mem_nil _⟩
  refine ensures_bind (hempty.run htokens) fun s hs => ?_
  have hbody := hs.body.1
  split
  · rename_i t heq
    rw [heq] at hbody
    split
    · exact ensures_ok hbody
    · exact ensures_error
  · exact ensures_error

end Tree

/-! ## Expressions -/

namespace Expr

theorem wellFormed_repeated {min : Nat} {max : Option Nat} (hbounds : Bounds min max)
    (greedy : Bool) {body : Expr} (hbody : body.WellFormed) :
    (repeated min max greedy body).WellFormed := by
  have hof {min' : Nat} {max' : Option Nat} (hbounds' : Bounds min' max') :
      (if min' == 0 && max' == some 0 then Expr.empty
        else if min' == 1 && max' == some 1 then body
        else .repetition min' max' greedy body).WellFormed := by
    split
    · trivial
    · split
      · exact hbody
      · exact ⟨hbounds', hbody⟩
  cases hempty : maxLength? body == some 0 with
  | true =>
    simp only [repeated, hempty, if_true]
    refine hof fun m hm => ?_
    cases max with
    | none =>
      cases hm
      exact Nat.min_le_right min 1
    | some n =>
      cases hm
      have hmin := hbounds n rfl
      simp only [Option.map_some, Option.getD_some]
      exact Nat.le_min.2 ⟨Nat.le_trans (Nat.min_le_left _ _) hmin, Nat.min_le_right _ _⟩
  | false =>
    simp only [repeated, hempty, Bool.false_eq_true, if_false]
    exact hof hbounds

theorem wellFormed_ofByteSet (s : Text.Ranges) : (ofByteSet s).WellFormed := by
  unfold ofByteSet
  split
  · split <;> trivial
  · trivial

theorem wellFormed_ofCharSet (s : Text.Ranges) : (ofCharSet s).WellFormed := by
  unfold ofCharSet
  split
  · trivial
  · split <;> trivial
  · trivial

theorem wellFormed_of_asSet? {branches : List Expr} {e : Expr} (h : asSet? branches = some e) :
    e.WellFormed := by
  unfold asSet? at h
  split at h
  · cases h
    exact wellFormed_ofCharSet _
  · split at h
    · cases h
      exact wellFormed_ofByteSet _
    · split at h
      · cases h
        exact wellFormed_ofCharSet _
      · obtain ⟨sets, -, rfl⟩ := Option.map_eq_some_iff.1 h
        exact wellFormed_ofByteSet _

theorem wellFormed_of_mem_branchesOf {branches : List Expr}
    (hbranches : ∀ e ∈ branches, e.WellFormed) :
    ∀ e ∈ branches.flatMap branchesOf, e.WellFormed := by
  intro e he
  obtain ⟨branch, hbranch, he⟩ := List.mem_flatMap.1 he
  have hwf := hbranches branch hbranch
  unfold branchesOf at he
  split at he
  · exact allWellFormed_iff.1 hwf e he
  · rw [List.mem_singleton.1 he]
    exact hwf

/-- The items of branches that are all sequences. -/
theorem wellFormed_of_mem_items? {branches : List Expr} {sequences : List (List Expr)}
    (hbranches : ∀ e ∈ branches, e.WellFormed) (h : branches.mapM items? = some sequences) :
    ∀ items ∈ sequences, ∀ e ∈ items, e.WellFormed := by
  induction branches generalizing sequences with
  | nil =>
    rw [List.mapM_nil] at h
    cases h
    exact List.forall_mem_nil _
  | cons e es ih =>
    rw [List.forall_mem_cons] at hbranches
    rw [List.mapM_cons, Option.bind_eq_bind, Option.bind_eq_some_iff] at h
    obtain ⟨items, hitems, h⟩ := h
    rw [Option.bind_eq_bind, Option.bind_eq_some_iff] at h
    obtain ⟨rest, hrest, h⟩ := h
    cases h
    refine List.forall_mem_cons.2 ⟨?_, ih hbranches.2 hrest⟩
    unfold items? at hitems
    split at hitems
    · cases hitems
      exact allWellFormed_iff.1 hbranches.1
    · cases hitems

theorem wellFormed_oneOfFuel (fuel : Nat) {branches : List Expr}
    (hbranches : ∀ e ∈ branches, e.WellFormed) : (oneOfFuel fuel branches).WellFormed := by
  induction fuel generalizing branches with
  | zero =>
    have hflat := wellFormed_of_mem_branchesOf hbranches
    unfold oneOfFuel
    split
    · trivial
    · rename_i heq
      rw [heq] at hflat
      exact hflat _ List.mem_cons_self
    · split
      · rename_i heq
        exact wellFormed_of_asSet? heq
      · exact allWellFormed_iff.2 hflat
  | succ fuel ih =>
    have hflat := wellFormed_of_mem_branchesOf hbranches
    unfold oneOfFuel
    split
    · trivial
    · rename_i heq
      rw [heq] at hflat
      exact hflat _ List.mem_cons_self
    · split
      · rename_i heq
        exact wellFormed_of_asSet? heq
      · split
        · -- what all branches begin with, and the branches without it
          rename_i fuel' first rest hfuel hitems
          obtain rfl := Nat.succ.inj hfuel
          have hsequences := wellFormed_of_mem_items? hflat hitems
          split
          · exact allWellFormed_iff.2 hflat
          · rename_i n _ _
            refine wellFormed_inSequence fun e he => ?_
            rcases List.mem_append.1 he with he | he
            · exact hsequences first List.mem_cons_self e (List.mem_of_mem_take he)
            · rw [List.mem_singleton.1 he]
              refine ih fun branch hbranch => ?_
              obtain ⟨items, hmem, rfl⟩ := List.mem_map.1 hbranch
              exact wellFormed_inSequence fun e he =>
                hsequences items hmem e (List.mem_of_mem_drop he)
        · exact allWellFormed_iff.2 hflat

theorem wellFormed_oneOf {branches : List Expr} (hbranches : ∀ e ∈ branches, e.WellFormed) :
    (oneOf branches).WellFormed :=
  wellFormed_oneOfFuel _ hbranches

end Expr

/-! ## Meanings -/

namespace Meaning

theorem wellFormed_setExpr (f : Flags) (s : Text.Ranges) : (setExpr f s).WellFormed := by
  unfold setExpr
  split
  · exact Expr.wellFormed_ofCharSet s
  · exact Expr.wellFormed_ofByteSet s

theorem wellFormed_literal (f : Flags) (l : Literal) : (literal f l).WellFormed := by
  have hcharacter (c : Char) :
      (if f.caseInsensitive && hasCase f c then setExpr f (fold f (Text.Ranges.single c.toNat))
        else .literal (Bytes.ofChar c)).WellFormed := by
    split
    · exact wellFormed_setExpr f _
    · trivial
  unfold literal
  cases l with
  | char c => exact hcharacter c
  | code b =>
    simp only
    split
    · exact hcharacter _
    · trivial

theorem wellFormed_atom (f : Flags) (a : Atom) : Ensures (atom f a) Expr.WellFormed := by
  cases a with
  | literal l => exact ensures_ok (wellFormed_literal f l)
  | dot => exact ensures_ok (wellFormed_setExpr f _)
  | anchor a => exact ensures_ok trivial
  | letter c negated => exact ensures_ok (wellFormed_setExpr f _)
  | property q negated => exact ensures_map (ensures_any _) fun s _ => wellFormed_setExpr f s
  | bracketed negated set =>
    exact ensures_bind (ensures_any _) fun s _ => ensures_ok (wellFormed_setExpr f _)

end Meaning

namespace Tree

mutual

/-- A tree whose bounds are in order stands for a well-formed expression. -/
theorem wellFormed_meaning : ∀ (t : Tree) (f : Flags), t.Bounded →
    Ensures (meaning f t) (·.1.WellFormed)
  | .empty, _, _ => ensures_ok trivial
  | .atom a, f, _ => ensures_map (Meaning.wellFormed_atom f a) fun _ he => he
  | .flags _, _, _ => ensures_ok trivial
  | .repetition _ _ _ body, f, h =>
    ensures_bind (wellFormed_meaning body f h.2) fun _ he =>
      ensures_ok (Expr.wellFormed_repeated h.1 _ he)
  | .group (.capture _) body, f, h =>
    ensures_bind (wellFormed_meaning body f h) fun _ he => ensures_ok he
  | .group (.flagged _) body, _, h =>
    ensures_bind (wellFormed_meaning body _ h) fun _ he => ensures_ok he
  | .sequence items, f, h =>
    ensures_bind (wellFormed_meanings items f h) fun _ he =>
      ensures_ok (Expr.wellFormed_inSequence he)
  | .alternatives branches, f, h =>
    ensures_bind (wellFormed_meanings branches f h) fun _ he =>
      ensures_ok (Expr.wellFormed_oneOf he)

theorem wellFormed_meanings : ∀ (ts : List Tree) (f : Flags), AllBounded ts →
    Ensures (meanings f ts) (∀ e ∈ ·.1, e.WellFormed)
  | [], _, _ => ensures_ok (List.forall_mem_nil _)
  | t :: ts, f, h =>
    ensures_bind (wellFormed_meaning t f h.1) fun _ he =>
      ensures_bind (wellFormed_meanings ts _ h.2) fun _ hes =>
        ensures_ok (List.forall_mem_cons.2 ⟨he, hes⟩)

end

end Tree

/-- **Source texts.** The expression of a source text is well-formed. -/
theorem Expr.wellFormed_of_ofSource {source : List Char} {e : Expr}
    (h : Expr.ofSource source = .ok e) : e.WellFormed := by
  have hall : Ensures (Expr.ofSource source) Expr.WellFormed := by
    refine ensures_bind (Lexer.bounded_tokens source) fun tokens htokens => ?_
    refine ensures_bind (Tree.bounded_ofTokens htokens) fun tree htree => ?_
    refine ensures_bind (Tree.wellFormed_meaning tree {} htree) fun (e, _) he => ?_
    dsimp only
    split
    · exact ensures_bind (P := fun _ => False) ensures_error fun _ hfalse => hfalse.elim
    · exact ensures_ok he
  exact hall e h

end ByteSearch.Regex
