import ByteSearch.Proofs.PercentEncoding

/-!
# Where escapes begin

An escape begins at a place of a byte string if a percent sign stands there and two hexadecimal
digits behind it (`EscapeAt`). All these places count: a digit is no percent sign, and so no two
escapes overlap (`EscapeAt.not_succ`), and whoever reads from the left meets each of them, however
many percent signs without digits stand in front of it.

Hence one number says how much shorter the decoded bytes are, and only an escape that is cut in two
is not found by whoever decodes both parts alone (`Straddles`).

Main statement: `percentDecode_escapes`.
-/

namespace ByteSearch.Cli

/-! ## Places -/

/-- The ASCII digits of hexadecimal numbers, of either case. -/
def isHexDigit (b : UInt8) : Bool :=
  (Bytes.ofString "0123456789ABCDEFabcdef").contains b

/-- A percent sign stands at a place, and two digits behind it. -/
def EscapeAt (s : Bytes) (i : Nat) : Prop :=
  s[i]? = some percent ∧ s[i + 1]?.any isHexDigit = true ∧ s[i + 2]?.any isHexDigit = true

instance (s : Bytes) (i : Nat) : Decidable (EscapeAt s i) :=
  inferInstanceAs (Decidable (_ ∧ _ ∧ _))

/-- The number of places at which an escape begins. -/
def escapeCount (s : Bytes) : Nat :=
  (List.range s.length).countP fun i => decide (EscapeAt s i)

/-- An escape begins in the front and ends behind it. -/
def Straddles (front back : Bytes) : Prop :=
  ∃ i, EscapeAt (front ++ back) i ∧ i < front.length ∧ front.length < i + 3

theorem isSome_hexValue? (b : UInt8) : (Bytes.hexValue? b).isSome = isHexDigit b := by
  have hall : ∀ n : Fin 256,
      (Bytes.hexValue? (UInt8.ofNat n)).isSome = isHexDigit (UInt8.ofNat n) := by
    decide +kernel
  have hb := hall ⟨b.toNat, b.toNat_lt⟩
  rwa [UInt8.ofNat_toNat] at hb

theorem escapeAt_cons_succ {b : UInt8} {s : Bytes} {i : Nat} :
    EscapeAt (b :: s) (i + 1) ↔ EscapeAt s i := by
  simp only [EscapeAt, Nat.add_right_comm i 1, List.getElem?_cons_succ]

theorem EscapeAt.lt {s : Bytes} {i : Nat} (h : EscapeAt s i) : i + 2 < s.length := by
  obtain ⟨b, hb, -⟩ := (Option.any_eq_true _ _).1 h.2.2
  exact (List.getElem?_eq_some_iff.1 hb).1

theorem ne_percent_of_any_isHexDigit {b : Option UInt8} (h : b.any isHexDigit = true) :
    b ≠ some percent := by
  rintro rfl
  exact absurd h (by decide)

/-- A digit is no percent sign. -/
theorem EscapeAt.not_succ {s : Bytes} {i : Nat} (h : EscapeAt s i) :
    ¬EscapeAt s (i + 1) ∧ ¬EscapeAt s (i + 2) :=
  ⟨fun hnext => ne_percent_of_any_isHexDigit h.2.1 hnext.1,
    fun hnext => ne_percent_of_any_isHexDigit h.2.2 hnext.1⟩

/-- An escape is read where one begins. -/
theorem isSome_escaped?_iff {s : Bytes} : (escaped? s).isSome = true ↔ EscapeAt s 0 := by
  match s with
  | [] => simp [escaped?, EscapeAt]
  | [_] => simp [escaped?, EscapeAt]
  | [_, _] => simp [escaped?, EscapeAt]
  | sign :: high :: low :: rest =>
    simp only [EscapeAt, escaped?, List.getElem?_cons_zero, Nat.zero_add, List.getElem?_cons_succ,
      Option.some.injEq, Option.any_some, ← isSome_hexValue?]
    by_cases hsign : sign = percent
    · cases Bytes.hexValue? high <;> cases Bytes.hexValue? low <;> simp [hsign]
    · simp [hsign]

theorem escaped?_eq_none_iff {s : Bytes} : escaped? s = none ↔ ¬EscapeAt s 0 := by
  rw [← isSome_escaped?_iff, Option.not_isSome_iff_eq_none]

/-! ## Counting -/

theorem escapeCount_cons (b : UInt8) (s : Bytes) :
    escapeCount (b :: s) = (if EscapeAt (b :: s) 0 then 1 else 0) + escapeCount s := by
  simp only [escapeCount, List.length_cons, List.range_succ_eq_map, List.countP_cons,
    List.countP_map, Function.comp_def, Nat.succ_eq_add_one, escapeAt_cons_succ, decide_eq_true_eq]
  exact Nat.add_comm _ _

theorem escapeCount_cons_of_not {b : UInt8} {s : Bytes} (h : ¬EscapeAt (b :: s) 0) :
    escapeCount (b :: s) = escapeCount s := by
  rw [escapeCount_cons, if_neg h, Nat.zero_add]

/-- The bytes of an escape count once. -/
theorem escapeCount_escape {sign high low : UInt8} {rest : Bytes}
    (h : EscapeAt (sign :: high :: low :: rest) 0) :
    escapeCount (sign :: high :: low :: rest) = 1 + escapeCount rest := by
  have hhigh : ¬EscapeAt (high :: low :: rest) 0 := fun hnext =>
    h.not_succ.1 (escapeAt_cons_succ.2 hnext)
  have hlow : ¬EscapeAt (low :: rest) 0 := fun hnext =>
    h.not_succ.2 (escapeAt_cons_succ.2 (escapeAt_cons_succ.2 hnext))
  rw [escapeCount_cons, if_pos h, escapeCount_cons_of_not hhigh, escapeCount_cons_of_not hlow]

theorem escapeCount_eq_zero_iff {s : Bytes} : escapeCount s = 0 ↔ ∀ i, ¬EscapeAt s i := by
  rw [escapeCount, List.countP_eq_zero]
  constructor
  · intro hnone i hi
    have hlt := hi.lt
    exact hnone i (List.mem_range.2 (by omega)) (decide_eq_true hi)
  · intro hnone i _ hi
    exact hnone i (of_decide_eq_true hi)

/-- What stands behind an escape does not matter to it. -/
theorem EscapeAt.append {s : Bytes} {i : Nat} (h : EscapeAt s i) (rest : Bytes) :
    EscapeAt (s ++ rest) i := by
  have hlt := h.lt
  rw [EscapeAt, List.getElem?_append_left (by omega), List.getElem?_append_left (by omega),
    List.getElem?_append_left hlt]
  exact h

theorem EscapeAt.of_append {s rest : Bytes} {i : Nat} (h : EscapeAt (s ++ rest) i)
    (hlt : i + 2 < s.length) : EscapeAt s i := by
  rwa [EscapeAt, List.getElem?_append_left (by omega), List.getElem?_append_left (by omega),
    List.getElem?_append_left hlt] at h

theorem first_le_append (b : UInt8) (front back : Bytes) :
    (if EscapeAt (b :: front) 0 then 1 else 0) ≤
      if EscapeAt (b :: (front ++ back)) 0 then 1 else 0 := by
  by_cases hescape : EscapeAt (b :: front) 0
  · have happend : EscapeAt (b :: (front ++ back)) 0 := hescape.append back
    simp only [if_pos hescape, if_pos happend, Nat.le_refl]
  · rw [if_neg hescape]
    exact Nat.zero_le _

theorem le_escapeCount_append (front back : Bytes) :
    escapeCount front + escapeCount back ≤ escapeCount (front ++ back) := by
  induction front with
  | nil => simp [escapeCount]
  | cons b front ih =>
    have hfirst := first_le_append b front back
    rw [List.cons_append, escapeCount_cons, escapeCount_cons, Nat.add_assoc]
    exact Nat.add_le_add hfirst ih

/-- An escape that is cut in two counts in neither part. -/
theorem lt_escapeCount_append {front back : Bytes} (h : Straddles front back) :
    escapeCount front + escapeCount back < escapeCount (front ++ back) := by
  obtain ⟨i, hescape, hlt, hend⟩ := h
  induction front generalizing i with
  | nil => cases hlt
  | cons b front ih =>
    rw [List.length_cons] at hlt hend
    rw [List.cons_append] at hescape ⊢
    rw [escapeCount_cons, escapeCount_cons]
    cases i with
    | zero =>
      have hcut : ¬EscapeAt (b :: front) 0 := by
        intro hwhole
        have := hwhole.lt
        rw [List.length_cons] at this
        omega
      have := le_escapeCount_append front back
      rw [if_pos hescape, if_neg hcut]
      omega
    | succ i =>
      have hrest := ih i (escapeAt_cons_succ.1 hescape) (by omega) (by omega)
      have hfirst := first_le_append b front back
      rw [Nat.add_assoc]
      exact Nat.add_lt_add_of_le_of_lt hfirst hrest

/-! ## Decoding -/

/-- Induction on a byte string as it is decoded. -/
@[elab_as_elim]
theorem percentDecode_induction {P : Bytes → Prop} (nil : P [])
    (escape : ∀ sign high low rest decoded, escaped? (sign :: high :: low :: rest) = some decoded →
      P rest → P (sign :: high :: low :: rest))
    (other : ∀ b rest, escaped? (b :: rest) = none → P rest → P (b :: rest)) (s : Bytes) : P s := by
  fun_induction percentDecode s with
  | case1 => exact nil
  | case2 b rest decoded hsome ih =>
    match rest with
    | [] => cases hsome
    | [_] => cases hsome
    | high :: low :: rest => exact escape b high low rest decoded hsome ih
  | case3 b rest hnone ih => exact other b rest hnone ih

theorem escapeAt_of_escaped? {s : Bytes} {b : UInt8} (h : escaped? s = some b) : EscapeAt s 0 := by
  rw [← isSome_escaped?_iff, h]
  rfl

/-- An escape is decoded to one byte, two less than were read. -/
theorem length_percentDecode (s : Bytes) :
    (percentDecode s).length + 2 * escapeCount s = s.length := by
  induction s using percentDecode_induction with
  | nil => rw [percentDecode_nil]; rfl
  | escape sign high low rest decoded hsome ih =>
    rw [percentDecode_of_escaped? hsome, escapeCount_escape (escapeAt_of_escaped? hsome)]
    simp only [List.length_cons]
    omega
  | other b rest hnone ih =>
    rw [percentDecode_of_escaped?_eq_none hnone,
      escapeCount_cons_of_not (escaped?_eq_none_iff.1 hnone), List.length_cons, List.length_cons]
    omega

theorem percentDecode_of_not_escapeAt {s : Bytes} (h : ∀ i, ¬EscapeAt s i) :
    percentDecode s = s := by
  induction s with
  | nil => exact percentDecode_nil
  | cons b rest ih =>
    have hrest : ∀ i, ¬EscapeAt rest i := fun i hi => h (i + 1) (escapeAt_cons_succ.2 hi)
    rw [percentDecode_of_escaped?_eq_none (escaped?_eq_none_iff.2 (h 0)), ih hrest]

/-- A byte in front moves the places, and the cut with them. -/
theorem Straddles.cons {front back : Bytes} (h : Straddles front back) (b : UInt8) :
    Straddles (b :: front) back := by
  obtain ⟨i, hescape, hlt, hend⟩ := h
  refine ⟨i + 1, escapeAt_cons_succ.2 hescape, ?_, ?_⟩
  · rw [List.length_cons]
    omega
  · rw [List.length_cons]
    omega

/-- If no escape is cut in two, each part is decoded as if it stood alone. -/
theorem percentDecode_append {front back : Bytes} (h : ¬Straddles front back) :
    percentDecode (front ++ back) = percentDecode front ++ percentDecode back := by
  induction front using percentDecode_induction with
  | nil => rw [percentDecode_nil]; rfl
  | escape sign high low rest decoded hsome ih =>
    have hrest : ¬Straddles rest back := fun hcut => h (((hcut.cons low).cons high).cons sign)
    have happend : escaped? (sign :: high :: low :: (rest ++ back)) = some decoded := hsome
    rw [percentDecode_of_escaped? hsome]
    show percentDecode (sign :: high :: low :: (rest ++ back)) =
      decoded :: (percentDecode rest ++ percentDecode back)
    rw [← ih hrest]
    exact percentDecode_of_escaped? happend
  | other b rest hnone ih =>
    have hrest : ¬Straddles rest back := fun hcut => h (hcut.cons b)
    have happend : escaped? (b :: (rest ++ back)) = none := by
      rw [escaped?_eq_none_iff] at hnone ⊢
      intro hescape
      have hwhole : EscapeAt ((b :: rest) ++ back) 0 := hescape
      -- an escape that is not cut in two ends in the front, where none begins
      by_cases hlt : 0 + 2 < (b :: rest).length
      · exact hnone (hwhole.of_append hlt)
      · exact h ⟨0, hwhole, Nat.succ_pos _, by omega⟩
    rw [percentDecode_of_escaped?_eq_none hnone, List.cons_append, List.cons_append, ← ih hrest]
    exact percentDecode_of_escaped?_eq_none happend

/-- **Where escapes begin.** Every place at which an escape begins takes two bytes off the length of
what is decoded. So a byte string is decoded to itself exactly if no escape begins anywhere, and two
byte strings can be decoded apart exactly if no escape is cut in two. -/
theorem percentDecode_escapes (s front back : Bytes) :
    (percentDecode s).length + 2 * escapeCount s = s.length ∧
      (percentDecode s = s ↔ ∀ i, ¬EscapeAt s i) ∧
      (percentDecode (front ++ back) = percentDecode front ++ percentDecode back ↔
        ¬Straddles front back) := by
  have hlength := length_percentDecode s
  refine ⟨hlength, ⟨fun hself => ?_, percentDecode_of_not_escapeAt⟩,
    fun happend hcut => ?_, percentDecode_append⟩
  · rw [hself] at hlength
    exact escapeCount_eq_zero_iff.1 (by omega)
  · -- the escape that is cut counts only in the whole, which is therefore decoded to fewer bytes
    have hwhole := length_percentDecode (front ++ back)
    rw [happend, List.length_append, List.length_append] at hwhole
    have hfront := length_percentDecode front
    have hback := length_percentDecode back
    have hcount := lt_escapeCount_append hcut
    omega

/-- Percent signs without digits stand in front of an escape, before digits, and at the end. -/
example : percentDecode (Bytes.ofString "%%41%4%41%4") = Bytes.ofString "%A%4A%4" := by cbv

end ByteSearch.Cli
