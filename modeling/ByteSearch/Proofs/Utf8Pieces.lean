import ByteSearch.Text.Utf8
import Mathlib.Data.List.Basic

/-!
# Pieces of a byte string

`pieces` cuts a byte string without losing anything (`flatMap_bytes_pieces`), and the character at
the front of a text is the first piece (`pieces_ofChar_append`). Both rest on the leading bytes:
`Lead.Accepts` says which sequences may follow a leading byte. Such a sequence encodes the character
that is read from it (`ofChar_scalar`), and every character beyond ASCII has such an encoding
(`exists_lead`). So the encoding of a text is read back (`decode?_ofChars`), and what is read as a
text is its encoding (`eq_ofChars_of_decode?`).
-/

namespace ByteSearch.Utf8

/-! ## Leading bytes -/

/-- The rows of the table of well-formed sequences, by the number of the leading byte. -/
theorem lead?_eq (b : UInt8) :
    lead? b =
      if 0xC2 ≤ b.toNat ∧ b.toNat ≤ 0xDF then some ⟨1, 0x80, 0xBF⟩
      else if b.toNat = 0xE0 then some ⟨2, 0xA0, 0xBF⟩
      else if b.toNat = 0xED then some ⟨2, 0x80, 0x9F⟩
      else if 0xE1 ≤ b.toNat ∧ b.toNat ≤ 0xEF then some ⟨2, 0x80, 0xBF⟩
      else if b.toNat = 0xF0 then some ⟨3, 0x90, 0xBF⟩
      else if 0xF1 ≤ b.toNat ∧ b.toNat ≤ 0xF3 then some ⟨3, 0x80, 0xBF⟩
      else if b.toNat = 0xF4 then some ⟨3, 0x80, 0x8F⟩
      else none := by
  simp only [lead?, UInt8.le_iff_toNat_le, ← UInt8.toNat_inj, UInt8.reduceToNat]

/-- The rows by the number of bytes that follow. The least and the greatest leading byte of a length
have narrower bounds, and so has the one that leaves out the surrogates. -/
theorem bounds_of_lead? {b : UInt8} {l : Lead} (hl : lead? b = some l) :
    (0x80 ≤ l.low.toNat ∧ l.high.toNat ≤ 0xBF) ∧
      ((l.continuations = 1 ∧ 0xC2 ≤ b.toNat ∧ b.toNat ≤ 0xDF) ∨
        (l.continuations = 2 ∧ (0xE0 ≤ b.toNat ∧ b.toNat ≤ 0xEF) ∧
          (b.toNat = 0xE0 → 0xA0 ≤ l.low.toNat) ∧ (b.toNat = 0xED → l.high.toNat ≤ 0x9F)) ∨
        (l.continuations = 3 ∧ (0xF0 ≤ b.toNat ∧ b.toNat ≤ 0xF4) ∧
          (b.toNat = 0xF0 → 0x90 ≤ l.low.toNat) ∧ (b.toNat = 0xF4 → l.high.toNat ≤ 0x8F))) := by
  rw [lead?_eq] at hl
  split_ifs at hl <;> cases hl <;> simp only [UInt8.reduceToNat, true_and] <;> omega

/-- The sequences that may follow a leading byte. -/
def Lead.Accepts (l : Lead) : Bytes → Prop
  | [] => l.continuations = 0
  | t :: rest =>
    l.continuations = rest.length + 1 ∧ (l.low ≤ t ∧ t ≤ l.high) ∧
      ∀ u ∈ rest, 0x80 ≤ u ∧ u ≤ 0xBF

theorem Lead.Accepts.length_eq {l : Lead} {tail : Bytes} (h : l.Accepts tail) :
    tail.length = l.continuations := by
  cases tail with
  | nil => exact h.symm
  | cons t rest => exact h.1.symm

theorem continuations_append (n : Nat) (low high : UInt8) (s : Bytes) :
    continuations n low high s ++ s.drop (continuations n low high s).length = s := by
  induction s generalizing n low high with
  | nil => cases n <;> rfl
  | cons b rest ih =>
    cases n with
    | zero => simp [continuations]
    | succ n =>
      rw [continuations]
      split
      · rw [List.length_cons, List.drop_succ_cons, List.cons_append, ih]
      · rfl

theorem forall_mem_continuations {n : Nat} {s : Bytes} :
    ∀ u ∈ continuations n 0x80 0xBF s, 0x80 ≤ u ∧ u ≤ 0xBF := by
  induction s generalizing n with
  | nil => simp [continuations]
  | cons b rest ih =>
    cases n with
    | zero => simp [continuations]
    | succ n =>
      intro u hu
      rw [continuations] at hu
      split at hu
      · rename_i hb
        rcases List.mem_cons.1 hu with rfl | hu
        · exact hb
        · exact ih u hu
      · cases hu

theorem continuations_of_forall {tail : Bytes} (h : ∀ u ∈ tail, 0x80 ≤ u ∧ u ≤ 0xBF)
    (rest : Bytes) : continuations tail.length 0x80 0xBF (tail ++ rest) = tail := by
  induction tail with
  | nil => cases rest <;> rfl
  | cons t tail ih =>
    rw [List.length_cons, List.cons_append, continuations, if_pos (h t List.mem_cons_self),
      ih fun u hu => h u (List.mem_cons_of_mem _ hu)]

/-- What is read behind a leading byte is accepted if it is long enough. -/
theorem Lead.accepts_continuations {l : Lead} {s : Bytes}
    (h : (Utf8.continuations l.continuations l.low l.high s).length = l.continuations) :
    l.Accepts (Utf8.continuations l.continuations l.low l.high s) := by
  obtain ⟨n, low, high⟩ := l
  cases n with
  | zero => cases s <;> rfl
  | succ n =>
    cases s with
    | nil => simp [Utf8.continuations] at h
    | cons b rest =>
      simp only [Utf8.continuations] at h ⊢
      split
      · rename_i hb
        rw [if_pos hb] at h
        exact ⟨by simpa using h.symm, hb, forall_mem_continuations⟩
      · rename_i hb
        simp [if_neg hb] at h

/-- What a leading byte accepts is read behind it, and nothing else. -/
theorem Lead.Accepts.continuations_eq {l : Lead} {tail : Bytes} (h : l.Accepts tail)
    (rest : Bytes) : Utf8.continuations l.continuations l.low l.high (tail ++ rest) = tail := by
  obtain ⟨n, low, high⟩ := l
  cases tail with
  | nil =>
    obtain rfl : n = 0 := h
    cases rest <;> rfl
  | cons t tail =>
    obtain ⟨hn, ht, htail⟩ := h
    obtain rfl : n = tail.length + 1 := hn
    rw [List.cons_append, Utf8.continuations, if_pos ht, continuations_of_forall htail]

/-! ## Characters -/

theorem toNat_charOfNat {n : Nat} (h : n < 0xD800 ∨ 0xDFFF < n ∧ n < 0x110000) :
    (Char.ofNat n).val.toNat = n := by
  have hv : n.isValidChar := h
  rw [Char.ofNat, dif_pos hv]
  rfl

theorem ofNat_eq {n : Nat} {b : UInt8} (h : n = b.toNat) : UInt8.ofNat n = b := by
  rw [h, UInt8.ofNat_toNat]

theorem ofChar_ascii {b : UInt8} (hb : b < 0x80) : Bytes.ofChar (Char.ofNat b.toNat) = [b] := by
  simp only [UInt8.lt_iff_toNat_lt, UInt8.reduceToNat] at hb
  simp only [Bytes.ofChar, String.utf8EncodeChar, toNat_charOfNat (n := b.toNat) (by omega)]
  rw [if_pos (by omega), UInt8.ofNat_toNat]

theorem ofChar_scalar_two {b t : UInt8} (hb : 0xC2 ≤ b.toNat ∧ b.toNat ≤ 0xDF)
    (ht : 0x80 ≤ t.toNat ∧ t.toNat ≤ 0xBF) : Bytes.ofChar (scalar b [t]) = [b, t] := by
  have hval : (scalar b [t]).val.toNat = b.toNat % 32 * 64 + t.toNat % 64 := by
    simp only [scalar, List.length_cons, List.length_nil, List.foldl_cons, List.foldl_nil]
    exact toNat_charOfNat (by omega)
  simp only [Bytes.ofChar, String.utf8EncodeChar, hval]
  rw [if_neg (by omega), if_pos (by omega), ofNat_eq (b := b) (by omega),
    ofNat_eq (b := t) (by omega)]

theorem ofChar_scalar_three {b t u : UInt8} (hb : 0xE0 ≤ b.toNat ∧ b.toNat ≤ 0xEF)
    (ht : 0x80 ≤ t.toNat ∧ t.toNat ≤ 0xBF) (hu : 0x80 ≤ u.toNat ∧ u.toNat ≤ 0xBF)
    (hlow : b.toNat = 0xE0 → 0xA0 ≤ t.toNat) (hhigh : b.toNat = 0xED → t.toNat ≤ 0x9F) :
    Bytes.ofChar (scalar b [t, u]) = [b, t, u] := by
  have hval : (scalar b [t, u]).val.toNat
      = (b.toNat % 16 * 64 + t.toNat % 64) * 64 + u.toNat % 64 := by
    simp only [scalar, List.length_cons, List.length_nil, List.foldl_cons, List.foldl_nil]
    exact toNat_charOfNat (by omega)
  simp only [Bytes.ofChar, String.utf8EncodeChar, hval]
  rw [if_neg (by omega), if_neg (by omega), if_pos (by omega), ofNat_eq (b := b) (by omega),
    ofNat_eq (b := t) (by omega), ofNat_eq (b := u) (by omega)]

theorem ofChar_scalar_four {b t u v : UInt8} (hb : 0xF0 ≤ b.toNat ∧ b.toNat ≤ 0xF4)
    (ht : 0x80 ≤ t.toNat ∧ t.toNat ≤ 0xBF) (hu : 0x80 ≤ u.toNat ∧ u.toNat ≤ 0xBF)
    (hv : 0x80 ≤ v.toNat ∧ v.toNat ≤ 0xBF)
    (hlow : b.toNat = 0xF0 → 0x90 ≤ t.toNat) (hhigh : b.toNat = 0xF4 → t.toNat ≤ 0x8F) :
    Bytes.ofChar (scalar b [t, u, v]) = [b, t, u, v] := by
  have hval : (scalar b [t, u, v]).val.toNat
      = ((b.toNat % 8 * 64 + t.toNat % 64) * 64 + u.toNat % 64) * 64 + v.toNat % 64 := by
    simp only [scalar, List.length_cons, List.length_nil, List.foldl_cons, List.foldl_nil]
    exact toNat_charOfNat (by omega)
  simp only [Bytes.ofChar, String.utf8EncodeChar, hval]
  rw [if_neg (by omega), if_neg (by omega), if_neg (by omega), ofNat_eq (b := b) (by omega),
    ofNat_eq (b := t) (by omega), ofNat_eq (b := u) (by omega), ofNat_eq (b := v) (by omega)]

/-- A leading byte and its continuation bytes encode the character that is read from them. -/
theorem ofChar_scalar {b : UInt8} {l : Lead} {tail : Bytes} (hl : lead? b = some l)
    (htail : l.Accepts tail) : Bytes.ofChar (scalar b tail) = b :: tail := by
  obtain ⟨hbounds, hrow⟩ := bounds_of_lead? hl
  have hlength := htail.length_eq
  match tail, htail with
  | [], _ =>
    rw [List.length_nil] at hlength
    omega
  | [t], ⟨_, ht, _⟩ =>
    simp only [UInt8.le_iff_toNat_le] at ht
    rcases hrow with ⟨-, hb⟩ | ⟨hn, -⟩ | ⟨hn, -⟩
    · exact ofChar_scalar_two hb (by omega)
    · exact absurd (hlength.trans hn) (by simp)
    · exact absurd (hlength.trans hn) (by simp)
  | [t, u], ⟨_, ht, hrest⟩ =>
    have hu := hrest u (by simp)
    simp only [UInt8.le_iff_toNat_le] at ht hu
    rcases hrow with ⟨hn, -⟩ | ⟨-, hb, hlow, hhigh⟩ | ⟨hn, -⟩
    · exact absurd (hlength.trans hn) (by simp)
    · exact ofChar_scalar_three hb (by omega) hu (by omega) (by omega)
    · exact absurd (hlength.trans hn) (by simp)
  | [t, u, v], ⟨_, ht, hrest⟩ =>
    have hu := hrest u (by simp)
    have hv := hrest v (by simp)
    simp only [UInt8.le_iff_toNat_le] at ht hu hv
    rcases hrow with ⟨hn, -⟩ | ⟨hn, -⟩ | ⟨-, hb, hlow, hhigh⟩
    · exact absurd (hlength.trans hn) (by simp)
    · exact absurd (hlength.trans hn) (by simp)
    · exact ofChar_scalar_four hb (by omega) hu hv (by omega) (by omega)
  | _ :: _ :: _ :: _ :: _, _ =>
    simp only [List.length_cons] at hlength
    omega

theorem ofChar_injective : Function.Injective Bytes.ofChar := by
  intro c d h
  have hc := ByteArray.utf8DecodeChar?_utf8EncodeChar_append (b := .empty) (c := c)
  have hd := ByteArray.utf8DecodeChar?_utf8EncodeChar_append (b := .empty) (c := d)
  simp only [Bytes.ofChar] at h
  rw [h, hd] at hc
  exact (Option.some.inj hc).symm

/-! ### Characters beyond ASCII -/

theorem accepts_one {b t : UInt8} (hb : 0xC2 ≤ b.toNat ∧ b.toNat ≤ 0xDF)
    (ht : 0x80 ≤ t.toNat ∧ t.toNat ≤ 0xBF) : ∃ l, lead? b = some l ∧ l.Accepts [t] := by
  rw [lead?_eq, if_pos hb]
  refine ⟨_, rfl, rfl, ?_, by simp⟩
  simpa only [UInt8.le_iff_toNat_le, UInt8.reduceToNat] using ht

theorem accepts_two {b t u : UInt8} (hb : 0xE0 ≤ b.toNat ∧ b.toNat ≤ 0xEF)
    (ht : 0x80 ≤ t.toNat ∧ t.toNat ≤ 0xBF) (hu : 0x80 ≤ u.toNat ∧ u.toNat ≤ 0xBF)
    (hlow : b.toNat = 0xE0 → 0xA0 ≤ t.toNat) (hhigh : b.toNat = 0xED → t.toNat ≤ 0x9F) :
    ∃ l, lead? b = some l ∧ l.Accepts [t, u] := by
  have hrest : ∀ w ∈ [u], (0x80 : UInt8) ≤ w ∧ w ≤ 0xBF := by
    simpa [UInt8.le_iff_toNat_le] using hu
  rw [lead?_eq, if_neg (by omega)]
  split_ifs <;> first | omega | refine ⟨_, rfl, rfl, ?_, hrest⟩
  all_goals
    simp only [UInt8.le_iff_toNat_le, UInt8.reduceToNat]
    omega

theorem accepts_three {b t u v : UInt8} (hb : 0xF0 ≤ b.toNat ∧ b.toNat ≤ 0xF4)
    (ht : 0x80 ≤ t.toNat ∧ t.toNat ≤ 0xBF) (hu : 0x80 ≤ u.toNat ∧ u.toNat ≤ 0xBF)
    (hv : 0x80 ≤ v.toNat ∧ v.toNat ≤ 0xBF)
    (hlow : b.toNat = 0xF0 → 0x90 ≤ t.toNat) (hhigh : b.toNat = 0xF4 → t.toNat ≤ 0x8F) :
    ∃ l, lead? b = some l ∧ l.Accepts [t, u, v] := by
  have hrest : ∀ w ∈ [u, v], (0x80 : UInt8) ≤ w ∧ w ≤ 0xBF := by
    simpa [UInt8.le_iff_toNat_le] using ⟨hu, hv⟩
  rw [lead?_eq, if_neg (by omega), if_neg (by omega), if_neg (by omega), if_neg (by omega)]
  split_ifs <;> first | omega | refine ⟨_, rfl, rfl, ?_, hrest⟩
  all_goals
    simp only [UInt8.le_iff_toNat_le, UInt8.reduceToNat]
    omega

/-- The encoding of a character beyond ASCII is a leading byte with bytes that it accepts. -/
theorem exists_lead {c : Char} (hc : 0x7F < c.val.toNat) :
    ∃ b l tail, lead? b = some l ∧ l.Accepts tail ∧ Bytes.ofChar c = b :: tail := by
  have hvalid : c.val.toNat < 0xD800 ∨ 0xDFFF < c.val.toNat ∧ c.val.toNat < 0x110000 := c.valid
  have hbyte (n : Nat) (hn : n < 256) : (UInt8.ofNat n).toNat = n := UInt8.toNat_ofNat_of_lt' hn
  simp only [Bytes.ofChar, String.utf8EncodeChar]
  generalize c.val.toNat = v at hc hvalid ⊢
  rw [if_neg (by omega)]
  by_cases h₂ : v ≤ 0x7FF
  · rw [if_pos h₂]
    obtain ⟨l, hl, ha⟩ := accepts_one (b := .ofNat (v / 64 % 0x20 + 0xC0))
      (t := .ofNat (v % 0x40 + 0x80)) (by rw [hbyte _ (by omega)]; omega)
      (by rw [hbyte _ (by omega)]; omega)
    exact ⟨_, l, _, hl, ha, rfl⟩
  · rw [if_neg h₂]
    by_cases h₃ : v ≤ 0xFFFF
    · rw [if_pos h₃]
      have hb := hbyte (v / 4096 % 0x10 + 0xE0) (by omega)
      have ht := hbyte (v / 64 % 0x40 + 0x80) (by omega)
      have hu := hbyte (v % 0x40 + 0x80) (by omega)
      obtain ⟨l, hl, ha⟩ := accepts_two (b := .ofNat (v / 4096 % 0x10 + 0xE0))
        (t := .ofNat (v / 64 % 0x40 + 0x80)) (u := .ofNat (v % 0x40 + 0x80))
        (by omega) (by omega) (by omega) (by omega) (by omega)
      exact ⟨_, l, _, hl, ha, rfl⟩
    · rw [if_neg h₃]
      have hb := hbyte (v / 262144 % 0x08 + 0xF0) (by omega)
      have ht := hbyte (v / 4096 % 0x40 + 0x80) (by omega)
      have hu := hbyte (v / 64 % 0x40 + 0x80) (by omega)
      have hv := hbyte (v % 0x40 + 0x80) (by omega)
      obtain ⟨l, hl, ha⟩ := accepts_three (b := .ofNat (v / 262144 % 0x08 + 0xF0))
        (t := .ofNat (v / 4096 % 0x40 + 0x80)) (u := .ofNat (v / 64 % 0x40 + 0x80))
        (v := .ofNat (v % 0x40 + 0x80))
        (by omega) (by omega) (by omega) (by omega) (by omega) (by omega)
      exact ⟨_, l, _, hl, ha, rfl⟩

theorem not_lt_of_lead? {b : UInt8} {l : Lead} (hl : lead? b = some l) : ¬ b < 0x80 := by
  have hrow := (bounds_of_lead? hl).2
  simp only [UInt8.lt_iff_toNat_lt, UInt8.reduceToNat]
  omega

/-- The first of the bytes that may follow a leading byte is not an ASCII byte either. -/
theorem le_low_of_lead? {b : UInt8} {l : Lead} (hl : lead? b = some l) : 0x80 ≤ l.low :=
  UInt8.le_iff_toNat_le.2 (bounds_of_lead? hl).1.1

theorem le_of_mem_continuations {b : UInt8} {l : Lead} (hl : lead? b = some l) {n : Nat}
    {s : Bytes} : ∀ u ∈ continuations n l.low l.high s, 0x80 ≤ u := by
  intro u hu
  cases s with
  | nil => cases n <;> cases hu
  | cons t rest =>
    cases n with
    | zero => cases hu
    | succ n =>
      rw [continuations] at hu
      split at hu
      · rename_i ht
        rcases List.mem_cons.1 hu with rfl | hu
        · exact UInt8.le_trans (le_low_of_lead? hl) ht.1
        · exact (forall_mem_continuations u hu).1
      · cases hu

/-- An ASCII byte is part of the encoding of its own character only. -/
theorem eq_of_mem_ofChar {c : Char} {b : UInt8} (hb : b ∈ Bytes.ofChar c) (hascii : b < 0x80) :
    c = Char.ofNat b.toNat := by
  by_cases hc : c.val.toNat ≤ 0x7F
  · rw [Bytes.ofChar, String.utf8EncodeChar, if_pos hc, List.mem_singleton] at hb
    rw [hb, UInt8.toNat_ofNat_of_lt' (Nat.lt_of_le_of_lt hc (by decide))]
    exact (Char.ofNat_toNat c).symm
  · obtain ⟨lead, l, tail, hl, ha, hbytes⟩ := exists_lead (c := c) (by omega)
    rw [hbytes, ← ha.continuations_eq []] at hb
    rcases List.mem_cons.1 hb with rfl | hb
    · exact absurd hascii (not_lt_of_lead? hl)
    · exact absurd hascii (UInt8.not_lt.2 (le_of_mem_continuations hl b hb))

/-! ## Pieces -/

/-- The bytes of a piece. -/
def Piece.bytes : Piece → Bytes
  | .char c => Bytes.ofChar c
  | .malformed bytes => bytes

/-- Cutting a byte string into pieces loses nothing. -/
theorem flatMap_bytes_pieces (s : Bytes) : (pieces s).flatMap Piece.bytes = s := by
  induction s using pieces.induct with
  | case1 => rw [pieces, List.flatMap_nil]
  | case2 b rest hb ih =>
    rw [pieces, if_pos hb, List.flatMap_cons, ih, Piece.bytes, ofChar_ascii hb,
      List.singleton_append]
  | case3 b rest hb hl ih =>
    rw [pieces, if_neg hb, hl]
    simp only [List.flatMap_cons, ih, Piece.bytes, List.singleton_append]
  | case4 b rest hb l hl tail ih =>
    have htail : tail ++ rest.drop tail.length = rest := continuations_append _ _ _ _
    rw [pieces, if_neg hb, hl]
    simp only [List.flatMap_cons]
    rw [ih]
    split
    · rename_i hlen
      rw [Piece.bytes, ofChar_scalar hl (Lead.accepts_continuations hlen), List.cons_append, htail]
    · rw [Piece.bytes, List.cons_append, htail]

/-- A malformed run has no ASCII byte. -/
theorem not_lt_of_mem_malformed {s bytes : Bytes} (h : .malformed bytes ∈ pieces s) {b : UInt8}
    (hb : b ∈ bytes) : ¬ b < 0x80 := by
  induction s using pieces.induct with
  | case1 =>
    rw [pieces] at h
    cases h
  | case2 c rest hc ih =>
    rw [pieces, if_pos hc, List.mem_cons] at h
    exact ih (h.resolve_left (by simp))
  | case3 c rest hc hl ih =>
    rw [pieces, if_neg hc, hl] at h
    rcases List.mem_cons.1 h with heq | h
    · cases heq
      rwa [List.mem_singleton.1 hb]
    · exact ih h
  | case4 c rest hc l hl tail ih =>
    rw [pieces, if_neg hc, hl] at h
    rcases List.mem_cons.1 h with heq | h
    · split at heq
      · cases heq
      · cases heq
        rcases List.mem_cons.1 hb with rfl | hb
        · exact hc
        · exact UInt8.not_lt.2 (le_of_mem_continuations hl b hb)
    · exact ih h

/-- The character at the front of a text is the first piece. -/
theorem pieces_ofChar_append (c : Char) (rest : Bytes) :
    pieces (Bytes.ofChar c ++ rest) = .char c :: pieces rest := by
  by_cases hc : c.val.toNat ≤ 0x7F
  · have hbyte : (UInt8.ofNat c.val.toNat).toNat = c.val.toNat :=
      UInt8.toNat_ofNat_of_lt' (Nat.lt_of_le_of_lt hc (by decide))
    have hb : UInt8.ofNat c.val.toNat < 0x80 := by
      simp only [UInt8.lt_iff_toNat_lt, UInt8.reduceToNat, hbyte]
      omega
    rw [Bytes.ofChar, String.utf8EncodeChar, if_pos hc, List.singleton_append, pieces, if_pos hb,
      hbyte]
    exact congrArg (Piece.char · :: pieces rest) (Char.ofNat_toNat c)
  · obtain ⟨b, l, tail, hl, ha, hbytes⟩ := exists_lead (c := c) (by omega)
    have hcont := ha.continuations_eq rest
    have hscalar : scalar b tail = c := ofChar_injective ((ofChar_scalar hl ha).trans hbytes.symm)
    rw [hbytes, List.cons_append, pieces, if_neg (not_lt_of_lead? hl), hl]
    simp only [hcont]
    rw [if_pos ha.length_eq, hscalar, List.drop_left]

/-! ## Text -/

theorem pieces_ofChars_append (cs : List Char) (rest : Bytes) :
    pieces (Bytes.ofChars cs ++ rest) = cs.map .char ++ pieces rest := by
  induction cs with
  | nil => rfl
  | cons c cs ih =>
    rw [Bytes.ofChars_cons, List.append_assoc, pieces_ofChar_append, ih]
    rfl

theorem pieces_ofChars (cs : List Char) : pieces (Bytes.ofChars cs) = cs.map .char := by
  have happend := pieces_ofChars_append cs []
  rw [List.append_nil] at happend
  rw [happend, pieces, List.append_nil]

/-- The character of a piece that is one. -/
def Piece.char? : Piece → Option Char
  | .char c => some c
  | .malformed _ => none

theorem decode?_eq (s : Bytes) :
    decode? s = ((pieces s).mapM Piece.char?).map String.ofList := rfl

theorem decode?_ofChars (cs : List Char) :
    decode? (Bytes.ofChars cs) = some (String.ofList cs) := by
  have hpure : List.mapM (pure ∘ id) cs = (pure (cs.map id) : Option _) := List.mapM_pure
  rw [List.map_id] at hpure
  rw [decode?_eq, pieces_ofChars, List.mapM_map]
  exact congrArg (Option.map String.ofList) hpure

theorem eq_map_char_of_mapM {ps : List Piece} {cs : List Char}
    (h : ps.mapM Piece.char? = some cs) : ps = cs.map .char := by
  induction ps generalizing cs with
  | nil =>
    cases h
    rfl
  | cons piece ps ih =>
    rw [List.mapM_cons] at h
    cases piece with
    | malformed bytes => cases h
    | char c =>
      obtain ⟨d, hd, h⟩ := Option.bind_eq_some_iff.1 h
      obtain ⟨ds, hds, h⟩ := Option.bind_eq_some_iff.1 h
      obtain rfl : c = d := Option.some.inj hd
      obtain rfl : c :: ds = cs := Option.some.inj h
      rw [ih hds, List.map_cons]

/-- A well-formed byte string is the encoding of the text that is read from it. -/
theorem eq_ofChars_of_decode? {s : Bytes} {text : String} (h : decode? s = some text) :
    s = Bytes.ofChars text.toList := by
  obtain ⟨cs, hcs, rfl⟩ := Option.map_eq_some_iff.1 ((decode?_eq s).symm.trans h)
  rw [String.toList_ofList, ← flatMap_bytes_pieces s, eq_map_char_of_mapM hcs, List.flatMap_map]
  rfl

end ByteSearch.Utf8
