import ByteSearch.Proofs.Utf8Pieces
import ByteSearch.Regex.Language
import ByteSearch.Regex.Matching

/-!
# What sets of positions hold

The members of the sets that a search starts from, in terms of the haystack: the offsets of a byte
(`testBit_offsetsOf`), of the bytes of a set (`testBit_offsetsIn`), of the characters of a set
(`testBit_charOffsets`), and the positions at which an assertion holds (`Look.testBit_positions`).
-/

namespace ByteSearch.Regex

open ByteSearch.Search (OccursAt)
open ByteSearch.Text (Range Ranges)

variable {h : Buffer}

namespace Positions

theorem testBit_single (i j : Nat) : (single i).testBit j = true ↔ i = j := by
  rw [single, Nat.one_shiftLeft, Nat.testBit_two_pow, decide_eq_true_eq]

/-- A fold that adds a set for every member of a list gives the union of these sets. -/
theorem testBit_foldl {α : Type} {step : Positions → α → Positions} {g : α → Positions}
    (hstep : ∀ s a, step s a = s ||| g a) (l : List α) (s : Positions) (i : Nat) :
    (l.foldl step s).testBit i = true ↔
      s.testBit i = true ∨ ∃ a ∈ l, (g a).testBit i = true := by
  induction l generalizing s with
  | nil => simp
  | cons a l ih =>
    rw [List.foldl_cons, ih, hstep, Nat.testBit_or, Bool.or_eq_true, or_assoc]
    simp only [List.mem_cons, exists_eq_or_imp]

end Positions

/-! ## The index -/

namespace Index

/-- The offsets of a byte after one more byte has been entered. -/
theorem getElem?_insert {offsets : Array Positions} (hsize : offsets.size = 256) (b c : UInt8)
    (i j : Nat) :
    ((insert offsets b i)[c.toNat]?.getD 0).testBit j = true ↔
      (offsets[c.toNat]?.getD 0).testBit j = true ∨ (b = c ∧ i = j) := by
  have hc : c.toNat < offsets.size := by
    rw [hsize]
    exact c.toNat_lt
  rw [insert, Array.getElem?_modify]
  by_cases hbc : b = c
  · subst hbc
    rw [if_pos rfl, Array.getElem?_eq_getElem hc, Option.map_some, Option.getD_some,
      Option.getD_some, Nat.testBit_or, Bool.or_eq_true, Positions.testBit_single]
    simp
  · rw [if_neg (fun h => hbc (UInt8.toNat_inj.1 h))]
    simp [hbc]

/-- Entering the bytes of a list, which begin at offset `k`. -/
theorem testBit_foldl_insert (l : List UInt8) {offsets : Array Positions}
    (hsize : offsets.size = 256) (k : Nat) (c : UInt8) (j : Nat) :
    ((l.foldl (fun (offsets, i) b => (insert offsets b i, i + 1))
        (offsets, k)).1[c.toNat]?.getD 0).testBit j = true ↔
      (offsets[c.toNat]?.getD 0).testBit j = true ∨ (k ≤ j ∧ l[j - k]? = some c) := by
  induction l generalizing offsets k with
  | nil => simp
  | cons b l ih =>
    rw [List.foldl_cons, ih (by rw [insert, Array.size_modify, hsize]), getElem?_insert hsize,
      or_assoc]
    refine or_congr_right ?_
    rcases Nat.lt_trichotomy j k with hlt | rfl | hgt
    · simp only [show ¬ k + 1 ≤ j by omega, show ¬ k ≤ j by omega, show k ≠ j by omega, and_false,
        false_and, or_false]
    · simp only [show ¬ j + 1 ≤ j by omega, false_and, or_false, and_true, Nat.le_refl,
        Nat.sub_self, List.getElem?_cons_zero, Option.some.injEq, true_and]
    · obtain ⟨d, rfl⟩ : ∃ d, j = k + (d + 1) := ⟨j - k - 1, by omega⟩
      rw [show k + (d + 1) - (k + 1) = d by omega, show k + (d + 1) - k = d + 1 by omega,
        List.getElem?_cons_succ]
      simp only [show k ≠ k + (d + 1) by omega, and_false, false_or,
        show k + 1 ≤ k + (d + 1) by omega, show k ≤ k + (d + 1) by omega]

theorem testBit_offsetsOf (b : UInt8) (i : Nat) :
    ((ofBuffer h).offsetsOf b).testBit i = true ↔ h[i]? = some b := by
  have hzero : (Array.replicate 256 (0 : Positions))[b.toNat]?.getD 0 = 0 := by
    rw [Array.getElem?_replicate, if_pos b.toNat_lt, Option.getD_some]
  rw [offsetsOf, ofBuffer, ← Array.foldl_toList,
    testBit_foldl_insert h.toList (Array.size_replicate ..) 0 b i, hzero]
  simp

theorem testBit_offsetsIn (s : Ranges) (i : Nat) :
    ((ofBuffer h).offsetsIn s).testBit i = true ↔
      ∃ b, h[i]? = some b ∧ s.contains b.toNat = true := by
  have hstep (found : Positions) (n : Nat) :
      (if s.contains n then found ||| (ofBuffer h).offsets[n]?.getD 0 else found)
        = found ||| (if s.contains n then (ofBuffer h).offsets[n]?.getD 0 else 0) := by
    split
    · rfl
    · exact (Nat.or_zero found).symm
  rw [offsetsIn, Positions.testBit_foldl hstep]
  constructor
  · rintro (hzero | ⟨n, hn, hbit⟩)
    · simp at hzero
    · have hn' : n < 256 := List.mem_range.1 hn
      split at hbit
      · rename_i hs
        have hbyte : (UInt8.ofNat n).toNat = n := UInt8.toNat_ofNat_of_lt' hn'
        refine ⟨.ofNat n, (testBit_offsetsOf _ i).1 ?_, by rwa [hbyte]⟩
        rwa [offsetsOf, hbyte]
      · simp at hbit
  · intro hmem
    obtain ⟨b, hb, hs⟩ := hmem
    refine .inr ⟨b.toNat, List.mem_range.2 b.toNat_lt, ?_⟩
    rw [if_pos hs]
    exact (testBit_offsetsOf b i).2 hb

theorem testBit_positions (i : Nat) :
    (ofBuffer h).positions.testBit i = true ↔ i ≤ h.size := by
  rw [positions, Positions.testBit_upTo, decide_eq_true_eq]
  rfl

end Index

/-! ## Assertions -/

theorem isWordByte_iff (b : UInt8) :
    isWordByte b = Look.wordRanges.contains b.toNat := by
  simp only [isWordByte, Look.wordRanges, Ranges.contains, Range.contains, List.any_cons,
    List.any_nil, Bool.or_false, UInt8.le_iff_toNat_le, UInt8.reduceToNat, Bool.or_assoc]
  congr 3
  rw [Bool.eq_iff_iff]
  simp only [beq_iff_eq, ← UInt8.toNat_inj, UInt8.reduceToNat, Bool.and_eq_true, decide_eq_true_eq]
  omega

namespace Look

/-- A set that asks for the byte at a position, moved by one, asks for the byte before it. -/
theorem testBit_shiftLeft_one {s : Positions} {p : Option UInt8 → Bool} (hnone : p none = false)
    (hs : ∀ i, s.testBit i = p h[i]?) (i : Nat) : (s <<< 1).testBit i = p (before? h i) := by
  rw [Nat.testBit_shiftLeft, hs, before?]
  by_cases hi : i = 0
  · rw [if_pos hi, hnone, decide_eq_false (by omega), Bool.false_and]
  · rw [if_neg hi, decide_eq_true (by omega), Bool.true_and]

theorem testBit_offsetsOf_eq (b : UInt8) (i : Nat) :
    ((Index.ofBuffer h).offsetsOf b).testBit i = (h[i]? == some b) := by
  rw [Bool.eq_iff_iff, Index.testBit_offsetsOf, beq_iff_eq]

theorem testBit_offsetsIn_wordRanges (i : Nat) :
    ((Index.ofBuffer h).offsetsIn wordRanges).testBit i = inWord h[i]? := by
  rw [Bool.eq_iff_iff, Index.testBit_offsetsIn, inWord, Option.any_eq_true]
  simp only [isWordByte_iff]

/-- The positions of an assertion are those at which it holds. -/
theorem testBit_positions (l : Look) {i : Nat} (hi : i ≤ h.size) :
    (l.positions (Index.ofBuffer h)).testBit i = l.holds h i := by
  have hall : (Index.ofBuffer h).positions.testBit i = true := (Index.testBit_positions i).2 hi
  have hfirst : (Positions.single 0).testBit i = (i == 0) := by
    rw [Bool.eq_iff_iff, Positions.testBit_single, beq_iff_eq, eq_comm]
  have hlast : (Positions.single (Index.ofBuffer h).size).testBit i = (i == h.size) := by
    rw [Bool.eq_iff_iff, Positions.testBit_single, beq_iff_eq, eq_comm]
    rfl
  have hbefore (b : UInt8) :
      ((Index.ofBuffer h).offsetsOf b <<< 1).testBit i = (before? h i == some b) :=
    testBit_shiftLeft_one (p := (· == some b)) rfl (testBit_offsetsOf_eq b) i
  have hafter : ((Index.ofBuffer h).offsetsIn wordRanges <<< 1).testBit i = inWord (before? h i) :=
    testBit_shiftLeft_one rfl testBit_offsetsIn_wordRanges i
  cases l with
  | unicodeWord => exact Nat.zero_testBit i
  | wordStartHalf | wordEndHalf | wordEnd =>
    simp only [positions, holds, Positions.testBit_diff, hall, hafter,
      testBit_offsetsIn_wordRanges, Bool.true_and]
  | wordBoundary | notWordBoundary | wordStart =>
    simp only [positions, holds, Positions.testBit_diff, Nat.testBit_xor, hall, hafter,
      testBit_offsetsIn_wordRanges, Bool.true_and]
    generalize inWord h[i]? = w
    generalize inWord (before? h i) = v
    cases v <;> cases w <;> rfl
  | textStart | textEnd | lineStart | lineEnd | crlfStart | crlfEnd =>
    simp only [positions, holds, Nat.testBit_or, Positions.testBit_diff, hfirst, hlast, hbefore,
      testBit_offsetsOf_eq, bne]

end Look

/-! ## Characters -/

theorem occursAt_iff_drop {w : Bytes} {i : Nat} (hi : i ≤ h.size) :
    OccursAt h w i ↔ w <+: h.toList.drop i := by
  rw [List.prefix_iff_getElem?]
  constructor
  · rintro ⟨-, hw⟩ j hj
    have := hw j hj
    rw [List.getElem?_drop, Array.getElem?_toList, this, List.getElem?_eq_getElem hj]
  · intro hw
    have hlen : w.length ≤ (h.toList.drop i).length := (List.prefix_iff_getElem?.2 hw).length_le
    simp only [List.length_drop, Array.length_toList] at hlen
    refine ⟨by omega, fun j hj => ?_⟩
    have := hw j hj
    rwa [List.getElem?_drop, Array.getElem?_toList, ← List.getElem?_eq_getElem hj] at this

theorem charAt?_eq_some {c : Char} {i : Nat} (hi : i ≤ h.size) :
    charAt? h i = some c ↔ OccursAt h (Bytes.ofChar c) i := by
  have hextract : (h.extract i (i + 4)).toList = (h.toList.drop i).take 4 := by
    simp [List.extract_eq_take_drop]
  rw [occursAt_iff_drop hi, charAt?, hextract]
  constructor
  · intro hc
    have hbytes := Utf8.flatMap_bytes_pieces ((h.toList.drop i).take 4)
    split at hc
    · rename_i d rest heq
      obtain rfl : d = c := Option.some.inj hc
      rw [heq, List.flatMap_cons] at hbytes
      have hprefix : Bytes.ofChar d <+: (h.toList.drop i).take 4 := ⟨_, hbytes⟩
      exact hprefix.trans (List.take_prefix _ _)
    · cases hc
  · intro hmem
    obtain ⟨rest, hrest⟩ := hmem
    have hlen : (Bytes.ofChar c).length ≤ 4 := by
      rw [Bytes.ofChar, String.length_utf8EncodeChar]
      exact c.utf8Size_le_four
    rw [← hrest, List.take_append, List.take_of_length_le hlen, Utf8.pieces_ofChar_append]

/-- What an offset adds to `charOffsets`. -/
def charOffset (h : Buffer) (s : Ranges) (width k : Nat) : Positions :=
  match charAt? h k with
  | some c =>
    if (Bytes.ofChar c).length == width && s.contains c.toNat then Positions.single k else 0
  | none => 0

theorem testBit_charOffset {s : Ranges} {width k i : Nat} (hk : k ≤ h.size) :
    (charOffset h s width k).testBit i = true ↔
      k = i ∧ ∃ c, s.contains c.toNat = true ∧ (Bytes.ofChar c).length = width ∧
        OccursAt h (Bytes.ofChar c) k := by
  simp only [charOffset, ← charAt?_eq_some hk]
  cases charAt? h k with
  | none => simp
  | some c =>
    by_cases hc : (Bytes.ofChar c).length = width ∧ s.contains c.toNat = true
    · simp only [hc.1, hc.2, beq_self_eq_true, Bool.and_self, if_true, Positions.testBit_single,
        Option.some.injEq]
      exact ⟨fun hk => ⟨hk, c, hc.2, hc.1, rfl⟩, fun hk => hk.1⟩
    · rw [← beq_iff_eq, ← Bool.and_eq_true] at hc
      simp only [hc, if_false, Nat.zero_testBit, Bool.false_eq_true, false_iff, Option.some.injEq]
      intro hmem
      obtain ⟨-, d, hd, hlen, rfl⟩ := hmem
      exact hc (by simp [hd, hlen])

theorem testBit_charOffsets (s : Ranges) (width i : Nat) :
    (charOffsets h s width).testBit i = true ↔
      ∃ c, s.contains c.toNat = true ∧ (Bytes.ofChar c).length = width ∧
        OccursAt h (Bytes.ofChar c) i := by
  rw [charOffsets, Positions.testBit_foldl (g := charOffset h s width)]
  · constructor
    · rintro (hzero | ⟨k, hk, hbit⟩)
      · simp at hzero
      · have hk' : k < h.size := List.mem_range.1 hk
        obtain ⟨rfl, hc⟩ := (testBit_charOffset (Nat.le_of_lt hk')).1 hbit
        exact hc
    · intro hmem
      obtain ⟨c, hc, hlen, hocc⟩ := hmem
      have hpos : 0 < (Bytes.ofChar c).length :=
        List.length_pos_iff.2 String.utf8EncodeChar_ne_nil
      have hi : i < h.size := Nat.lt_of_lt_of_le (by omega) hocc.1
      exact .inr ⟨i, List.mem_range.2 hi,
        (testBit_charOffset (Nat.le_of_lt hi)).2 ⟨rfl, c, hc, hlen, hocc⟩⟩
  · intro found k
    unfold charOffset
    cases charAt? h k with
    | none => exact (Nat.or_zero found).symm
    | some c =>
      simp only []
      split
      · rfl
      · exact (Nat.or_zero found).symm

end ByteSearch.Regex
