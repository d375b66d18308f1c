import ByteSearch.Proofs.Utf8Pieces
import ByteSearch.Regex.SourceInRuns

/-!
# The source text, byte by byte

The source text of a pattern can be written in two other ways. One goes from fault to fault
(`sourceInRuns_eq`): each fault is a malformed run behind well-formed text
(`Utf8.exists_run_of_fault?`). The other reads one byte at a time and asks the table of well-formed
sequences (`wellFormedRows`) whether one begins there; `marks` is what it does with the bytes, and
`marks_eq` compares that with the pieces. A malformed run needs most care: behind its first byte it
holds continuation bytes, and each of them is escaped too because it begins no sequence.

Main statement: `sourceOf_byte_by_byte`.
-/

namespace ByteSearch

namespace Utf8

/-! ## Faults -/

/-- A leading byte with enough continuation bytes behind it begins a character. -/
theorem pieces_of_complete {b : UInt8} {rest : Bytes} {l : Lead} (hb : ¬ b < 0x80)
    (hl : lead? b = some l)
    (henough : (continuations l.continuations l.low l.high rest).length = l.continuations) :
    pieces (b :: rest) =
      .char (scalar b (continuations l.continuations l.low l.high rest)) ::
        pieces (rest.drop (continuations l.continuations l.low l.high rest).length) := by
  rw [pieces, if_neg hb, hl]
  simp only
  rw [if_pos henough]

/-- A leading byte with too few continuation bytes behind it begins a malformed run. -/
theorem pieces_of_incomplete {b : UInt8} {rest : Bytes} {l : Lead} (hb : ¬ b < 0x80)
    (hl : lead? b = some l)
    (hshort : (continuations l.continuations l.low l.high rest).length ≠ l.continuations) :
    pieces (b :: rest) =
      .malformed (b :: continuations l.continuations l.low l.high rest) ::
        pieces (rest.drop (continuations l.continuations l.low l.high rest).length) := by
  rw [pieces, if_neg hb, hl]
  simp only
  rw [if_neg hshort]

/-- A byte string without a fault is the encoding of a text. -/
theorem exists_text_of_fault?_eq_none {s : Bytes} (hs : fault? s = none) :
    ∃ cs, s = Bytes.ofChars cs := by
  fun_induction fault? s with
  | case1 => exact ⟨[], rfl⟩
  | case2 b rest hb ih =>
    obtain ⟨cs, rfl⟩ := ih (Option.map_eq_none_iff.1 hs)
    refine ⟨Char.ofNat b.toNat :: cs, ?_⟩
    rw [Bytes.ofChars_cons, ofChar_ascii hb, List.singleton_append]
  | case3 => cases hs
  | case4 b rest hb lead hl tail htail =>
    rename_i ih
    obtain ⟨cs, hcs⟩ := ih (Option.map_eq_none_iff.1 hs)
    refine ⟨scalar b tail :: cs, ?_⟩
    have happend : tail ++ rest.drop tail.length = rest := continuations_append _ _ _ _
    rw [Bytes.ofChars_cons, ofChar_scalar hl (Lead.accepts_continuations htail),
      List.cons_append, ← hcs, happend]
  | case5 => cases hs
  | case6 => cases hs

/-- A fault stands behind well-formed text, and what is wrong is one malformed run. -/
theorem exists_run_of_fault? {s : Bytes} {f : Fault} (hf : fault? s = some f) :
    ∃ cs run rest, s = Bytes.ofChars cs ++ (run ++ rest) ∧
      f.validUpTo = (Bytes.ofChars cs).length ∧
      f.length?.getD (run ++ rest).length = run.length ∧
      pieces (run ++ rest) = .malformed run :: pieces rest := by
  fun_induction fault? s generalizing f with
  | case1 => cases hf
  | case2 b rest hb ih =>
    obtain ⟨g, hg, rfl⟩ := Option.map_eq_some_iff.1 hf
    obtain ⟨cs, run, behind, rfl, hvalid, hlength, hpieces⟩ := ih hg
    refine ⟨Char.ofNat b.toNat :: cs, run, behind, ?_, ?_, hlength, hpieces⟩
    · rw [Bytes.ofChars_cons, ofChar_ascii hb]
      rfl
    · rw [Bytes.ofChars_cons, ofChar_ascii hb, List.length_append, ← hvalid]
      rfl
  | case3 b rest hb hl =>
    cases hf
    refine ⟨[], [b], rest, rfl, rfl, rfl, ?_⟩
    rw [List.singleton_append, pieces, if_neg hb, hl]
  | case4 b rest hb lead hl tail htail =>
    rename_i ih
    obtain ⟨g, hg, rfl⟩ := Option.map_eq_some_iff.1 hf
    obtain ⟨cs, run, behind, hrest, hvalid, hlength, hpieces⟩ := ih hg
    have happend : tail ++ rest.drop tail.length = rest := continuations_append _ _ _ _
    have hchar := ofChar_scalar hl (Lead.accepts_continuations htail)
    refine ⟨scalar b tail :: cs, run, behind, ?_, ?_, hlength, hpieces⟩
    · rw [Bytes.ofChars_cons, hchar, List.append_assoc, ← hrest, List.cons_append, happend]
    · rw [Bytes.ofChars_cons, hchar, List.length_append, ← hvalid]
      rfl
  | case5 b rest hb lead hl tail htail =>
    rename_i hend
    cases hf
    have happend : tail ++ rest.drop tail.length = rest := continuations_append _ _ _ _
    refine ⟨[], b :: tail, rest.drop tail.length, ?_, rfl, ?_, ?_⟩
    · rw [List.cons_append, happend]
      rfl
    · rw [Option.getD_none, List.cons_append, happend, List.length_cons, List.length_cons, hend]
    · rw [List.cons_append, happend, pieces_of_incomplete hb hl htail]
  | case6 b rest hb lead hl tail htail =>
    rename_i hend
    cases hf
    have happend : tail ++ rest.drop tail.length = rest := continuations_append _ _ _ _
    refine ⟨[], b :: tail, rest.drop tail.length, ?_, rfl, rfl, ?_⟩
    · rw [List.cons_append, happend]
      rfl
    · rw [List.cons_append, happend, pieces_of_incomplete hb hl htail]

end Utf8

namespace Regex

theorem sourceOf_ofChars_append (cs : List Char) (rest : Bytes) :
    sourceOf (Bytes.ofChars cs ++ rest) = cs ++ sourceOf rest := by
  rw [sourceOf, Utf8.pieces_ofChars_append, List.flatMap_append, List.flatMap_map]
  exact congrArg (· ++ sourceOf rest) (List.flatMap_singleton' cs)

theorem sourceOf_nil : sourceOf [] = [] := by
  rw [sourceOf, Utf8.pieces, List.flatMap_nil]

theorem sourceOf_ofChars (cs : List Char) : sourceOf (Bytes.ofChars cs) = cs := by
  have happend := sourceOf_ofChars_append cs []
  rwa [List.append_nil, sourceOf_nil, List.append_nil] at happend

/-- Going from one fault to the next gives the same source text. -/
theorem sourceInRuns_eq (s : Bytes) : sourceInRuns s = sourceOf s := by
  induction hn : s.length using Nat.strongRecOn generalizing s with
  | ind n ih =>
    rw [sourceInRuns]
    split
    · rename_i hf
      obtain ⟨cs, rfl⟩ := Utf8.exists_text_of_fault?_eq_none hf
      rw [Utf8.decode?_ofChars, sourceOf_ofChars]
      exact String.toList_ofList
    · rename_i f hf
      obtain ⟨hvalid, hpos⟩ := Utf8.fault?_bounds hf
      obtain ⟨cs, run, rest, rfl, hcs, hrun, hpieces⟩ := Utf8.exists_run_of_fault? hf
      have hlt : rest.length < (Bytes.ofChars cs ++ (run ++ rest)).length := by
        simp only [List.length_append] at hvalid hrun ⊢
        cases hlength : f.length? with
        | none => rw [hlength, Option.getD_none] at hrun; omega
        | some k => have := hpos k hlength; rw [hlength, Option.getD_some] at hrun; omega
      have hsource : sourceOf (run ++ rest) = run.flatMap Bytes.hexEscape ++ sourceOf rest := by
        rw [sourceOf, hpieces, List.flatMap_cons]
        rfl
      simp only [hcs, List.take_left, List.drop_left, hrun]
      rw [Utf8.decode?_ofChars, Option.getD_some, String.toList_ofList, ih _ (hn ▸ hlt) rest rfl,
        sourceOf_ofChars_append, hsource, List.append_assoc]

end Regex

/-! ## Well-formed sequences -/

namespace Utf8

/-- The rows of table 3-7 of the Unicode standard: the least and the greatest byte in each place of
a well-formed sequence. -/
def wellFormedRows : List (List (UInt8 × UInt8)) := [
  [(0x00, 0x7F)],
  [(0xC2, 0xDF), (0x80, 0xBF)],
  [(0xE0, 0xE0), (0xA0, 0xBF), (0x80, 0xBF)],
  [(0xE1, 0xEC), (0x80, 0xBF), (0x80, 0xBF)],
  [(0xED, 0xED), (0x80, 0x9F), (0x80, 0xBF)],
  [(0xEE, 0xEF), (0x80, 0xBF), (0x80, 0xBF)],
  [(0xF0, 0xF0), (0x90, 0xBF), (0x80, 0xBF), (0x80, 0xBF)],
  [(0xF1, 0xF3), (0x80, 0xBF), (0x80, 0xBF), (0x80, 0xBF)],
  [(0xF4, 0xF4), (0x80, 0x8F), (0x80, 0xBF), (0x80, 0xBF)]]

/-- Whether a byte string begins with a sequence of a row. -/
def beginsIn : List (UInt8 × UInt8) → Bytes → Bool
  | [], _ => true
  | _ :: _, [] => false
  | (low, high) :: row, b :: rest => decide (low ≤ b ∧ b ≤ high) && beginsIn row rest

/-- The length of the well-formed sequence at the front of a byte string, if there is one. -/
def frontLength? (s : Bytes) : Option Nat :=
  (wellFormedRows.find? (beginsIn · s)).map List.length

theorem beginsIn_continuations (k : Nat) (low high : UInt8) (rest : Bytes) :
    beginsIn ((low, high) :: List.replicate k (0x80, 0xBF)) rest =
      decide ((continuations (k + 1) low high rest).length = k + 1) := by
  induction k generalizing low high rest with
  | zero =>
    cases rest with
    | nil => simp [beginsIn, continuations]
    | cons b rest =>
      by_cases hb : low ≤ b ∧ b ≤ high <;> simp [beginsIn, continuations, hb]
  | succ k ih =>
    cases rest with
    | nil => simp [beginsIn, continuations]
    | cons b rest =>
      rw [List.replicate_succ, beginsIn, ih, continuations]
      by_cases hb : low ≤ b ∧ b ≤ high <;> simp [hb]

/-- The first byte decides which rows are left, and they agree in the other places. -/
theorem frontLength?_cons (b : UInt8) (rest : Bytes) :
    frontLength? (b :: rest) =
      if b < 0x80 then some 1
      else (lead? b).bind fun l =>
        if beginsIn ((l.low, l.high) :: List.replicate (l.continuations - 1) (0x80, 0xBF)) rest then
          some (l.continuations + 1)
        else none := by
  rw [lead?_eq]
  simp only [frontLength?, wellFormedRows, List.find?_cons, beginsIn, UInt8.le_iff_toNat_le,
    UInt8.lt_iff_toNat_lt, UInt8.reduceToNat]
  generalize b.toNat = n
  split_ifs <;>
    simp (disch := omega) only [decide_eq_true, decide_eq_false, Bool.false_and, Bool.true_and,
      Option.map_some, Option.map_none, Option.bind_some, Option.bind_none, List.find?_nil,
      Nat.reduceSub, List.replicate]
  all_goals grind

theorem frontLength?_of_ascii {b : UInt8} (hb : b < 0x80) (rest : Bytes) :
    frontLength? (b :: rest) = some 1 := by
  rw [frontLength?_cons, if_pos hb]

theorem frontLength?_of_no_lead {b : UInt8} (hb : ¬ b < 0x80) (hl : lead? b = none)
    (rest : Bytes) : frontLength? (b :: rest) = none := by
  rw [frontLength?_cons, if_neg hb, hl, Option.bind_none]

theorem frontLength?_of_lead {b : UInt8} (hb : ¬ b < 0x80) {l : Lead} (hl : lead? b = some l)
    (rest : Bytes) :
    frontLength? (b :: rest) =
      if (continuations l.continuations l.low l.high rest).length = l.continuations then
        some (l.continuations + 1)
      else none := by
  obtain ⟨k, hk⟩ : ∃ k, l.continuations = k + 1 := by
    have hrow := (bounds_of_lead? hl).2
    exact Nat.exists_eq_add_one_of_ne_zero (by omega)
  rw [frontLength?_cons, if_neg hb, hl, Option.bind_some, hk, Nat.add_sub_cancel,
    beginsIn_continuations]
  simp only [decide_eq_true_eq]

/-- A continuation byte begins no sequence. -/
theorem frontLength?_of_mem_continuations {b : UInt8} {l : Lead} (hl : lead? b = some l) {n : Nat}
    {s : Bytes} {u : UInt8} (hu : u ∈ continuations n l.low l.high s) (rest : Bytes) :
    frontLength? (u :: rest) = none := by
  have hhigh : u.toNat ≤ 0xBF := by
    have hbounds := (bounds_of_lead? hl).1
    cases n with
    | zero => cases s <;> cases hu
    | succ n =>
      cases s with
      | nil => cases hu
      | cons t s =>
        rw [continuations] at hu
        split at hu
        · rename_i ht
          rcases List.mem_cons.1 hu with rfl | hu
          · have := UInt8.le_iff_toNat_le.1 ht.2
            omega
          · exact UInt8.le_iff_toNat_le.1 (forall_mem_continuations u hu).2
        · cases hu
  have hlead : lead? u = none := by
    cases hlu : lead? u with
    | none => rfl
    | some l' =>
      have hrow := (bounds_of_lead? hlu).2
      omega
  exact frontLength?_of_no_lead (UInt8.not_lt.2 (le_of_mem_continuations hl u hu)) hlead rest

end Utf8

/-! ## Byte by byte -/

namespace Regex

/-- What becomes of a part of a pattern: a well-formed sequence is copied, another byte is
escaped. -/
inductive Mark where
  | copied (sequence : Bytes)
  | escaped (b : UInt8)
  deriving DecidableEq

namespace Mark

def bytes : Mark → Bytes
  | copied sequence => sequence
  | escaped b => [b]

/-- The upper-case hexadecimal digit of a number below sixteen, in ASCII. -/
def digit (n : Nat) : UInt8 :=
  UInt8.ofNat (if n < 10 then 0x30 + n else 0x41 + (n - 10))

/-- What is written for the part: a backslash, the letter `x` and two digits for a byte that is
escaped. -/
def written : Mark → Bytes
  | copied sequence => sequence
  | escaped b => [0x5C, 0x78, digit (b.toNat / 16), digit (b.toNat % 16)]

def copy : Mark → Bytes
  | copied sequence => sequence
  | escaped _ => []

def escape? : Mark → Option UInt8
  | copied _ => none
  | escaped b => some b

end Mark

/-- Reads a pattern byte by byte: where a well-formed sequence begins it is copied, and any other
byte is escaped. -/
def marks : Bytes → List Mark
  | [] => []
  | b :: rest =>
    match Utf8.frontLength? (b :: rest) with
    | some n => .copied ((b :: rest).take n) :: marks (rest.drop (n - 1))
    | none => .escaped b :: marks rest
termination_by s => s.length
decreasing_by all_goals simp only [List.length_cons, List.length_drop]; omega

/-- The marks of a piece of a pattern. -/
def pieceMarks : Utf8.Piece → List Mark
  | .char c => [.copied (Bytes.ofChar c)]
  | .malformed bytes => bytes.map .escaped

/-- Bytes of which none begins a sequence are escaped one by one. -/
theorem marks_escaped {run : Bytes}
    (hrun : ∀ u ∈ run, ∀ rest, Utf8.frontLength? (u :: rest) = none) (rest : Bytes) :
    marks (run ++ rest) = run.map .escaped ++ marks rest := by
  induction run with
  | nil => rfl
  | cons u run ih =>
    rw [List.forall_mem_cons] at hrun
    rw [List.cons_append, marks, hrun.1]
    simp only
    rw [ih hrun.2]
    rfl

/-- Reading byte by byte marks the same parts as cutting into pieces. -/
theorem marks_eq (s : Bytes) : marks s = (Utf8.pieces s).flatMap pieceMarks := by
  induction s using Utf8.pieces.induct with
  | case1 => rw [marks, Utf8.pieces, List.flatMap_nil]
  | case2 b rest hb ih =>
    rw [marks, Utf8.frontLength?_of_ascii hb, Utf8.pieces, if_pos hb, List.flatMap_cons, pieceMarks,
      Utf8.ofChar_ascii hb, ← ih]
    rfl
  | case3 b rest hb hl ih =>
    rw [marks, Utf8.frontLength?_of_no_lead hb hl, Utf8.pieces, if_neg hb, hl]
    simp only
    rw [List.flatMap_cons, ← ih]
    rfl
  | case4 b rest hb l hl tail ih =>
    have happend : tail ++ rest.drop tail.length = rest := Utf8.continuations_append _ _ _ _
    by_cases htail : tail.length = l.continuations
    · have htake : (b :: rest).take (l.continuations + 1) = Bytes.ofChar (Utf8.scalar b tail) := by
        rw [Utf8.ofChar_scalar hl (Utf8.Lead.accepts_continuations htail), List.take_succ_cons]
        conv_lhs => rw [← happend, ← htail]
        rw [List.take_left]
      rw [Utf8.pieces_of_complete hb hl htail, List.flatMap_cons, ← ih, marks,
        Utf8.frontLength?_of_lead hb hl, if_pos htail]
      simp only
      rw [htake, Nat.add_sub_cancel]
      exact congrArg (fun n => .copied (Bytes.ofChar (Utf8.scalar b tail)) :: marks (rest.drop n))
        htail.symm
    · -- the character breaks off, and no byte of it begins a sequence of its own
      rw [Utf8.pieces_of_incomplete hb hl htail, List.flatMap_cons, ← ih, marks,
        Utf8.frontLength?_of_lead hb hl, if_neg htail]
      simp only
      conv_lhs => rw [← happend]
      rw [marks_escaped fun u hu => Utf8.frontLength?_of_mem_continuations hl hu]
      rfl

/-! ### What the marks say -/

/-- What is escaped is no ASCII byte. -/
theorem le_of_mem_escaped {s : Bytes} {b : UInt8} (hb : b ∈ (marks s).filterMap Mark.escape?) :
    0x80 ≤ b := by
  rw [marks_eq] at hb
  obtain ⟨mark, hmark, hescape⟩ := List.mem_filterMap.1 hb
  obtain ⟨piece, hpiece, hmark⟩ := List.mem_flatMap.1 hmark
  cases piece with
  | char c =>
    obtain rfl := List.mem_singleton.1 hmark
    cases hescape
  | malformed bytes =>
    obtain ⟨u, hu, rfl⟩ := List.mem_map.1 hmark
    obtain rfl := Option.some.inj hescape
    exact UInt8.not_lt.1 (Utf8.not_lt_of_mem_malformed hpiece hu)

/-- The marks are marks of the whole pattern, in order. -/
theorem flatMap_bytes_marks (s : Bytes) : (marks s).flatMap Mark.bytes = s := by
  conv_rhs => rw [← Utf8.flatMap_bytes_pieces s]
  rw [marks_eq, List.flatMap_assoc]
  congr 1
  funext piece
  cases piece with
  | char c => exact List.append_nil _
  | malformed bytes =>
    rw [pieceMarks, List.flatMap_map]
    exact List.flatMap_singleton' bytes

/-- Every ASCII byte is part of what is copied. -/
theorem filter_copy_marks (s : Bytes) :
    ((marks s).flatMap Mark.copy).filter (· < 0x80) = s.filter (· < 0x80) := by
  conv_rhs => rw [← flatMap_bytes_marks s]
  rw [List.filter_flatMap, List.filter_flatMap]
  refine List.flatMap_congr fun mark hmark => ?_
  cases mark with
  | copied sequence => rfl
  | escaped b =>
    have hb : 0x80 ≤ b := le_of_mem_escaped (List.mem_filterMap.2 ⟨_, hmark, rfl⟩)
    simp [Mark.copy, Mark.bytes, UInt8.not_lt.2 hb]

theorem ofChar_hexDigit {n : Nat} (hn : n < 16) :
    Bytes.ofChar (Bytes.hexDigit n) = [Mark.digit n] := by
  have hall : ∀ n : Fin 16, Bytes.ofChar (Bytes.hexDigit n) = [Mark.digit n] := by decide
  exact hall ⟨n, hn⟩

theorem ofChars_hexEscape (b : UInt8) :
    Bytes.ofChars (Bytes.hexEscape b) = (Mark.escaped b).written := by
  have hb := b.toNat_lt
  simp only [Bytes.hexEscape, Bytes.ofChars_cons, Bytes.ofChars_nil,
    ofChar_hexDigit (n := b.toNat / 16) (by omega), ofChar_hexDigit (n := b.toNat % 16) (by omega)]
  rfl

/-- The source text has the bytes that the marks write. -/
theorem ofChars_sourceOf (s : Bytes) :
    Bytes.ofChars (sourceOf s) = (marks s).flatMap Mark.written := by
  rw [marks_eq, sourceOf, Bytes.ofChars, List.flatMap_assoc, List.flatMap_assoc]
  congr 1
  funext piece
  cases piece with
  | char c => rfl
  | malformed bytes =>
    rw [pieceMarks, sourcePiece, List.flatMap_assoc, List.flatMap_map]
    exact congrArg bytes.flatMap (funext ofChars_hexEscape)

theorem length_flatMap_written (ms : List Mark) :
    (ms.flatMap Mark.written).length =
      (ms.flatMap Mark.bytes).length + 3 * (ms.filterMap Mark.escape?).length := by
  induction ms with
  | nil => rfl
  | cons mark ms ih =>
    rw [List.flatMap_cons, List.flatMap_cons, List.length_append, List.length_append, ih]
    cases mark with
    | copied sequence =>
      rw [List.filterMap_cons_none rfl]
      simp only [Mark.written, Mark.bytes]
      omega
    | escaped b =>
      rw [List.filterMap_cons_some (f := Mark.escape?) rfl, List.length_cons]
      simp only [Mark.written, Mark.bytes, List.length_cons, List.length_nil]
      omega

/-- **The source text, byte by byte.** Writing a source text from one fault to the next comes to the
same as reading the pattern byte by byte: where a well-formed sequence begins it is copied, and any
other byte is escaped. So the ASCII bytes are copied in their order, what is escaped is no ASCII
byte, a text is its own source text, and each escaped byte makes the source text three bytes
longer. -/
theorem sourceOf_byte_by_byte (s : Bytes) :
    sourceInRuns s = sourceOf s ∧
      Bytes.ofChars (sourceOf s) = (marks s).flatMap Mark.written ∧
      (marks s).flatMap Mark.bytes = s ∧
      ((marks s).flatMap Mark.copy).filter (· < 0x80) = s.filter (· < 0x80) ∧
      (∀ b ∈ (marks s).filterMap Mark.escape?, 0x80 ≤ b) ∧
      (∀ text, s = Bytes.ofChars text → sourceOf s = text) ∧
      (Bytes.ofChars (sourceOf s)).length =
        s.length + 3 * ((marks s).filterMap Mark.escape?).length := by
  refine ⟨sourceInRuns_eq s, ofChars_sourceOf s, flatMap_bytes_marks s, filter_copy_marks s,
    fun b hb => le_of_mem_escaped hb, ?_, ?_⟩
  · rintro text rfl
    exact sourceOf_ofChars text
  · rw [ofChars_sourceOf, length_flatMap_written, flatMap_bytes_marks]

/-- A byte that no character has, a character of two bytes, and one that breaks off at the end. -/
theorem sourceOf_byte_by_byte_broken_off :
    sourceInRuns [0x61, 0xFF, 0xC3, 0xA9, 0xE2, 0x82] = "a\\xFFé\\xE2\\x82".toList ∧
      (Bytes.ofChars (sourceOf [0x61, 0xFF, 0xC3, 0xA9, 0xE2, 0x82])).length = 6 + 3 * 3 := by
  have hall := sourceOf_byte_by_byte [0x61, 0xFF, 0xC3, 0xA9, 0xE2, 0x82]
  have hescaped : (marks [0x61, 0xFF, 0xC3, 0xA9, 0xE2, 0x82]).filterMap Mark.escape? =
      [0xFF, 0xE2, 0x82] := by decide +kernel
  refine ⟨?_, ?_⟩
  · rw [hall.1]
    decide +kernel
  · rw [hall.2.2.2.2.2.2, hescaped]
    rfl

end Regex

end ByteSearch
