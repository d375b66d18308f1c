import ByteSearch.Proofs.SimpleForm
import ByteSearch.Regex.Compiled
import ByteSearch.Regex.Source
import Mathlib.Data.List.Sort

/-!
# Plain patterns

A pattern is plain if no byte of it belongs to the notation of regular expressions, but for the dot.
Such a pattern may hold any other bytes, well-formed UTF-8 or not. Its source text is a list of
literals (`sourceLiterals`): characters that are copied and bytes that are escaped. The literals
come back as they went in, one token each (`tokens_sourceOf`), and so the source text of a plain
pattern is never refused (`ofSource_sourceOf`). What it matches are the bytes of the pattern, where
the dot stands for any byte (`FitsAt`, `endsAt_ofSource`).
-/

namespace ByteSearch.Regex

open ByteSearch.Search (OccursAt)

/-- The ASCII bytes that belong to the notation, but for the dot. -/
def metaBytes : Bytes :=
  [0x5C, 0x2B, 0x2A, 0x3F, 0x28, 0x29, 0x7C, 0x5B, 0x5D, 0x7B, 0x7D, 0x5E, 0x24]

/-- No byte belongs to the notation, but for the dot. -/
def IsPlain (w : Bytes) : Prop :=
  ∀ b ∈ w, b ∉ metaBytes

instance (w : Bytes) : Decidable (IsPlain w) :=
  List.decidableBAll (· ∉ metaBytes) w

/-- The bytes stand in the haystack at an offset, where a dot stands for any byte. -/
def FitsAt (h : Buffer) (w : Bytes) (i : Nat) : Prop :=
  i + w.length ≤ h.size ∧ ∀ j, j < w.length → w[j]? = some 0x2E ∨ h[i + j]? = w[j]?

instance (h : Buffer) (w : Bytes) : DecidablePred (FitsAt h w) := fun i =>
  inferInstanceAs (Decidable (i + w.length ≤ h.size ∧
    ∀ j, j < w.length → w[j]? = some 0x2E ∨ h[i + j]? = w[j]?))

/-! ## The literals of a source text -/

namespace Literal

/-- A literal as it stands in a source text. -/
def written : Literal → List Char
  | char c => [c]
  | code b => Bytes.hexEscape b

/-- The bytes for which a literal stands. -/
def bytes : Literal → Bytes
  | char c => Bytes.ofChar c
  | code b => [b]

/-- The characters that belong to the notation, but for the dot. -/
def metaChars : List Char :=
  metaBytes.map fun b => Char.ofNat b.toNat

/-- A literal that is read as it is written: a character outside of the notation, or a byte that no
character has. -/
def IsPlain : Literal → Prop
  | char c => c ∉ metaChars
  | code b => ¬ b < 0x80

end Literal

/-- The literals of a piece of a pattern. -/
def pieceLiterals : Utf8.Piece → List Literal
  | .char c => [.char c]
  | .malformed bytes => bytes.map .code

/-- The literals of a pattern. -/
def sourceLiterals (w : Bytes) : List Literal :=
  (Utf8.pieces w).flatMap pieceLiterals

theorem flatMap_written (w : Bytes) : (sourceLiterals w).flatMap Literal.written = sourceOf w := by
  rw [sourceLiterals, sourceOf, List.flatMap_assoc]
  congr 1
  funext piece
  cases piece with
  | char c => rfl
  | malformed bytes => exact List.flatMap_map ..

theorem flatMap_bytes (w : Bytes) : (sourceLiterals w).flatMap Literal.bytes = w := by
  conv_rhs => rw [← Utf8.flatMap_bytes_pieces w]
  rw [sourceLiterals, List.flatMap_assoc]
  congr 1
  funext piece
  cases piece with
  | char c => exact List.append_nil _
  | malformed bytes =>
    rw [pieceLiterals, List.flatMap_map]
    exact List.flatMap_singleton' bytes

theorem isPlain_of_mem_sourceLiterals {w : Bytes} (hw : IsPlain w) {l : Literal}
    (hl : l ∈ sourceLiterals w) : l.IsPlain := by
  obtain ⟨piece, hpiece, hl⟩ := List.mem_flatMap.1 hl
  cases piece with
  | char c =>
    obtain rfl := List.mem_singleton.1 hl
    intro hc
    obtain ⟨b, hb, rfl⟩ := List.mem_map.1 hc
    have hall : metaBytes.all (· < 0x80) = true := by decide
    have hascii : b < 0x80 := of_decide_eq_true (List.all_eq_true.1 hall b hb)
    have hmem : b ∈ (Utf8.pieces w).flatMap Utf8.Piece.bytes :=
      List.mem_flatMap.2 ⟨_, hpiece, by
        rw [Utf8.Piece.bytes, Utf8.ofChar_ascii hascii]
        exact List.mem_singleton_self b⟩
    rw [Utf8.flatMap_bytes_pieces] at hmem
    exact hw b hmem hb
  | malformed bytes =>
    obtain ⟨b, hb, rfl⟩ := List.mem_map.1 hl
    exact Utf8.not_lt_of_mem_malformed hpiece hb

/-! ## Tokens -/

namespace Lexer

/-- A character counts if it begins neither a blank nor a comment, or if these count themselves. -/
def Counts (x : Bool) (c : Char) : Prop :=
  x = true → Text.isBlank c = false ∧ c ≠ '#'

theorem counts_false (c : Char) : Counts false c := fun hx => nomatch hx

theorem skip_of_counts {x : Bool} {c : Char} (hc : Counts x c) (rest : List Char) :
    skip x (c :: rest) = c :: rest := by
  cases x with
  | false => rfl
  | true =>
    obtain ⟨hblank, hcomment⟩ := hc rfl
    simp [skip, dropBlanks, hblank, hcomment]

/-- Blanks and comments are dropped at once. -/
theorem dropBlanks_dropBlanks (inComment : Bool) (s : List Char) :
    dropBlanks false (dropBlanks inComment s) = dropBlanks inComment s := by
  induction s generalizing inComment with
  | nil => rfl
  | cons c rest ih =>
    cases inComment with
    | true => exact ih _
    | false =>
      rw [dropBlanks]
      split
      · exact ih false
      · split
        · exact ih true
        · rename_i hblank hcomment
          rw [dropBlanks, if_neg hblank, if_neg hcomment]

theorem skip_skip (x : Bool) (s : List Char) : skip x (skip x s) = skip x s := by
  cases x with
  | false => rfl
  | true => exact dropBlanks_dropBlanks false s

/-- The main loop drops blanks itself. -/
theorem tokenLoop_skip (fuel : Nat) (x : Bool) (saved : List Bool) (s : List Char) :
    tokenLoop fuel x saved (skip x s) = tokenLoop fuel x saved s := by
  cases fuel with
  | zero => rfl
  | succ fuel => rw [tokenLoop, tokenLoop, skip_skip]

/-- A character outside of the notation is a token of its own. -/
theorem tokenLoop_plain (fuel : Nat) (saved : List Bool) {x : Bool} {c : Char}
    (hcounts : Counts x c) (hc : c ∉ Literal.metaChars) (rest : List Char) :
    tokenLoop (fuel + 1) x saved (c :: rest) =
      (tokenLoop fuel x saved rest).map (.atom (plain c) :: ·) := by
  have hc' : c ∉ ['\\', '+', '*', '?', '(', ')', '|', '[', ']', '\x7b', '\x7d', '^', '$'] := hc
  simp only [List.mem_cons, not_or] at hc'
  rw [tokenLoop]
  simp only [skip_of_counts hcounts]
  -- every branch but the last begins with a character of the notation
  split <;> simp_all
  rfl

theorem hexValue?_hexDigit {n : Nat} (hn : n < 16) : hexValue? (Bytes.hexDigit n) = some n := by
  have hall : ∀ n : Fin 16, hexValue? (Bytes.hexDigit n) = some n.val := by decide
  exact hall ⟨n, hn⟩

theorem hexDigit_ne_brace {n : Nat} (hn : n < 16) : Bytes.hexDigit n ≠ '\x7b' := by
  have hall : ∀ n : Fin 16, Bytes.hexDigit n ≠ '\x7b' := by decide
  exact hall ⟨n, hn⟩

theorem scalar?_byte (b : UInt8) : scalar? b.toNat = some (Char.ofNat b.toNat) := by
  have hb := b.toNat_lt
  rw [scalar?, if_pos]
  simp only [Bool.or_eq_true, decide_eq_true_eq]
  exact .inl (by omega)

theorem counts_hexDigit (x : Bool) {n : Nat} (hn : n < 16) : Counts x (Bytes.hexDigit n) := by
  have hall : ∀ n : Fin 16, Text.isBlank (Bytes.hexDigit n) = false ∧ Bytes.hexDigit n ≠ '#' := by
    decide
  exact fun _ => hall ⟨n, hn⟩

/-- The two digits of a byte are read back as its number. -/
theorem fixedHex_digits (x : Bool) (b : UInt8) (rest : List Char) :
    fixedHex x 2 0 (Bytes.hexDigit (b.toNat / 16) :: Bytes.hexDigit (b.toNat % 16) :: rest) =
      .ok (b.toNat, skip x rest) := by
  have hb := b.toNat_lt
  have hhigh : b.toNat / 16 < 16 := by omega
  have hlow : b.toNat % 16 < 16 := by omega
  simp only [fixedHex, hexValue?_hexDigit hhigh, hexValue?_hexDigit hlow,
    skip_of_counts (counts_hexDigit x hlow), Nat.zero_mul, Nat.zero_add, Nat.div_add_mod']

theorem numbered_digits (x : Bool) (b : UInt8) (rest : List Char) :
    numbered x 'x'
      (Bytes.hexDigit (b.toNat / 16) :: Bytes.hexDigit (b.toNat % 16) :: rest) =
      .ok (.code b, skip x rest) := by
  have hb := b.toNat_lt
  have hhigh : b.toNat / 16 < 16 := by omega
  have hbrace : Bytes.hexDigit (b.toNat / 16) ≠ '\x7b' := hexDigit_ne_brace hhigh
  simp only [numbered, after, skip_of_counts (counts_hexDigit x hhigh), bind, Except.bind]
  split
  · rename_i heq
    exact absurd (List.cons.inj heq).1 hbrace
  · simp only [beq_self_eq_true, if_true, fixedHex_digits, scalar?_byte, UInt8.ofNat_toNat]

/-- An escape with two digits is read back as the byte for which it was written. -/
theorem escape_hexEscape (x : Bool) (b : UInt8) (rest : List Char) :
    escape x ((Bytes.hexEscape b).drop 1 ++ rest) = .ok (.literal (.code b), skip x rest) := by
  have hdigit : Char.isDigit 'x' = false := rfl
  show escape x ('x' :: _ :: _ :: rest) = _
  unfold escape
  simp only [hdigit, Bool.false_eq_true, if_false, beq_self_eq_true, Bool.true_or, if_true,
    numbered_digits, bind, Except.bind]

theorem tokenLoop_hexEscape (fuel : Nat) (x : Bool) (saved : List Bool) (b : UInt8)
    (rest : List Char) :
    tokenLoop (fuel + 1) x saved (Bytes.hexEscape b ++ rest) =
      (tokenLoop fuel x saved rest).map (.atom (.literal (.code b)) :: ·) := by
  have hcounts : Counts x '\\' := fun _ => by decide
  have hescape := escape_hexEscape x b rest
  show tokenLoop (fuel + 1) x saved ('\\' :: ((Bytes.hexEscape b).drop 1 ++ rest)) = _
  rw [tokenLoop]
  simp only [skip_of_counts hcounts, hescape, bind, Except.bind, tokenLoop_skip]
  rfl

end Lexer

/-- What a literal is read as. -/
def Literal.atom : Literal → Atom
  | .char c => Lexer.plain c
  | .code b => .literal (.code b)

/-- Plain literals come back as they were written, one token each. -/
theorem tokenLoop_written {ls : List Literal} (hls : ∀ l ∈ ls, l.IsPlain) {fuel : Nat}
    (hfuel : ls.length < fuel) :
    Lexer.tokenLoop fuel false [] (ls.flatMap Literal.written) =
      .ok (ls.map fun l => .atom l.atom) := by
  induction ls generalizing fuel with
  | nil =>
    obtain ⟨fuel, rfl⟩ := Nat.exists_eq_add_of_lt hfuel
    simp [Lexer.tokenLoop, Lexer.skip]
  | cons l ls ih =>
    obtain ⟨fuel, rfl⟩ : ∃ n, fuel = n + 1 := ⟨fuel - 1, by omega⟩
    have hlen : ls.length < fuel := by simpa using hfuel
    have hrest := ih (fun l hl => hls l (List.mem_cons_of_mem _ hl)) hlen
    have hl := hls l List.mem_cons_self
    rw [List.flatMap_cons]
    cases l with
    | char c =>
      rw [Literal.written, List.singleton_append,
        Lexer.tokenLoop_plain fuel [] (Lexer.counts_false c) hl, hrest]
      rfl
    | code b =>
      rw [Literal.written, Lexer.tokenLoop_hexEscape, hrest]
      rfl

theorem length_le_length_written (ls : List Literal) :
    ls.length ≤ (ls.flatMap Literal.written).length := by
  induction ls with
  | nil => exact Nat.le_refl 0
  | cons l ls ih =>
    have hpos : 0 < l.written.length := by cases l <;> exact Nat.succ_pos _
    rw [List.flatMap_cons, List.length_append, List.length_cons]
    omega

/-- The tokens of the source text of a plain pattern are its literals. -/
theorem tokens_sourceOf {w : Bytes} (hw : IsPlain w) :
    Lexer.tokens (sourceOf w) = .ok ((sourceLiterals w).map fun l => .atom l.atom) := by
  rw [Lexer.tokens, ← flatMap_written]
  exact tokenLoop_written (fun l hl => isPlain_of_mem_sourceLiterals hw hl)
    (Nat.lt_succ_of_le (length_le_length_written _))

/-! ## The expression -/

/-- The expression of a literal without flags. -/
def Literal.expr : Literal → Expr
  | .char c => if c = '.' then .bytes [⟨0, 0xFF⟩] else .literal (Bytes.ofChar c)
  | .code b => .literal [b]

theorem dot_noFlags : Meaning.dot {} = .bytes [⟨0, 0xFF⟩] := by
  have hall : Text.Ranges.complement 0xFF [] = [⟨0, 0xFF⟩] := by
    simp [Text.Ranges.complement, Text.Ranges.normalize, Text.Ranges.gaps, Text.Ranges.join]
  simp only [Meaning.dot, Meaning.setExpr, Meaning.scalars, Meaning.top, if_true,
    Bool.false_eq_true, if_false, hall]
  rfl

theorem meaning_atom {l : Literal} (hl : l.IsPlain) :
    (Tree.atom l.atom).meaning {} = .ok (l.expr, {}) := by
  cases l with
  | code b =>
    have hb : decide (b < 0x80) = false := decide_eq_false hl
    simp [Tree.meaning, Meaning.atom, Meaning.literal, Literal.atom, Literal.expr, Except.map, hb]
  | char c =>
    have hcaret : '^' ∈ Literal.metaChars := by decide
    have hdollar : '$' ∈ Literal.metaChars := by decide
    simp only [Literal.atom]
    unfold Lexer.plain
    split
    · rw [Tree.meaning, Meaning.atom, dot_noFlags]
      rfl
    · exact absurd hcaret hl
    · exact absurd hdollar hl
    · rename_i hdot _ _
      have hdot' : ¬ c = '.' := hdot
      simp [Tree.meaning, Meaning.atom, Meaning.literal, Literal.expr, Except.map, hdot']

theorem meanings_atoms {ls : List Literal} (hls : ∀ l ∈ ls, l.IsPlain) :
    Tree.meanings {} (ls.map fun l => .atom l.atom) = .ok (ls.map Literal.expr, {}) := by
  induction ls with
  | nil => rfl
  | cons l ls ih =>
    rw [List.forall_mem_cons] at hls
    rw [List.map_cons, Tree.meanings, meaning_atom hls.1]
    simp only [bind, Except.bind, ih hls.2]
    rfl

/-- Items without parts stand one after the other in the tree. -/
theorem foldlM_atoms (atoms : List Atom) (items : List Tree) :
    (atoms.map Token.atom).foldlM Tree.State.step { items } =
      .ok { items := (atoms.map Tree.atom).reverse ++ items } := by
  induction atoms generalizing items with
  | nil => rfl
  | cons a atoms ih =>
    rw [List.map_cons, List.foldlM_cons]
    show Tree.State.step { items } (.atom a) >>= _ = _
    rw [Tree.State.step]
    show (atoms.map Token.atom).foldlM Tree.State.step { items := .atom a :: items } = _
    rw [ih]
    simp

theorem ofItems_reverse {items : List Tree} (htwo : 2 ≤ items.length) :
    Tree.ofItems items.reverse = .sequence items := by
  rw [← List.length_reverse] at htwo
  conv_rhs => rw [← List.reverse_reverse items]
  generalize items.reverse = reversed at htwo ⊢
  match reversed, htwo with
  | _ :: _ :: _, _ => rfl

theorem depths_atoms (ls : List Literal) :
    Tree.depths (ls.map fun l => .atom l.atom) = 0 := by
  induction ls with
  | nil => rfl
  | cons l ls ih =>
    have hatom : (Tree.atom l.atom).depth = 0 := by
      cases l with
      | code b => rfl
      | char c =>
        simp only [Literal.atom]
        unfold Lexer.plain
        split <;> rfl
    rw [List.map_cons, Tree.depths, hatom, ih, Nat.max_self]

/-- The tree of literals is the sequence of them; one alone is no sequence. -/
theorem ofTokens_atoms (ls : List Literal) :
    Tree.ofTokens (ls.map fun l => .atom l.atom) =
      .ok (Tree.ofItems (ls.map fun l => .atom l.atom).reverse) := by
  have hfold := foldlM_atoms (ls.map Literal.atom) []
  rw [List.map_map, List.map_map, List.append_nil] at hfold
  have hdepth : (Tree.ofItems (ls.map fun l => .atom l.atom).reverse).depth ≤ Tree.nestLimit := by
    match ls with
    | [] => decide
    | [l] =>
      have hone := depths_atoms [l]
      rw [List.map_cons, Tree.depths, Nat.max_eq_zero_iff] at hone
      exact hone.1.trans_le (Nat.zero_le _)
    | l :: l' :: ls =>
      rw [ofItems_reverse (by simp), Tree.depth, depths_atoms]
      decide
  show (ls.map (Token.atom ∘ Literal.atom)).foldlM Tree.State.step {} >>= _ = _
  rw [hfold]
  exact if_pos hdepth

theorem meaning_ofItems {ls : List Literal} (hls : ∀ l ∈ ls, l.IsPlain) :
    (Tree.ofItems (ls.map fun l => .atom l.atom).reverse).meaning {} =
      .ok (.inSequence (ls.map Literal.expr), {}) := by
  match ls with
  | [] => rfl
  | [l] =>
    refine (meaning_atom (hls l List.mem_cons_self)).trans ?_
    cases l with
    | code b => rfl
    | char c =>
      simp only [List.map_cons, Literal.expr]
      split <;> rfl
  | l :: l' :: ls =>
    rw [ofItems_reverse (by simp), Tree.meaning, meanings_atoms hls]
    rfl

theorem looks_expr (l : Literal) : l.expr.looks = [] := by
  cases l with
  | code b => rfl
  | char c =>
    rw [Literal.expr]
    split <;> rfl

theorem wellFormed_expr (l : Literal) : l.expr.WellFormed := by
  cases l with
  | code b => trivial
  | char c =>
    rw [Literal.expr]
    split <;> trivial

/-- The source text of a plain pattern is never refused, and stands for its literals in turn. -/
theorem ofSource_sourceOf {w : Bytes} (hw : IsPlain w) :
    Expr.ofSource (sourceOf w) = .ok (.inSequence ((sourceLiterals w).map Literal.expr)) := by
  have hls : ∀ l ∈ sourceLiterals w, l.IsPlain := fun l => isPlain_of_mem_sourceLiterals hw
  have hlooks : (Expr.inSequence ((sourceLiterals w).map Literal.expr)).looks = [] := by
    rw [Expr.looks_inSequence, List.flatMap_map, List.flatMap_eq_nil_iff]
    exact fun l _ => looks_expr l
  rw [Expr.ofSource, tokens_sourceOf hw]
  simp only [bind, Except.bind, ofTokens_atoms, meaning_ofItems hls, hlooks]
  rfl

/-! ## Matches -/

section

variable {h : Buffer}

theorem fitsAt_nil {i : Nat} (hi : i ≤ h.size) : FitsAt h [] i :=
  ⟨hi, fun _ hj => absurd hj (Nat.not_lt_zero _)⟩

theorem fitsAt_append {v w : Bytes} {i : Nat} :
    FitsAt h (v ++ w) i ↔ FitsAt h v i ∧ FitsAt h w (i + v.length) := by
  have hparts := Search.forall_getElem?_append (v := v) (w := w)
    (P := fun j x => x = some 0x2E ∨ h[i + j]? = x)
  simp only [FitsAt, Nat.add_assoc]
  rw [hparts, List.length_append]
  constructor
  · intro hfits
    obtain ⟨hsize, hv, hw⟩ := hfits
    exact ⟨⟨by omega, hv⟩, hsize, hw⟩
  · intro hfits
    obtain ⟨⟨-, hv⟩, hsize, hw⟩ := hfits
    exact ⟨hsize, hv, hw⟩

/-- Without dots the bytes fit only where they stand. -/
theorem fitsAt_iff_occursAt {w : Bytes} (hw : 0x2E ∉ w) {i : Nat} :
    FitsAt h w i ↔ OccursAt h w i := by
  refine and_congr_right fun _ => forall_congr' fun j => forall_congr' fun _ => ?_
  exact or_iff_right fun hdot => hw (List.mem_of_getElem? hdot)

theorem contains_allBytes (b : UInt8) : Text.Ranges.contains [⟨0, 0xFF⟩] b.toNat = true := by
  have hb := b.toNat_lt
  simp only [Text.Ranges.contains, Text.Range.contains, List.any_cons, List.any_nil,
    Bool.or_false, Bool.and_eq_true, decide_eq_true_eq]
  omega

/-- The set of all bytes matches wherever there is a byte. -/
theorem spans_allBytes (i j : Nat) :
    Expr.Spans h (.bytes [⟨0, 0xFF⟩]) i j ↔ FitsAt h [0x2E] i ∧ j = i + 1 := by
  simp only [Expr.Spans, contains_allBytes, and_true, FitsAt, List.length_singleton]
  refine and_congr_left fun _ => ?_
  constructor
  · intro hexists
    obtain ⟨b, hb⟩ := hexists
    refine ⟨(Array.getElem?_eq_some_iff.1 hb).1, fun j hj => .inl ?_⟩
    obtain rfl : j = 0 := by omega
    rfl
  · intro hfits
    exact ⟨h[i], Array.getElem?_eq_getElem hfits.1⟩

/-- A literal matches where its bytes fit. -/
theorem spans_expr {l : Literal} (hl : l.IsPlain) (i j : Nat) :
    Expr.Spans h l.expr i j ↔ FitsAt h l.bytes i ∧ j = i + l.bytes.length := by
  cases l with
  | code b =>
    have hdot : 0x2E ∉ [b] := by
      rw [List.mem_singleton]
      rintro rfl
      exact hl (by decide)
    simp only [Literal.expr, Literal.bytes, Expr.Spans, fitsAt_iff_occursAt hdot]
  | char c =>
    rw [Literal.expr, Literal.bytes]
    split
    · rename_i hc
      have hbytes : Bytes.ofChar '.' = [0x2E] := by decide
      rw [hc, hbytes, spans_allBytes]
      rfl
    · rename_i hc
      have hdot : 0x2E ∉ Bytes.ofChar c := fun hmem => hc (Utf8.eq_of_mem_ofChar hmem (by decide))
      simp only [Expr.Spans, fitsAt_iff_occursAt hdot]

theorem spansInTurn_exprs {ls : List Literal} (hls : ∀ l ∈ ls, l.IsPlain) {i j : Nat}
    (hi : i ≤ h.size) :
    Expr.SpansInTurn h (ls.map Literal.expr) i j ↔
      FitsAt h (ls.flatMap Literal.bytes) i ∧ j = i + (ls.flatMap Literal.bytes).length := by
  induction ls generalizing i with
  | nil =>
    simp only [List.map_nil, Expr.SpansInTurn, List.flatMap_nil, fitsAt_nil hi, true_and,
      List.length_nil, Nat.add_zero, eq_comm]
  | cons l ls ih =>
    rw [List.forall_mem_cons] at hls
    simp only [List.map_cons, Expr.SpansInTurn, spans_expr hls.1, List.flatMap_cons, fitsAt_append,
      List.length_append]
    constructor
    · intro hmatch
      obtain ⟨k, ⟨hl, rfl⟩, hrest⟩ := hmatch
      obtain ⟨hfits, rfl⟩ := (ih hls.2 hl.1).1 hrest
      exact ⟨⟨hl, hfits⟩, by omega⟩
    · intro hmatch
      obtain ⟨⟨hl, hfits⟩, rfl⟩ := hmatch
      exact ⟨_, ⟨hl, rfl⟩, (ih hls.2 hl.1).2 ⟨hfits, by omega⟩⟩

/-- **Ends of a plain pattern.** Its matches end behind the offsets at which its bytes fit. -/
theorem endsAt_ofSource {w : Bytes} (hw : IsPlain w) {e : Expr}
    (he : Expr.ofSource (sourceOf w) = .ok e) (j : Nat) :
    Expr.EndsAt h e j ↔ ∃ i, FitsAt h w i ∧ j = i + w.length := by
  rw [ofSource_sourceOf hw] at he
  obtain rfl := Except.ok.inj he
  have hls : ∀ l ∈ sourceLiterals w, l.IsPlain := fun l => isPlain_of_mem_sourceLiterals hw
  simp only [Expr.EndsAt, Expr.spans_inSequence]
  constructor
  · intro hmatch
    obtain ⟨-, i, hi, hspans⟩ := hmatch
    have hfits := (spansInTurn_exprs hls hi).1 hspans
    rw [flatMap_bytes] at hfits
    exact ⟨i, hfits⟩
  · intro hmatch
    obtain ⟨i, hfits, rfl⟩ := hmatch
    have hi : i ≤ h.size := Nat.le_trans (Nat.le_add_right ..) hfits.1
    refine ⟨hfits.1, i, hi, (spansInTurn_exprs hls hi).2 ?_⟩
    rw [flatMap_bytes]
    exact ⟨hfits, rfl⟩

theorem wellFormed_ofSource {w : Bytes} (hw : IsPlain w) {e : Expr}
    (he : Expr.ofSource (sourceOf w) = .ok e) : e.WellFormed := by
  rw [ofSource_sourceOf hw] at he
  obtain rfl := Except.ok.inj he
  refine Expr.wellFormed_inSequence fun e he => ?_
  obtain ⟨l, -, rfl⟩ := List.mem_map.1 he
  exact wellFormed_expr l

/-- The offsets at which a match of a plain pattern ends, as a list. -/
theorem matchEnds_ofSource {w : Bytes} (hw : IsPlain w) {e : Expr}
    (he : Expr.ofSource (sourceOf w) = .ok e) :
    e.matchEnds h =
      ((List.range (h.size + 1)).filter fun i => FitsAt h w i).map (· + w.length) := by
  have hshift : ((List.range (h.size + 1)).filter fun i => FitsAt h w i).Pairwise
      fun i k => i + w.length < k + w.length :=
    (List.pairwise_lt_range.filter _).imp fun hlt => Nat.add_lt_add_right hlt _
  refine (Expr.pairwise_matchEnds e).eq_of_mem_iff (List.pairwise_map.2 hshift) fun j => ?_
  rw [Expr.mem_matchEnds (wellFormed_ofSource hw he), endsAt_ofSource hw he, List.mem_map]
  refine exists_congr fun i => ?_
  rw [List.mem_filter, List.mem_range, decide_eq_true_eq, eq_comm]
  refine and_congr_left fun _ => ⟨fun hfits => ⟨?_, hfits⟩, fun hfits => hfits.2⟩
  exact Nat.lt_succ_of_le (Nat.le_trans (Nat.le_add_right ..) hfits.1)

end

end ByteSearch.Regex
