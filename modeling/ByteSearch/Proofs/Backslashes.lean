import ByteSearch.Proofs.EngineMatches
import ByteSearch.Proofs.SourceText
import Mathlib.Algebra.Ring.Parity

/-!
# Backslashes in front of an escape

A byte that belongs to no character is written as an escape `\xNN`, whatever stands in front of it.
The notation reads backslashes in pairs. So the escape is read as one only behind an even number of
them, and otherwise its own backslash is taken for the second one of a pair.

The number of backslashes is that of the pattern (`trailingBackslashes_written`): another byte that
is escaped ends with a digit, and what is copied is not changed. What the main loop of the lexer
makes of them and of the escape is `escapeTokens`.

Main statements: `escape_behind_backslashes`, and `escape_swallowed` for the shortest pattern whose
escape is not read as one.
-/

namespace ByteSearch.Regex

/-! ## Counting -/

/-- The number of backslashes at the end of a byte string. -/
def trailingBackslashes (s : Bytes) : Nat :=
  (s.reverse.takeWhile (· == 0x5C)).length

theorem trailingBackslashes_append {s s' : Bytes}
    (h : trailingBackslashes s = trailingBackslashes s') (t : Bytes) :
    trailingBackslashes (s ++ t) = trailingBackslashes (s' ++ t) := by
  simp only [trailingBackslashes, List.reverse_append, List.takeWhile_append] at h ⊢
  split
  · rw [List.length_append, List.length_append, h]
  · rfl

theorem trailingBackslashes_concat (s : Bytes) :
    trailingBackslashes (s ++ [0x5C]) = trailingBackslashes s + 1 := by
  simp [trailingBackslashes]

theorem trailingBackslashes_concat_of_ne {b : UInt8} (hb : b ≠ 0x5C) (s : Bytes) :
    trailingBackslashes (s ++ [b]) = 0 := by
  simp [trailingBackslashes, hb]

theorem digit_ne_backslash {n : Nat} (hn : n < 16) : Mark.digit n ≠ 0x5C := by
  have hall : ∀ n : Fin 16, Mark.digit n ≠ 0x5C := by decide
  exact hall ⟨n, hn⟩

/-- An escape ends with a digit. -/
theorem trailingBackslashes_escape (b : UInt8) (s : Bytes) :
    trailingBackslashes (s ++ (Mark.escaped b).written) = 0 := by
  have hb := b.toNat_lt
  have hlast : Mark.digit (b.toNat % 16) ≠ 0x5C := digit_ne_backslash (by omega)
  have hconcat := trailingBackslashes_concat_of_ne hlast
    (s ++ [0x5C, 0x78, Mark.digit (b.toNat / 16)])
  rwa [List.append_assoc] at hconcat

/-- What is written ends with as many backslashes as what is read, if no backslash is escaped. -/
theorem trailingBackslashes_written {ms : List Mark} (hms : ∀ b, .escaped b ∈ ms → b ≠ 0x5C) :
    trailingBackslashes (ms.flatMap Mark.written) =
      trailingBackslashes (ms.flatMap Mark.bytes) := by
  -- from the right, because only the last mark can end the run of backslashes
  induction ms using List.reverseRecOn with
  | nil => rfl
  | append_singleton ms mark ih =>
    rw [List.flatMap_append, List.flatMap_append, List.flatMap_singleton, List.flatMap_singleton]
    cases mark with
    | copied sequence =>
      exact trailingBackslashes_append
        (ih fun b hb => hms b (List.mem_append_left _ hb)) sequence
    | escaped b =>
      have hb := hms b (List.mem_append_right _ (List.mem_singleton_self _))
      rw [trailingBackslashes_escape]
      exact (trailingBackslashes_concat_of_ne hb _).symm

theorem trailingBackslashes_ofChar {c : Char} (hc : c ≠ '\\') (s : Bytes) :
    trailingBackslashes (s ++ Bytes.ofChar c) = 0 := by
  have hne : Bytes.ofChar c ≠ [] := String.utf8EncodeChar_ne_nil
  have hlast : (Bytes.ofChar c).getLast hne ≠ 0x5C := by
    intro heq
    have hmem : 0x5C ∈ Bytes.ofChar c := heq ▸ List.getLast_mem hne
    exact hc (Utf8.eq_of_mem_ofChar hmem (by decide))
  rw [← List.dropLast_append_getLast hne, ← List.append_assoc]
  exact trailingBackslashes_concat_of_ne hlast _

/-- The backslashes at the end of a text are those at the end of its bytes. -/
theorem exists_eq_append_backslashes (text : List Char) :
    ∃ front, text = front ++ List.replicate (trailingBackslashes (Bytes.ofChars text)) '\\' ∧
      front.getLast? ≠ some '\\' := by
  induction text using List.reverseRecOn with
  | nil => exact ⟨[], rfl, by simp⟩
  | append_singleton text c ih =>
    rw [Bytes.ofChars_append, Bytes.ofChars_cons, Bytes.ofChars_nil, List.append_nil]
    by_cases hc : c = '\\'
    · obtain ⟨front, htext, hfront⟩ := ih
      have hbyte : Bytes.ofChar c = [0x5C] := by
        rw [hc]
        decide
      refine ⟨front, ?_, hfront⟩
      rw [hbyte, trailingBackslashes_concat, List.replicate_succ', ← List.append_assoc, ← htext, hc]
    · refine ⟨text ++ [c], ?_, ?_⟩
      · rw [trailingBackslashes_ofChar hc, List.replicate_zero, List.append_nil]
      · rw [List.getLast?_concat]
        exact fun heq => hc (Option.some.inj heq)

/-! ## Reading -/

namespace Lexer

/-- The token of a backslash behind a backslash. -/
def backslash : Token :=
  .atom (.literal (.char '\\'))

theorem counts_backslash (x : Bool) : Counts x '\\' := fun _ => by decide

theorem tokenLoop_two_backslashes (fuel : Nat) (x : Bool) (saved : List Bool) (rest : List Char) :
    tokenLoop (fuel + 1) x saved ('\\' :: '\\' :: rest) =
      (tokenLoop fuel x saved rest).map (backslash :: ·) := by
  have hescape : escape x ('\\' :: rest) = .ok (.literal (.char '\\'), rest) := rfl
  rw [tokenLoop]
  simp only [skip_of_counts (counts_backslash x), hescape, bind, Except.bind]
  rfl

/-- Backslashes are read in pairs. -/
theorem tokenLoop_backslashes (fuel n : Nat) (x : Bool) (saved : List Bool) (rest : List Char) :
    tokenLoop (fuel + n) x saved (List.replicate (2 * n) '\\' ++ rest) =
      (tokenLoop fuel x saved rest).map (List.replicate n backslash ++ ·) := by
  induction n with
  | zero =>
    show tokenLoop fuel x saved rest = _
    cases tokenLoop fuel x saved rest <;> rfl
  | succ n ih =>
    have hfront : List.replicate (2 * (n + 1)) '\\' ++ rest =
        '\\' :: '\\' :: (List.replicate (2 * n) '\\' ++ rest) := rfl
    rw [hfront, ← Nat.add_assoc, tokenLoop_two_backslashes, ih]
    cases tokenLoop fuel x saved rest <;> rfl

theorem hexDigit_not_meta {n : Nat} (hn : n < 16) : Bytes.hexDigit n ∉ Literal.metaChars := by
  have hall : ∀ n : Fin 16, Bytes.hexDigit n ∉ Literal.metaChars := by decide
  exact hall ⟨n, hn⟩

/-- Without its backslash an escape is read as a letter and two digits. -/
theorem tokenLoop_letters (fuel : Nat) (x : Bool) (saved : List Bool) (b : UInt8)
    (rest : List Char) :
    tokenLoop (fuel + 3) x saved ((Bytes.hexEscape b).drop 1 ++ rest) =
      (tokenLoop fuel x saved rest).map
        (((Bytes.hexEscape b).drop 1).map (fun c => .atom (plain c)) ++ ·) := by
  have hb := b.toNat_lt
  have hhigh : b.toNat / 16 < 16 := by omega
  have hlow : b.toNat % 16 < 16 := by omega
  have hletter : Counts x 'x' := fun _ => by decide
  show tokenLoop (fuel + 1 + 1 + 1) x saved ('x' :: _ :: _ :: rest) = _
  rw [tokenLoop_plain _ _ hletter (by decide),
    tokenLoop_plain _ _ (counts_hexDigit x hhigh) (hexDigit_not_meta hhigh),
    tokenLoop_plain _ _ (counts_hexDigit x hlow) (hexDigit_not_meta hlow)]
  cases tokenLoop fuel x saved rest <;> rfl

/-- The tokens of backslashes and of an escape behind them. One backslash too many takes that of the
escape for its own pair, and leaves the letter and the digits. -/
def escapeTokens (n : Nat) (b : UInt8) : List Token :=
  if Even n then List.replicate (n / 2) backslash ++ [.atom (.literal (.code b))]
  else
    List.replicate (n / 2 + 1) backslash ++
      ((Bytes.hexEscape b).drop 1).map fun c => .atom (plain c)

theorem escapeTokens_two_mul (k : Nat) (b : UInt8) :
    escapeTokens (2 * k) b = List.replicate k backslash ++ [.atom (.literal (.code b))] := by
  rw [escapeTokens, if_pos (even_two_mul k), Nat.mul_div_cancel_left k Nat.two_pos]

theorem escapeTokens_two_mul_add_one (k : Nat) (b : UInt8) :
    escapeTokens (2 * k + 1) b = List.replicate (k + 1) backslash ++
      ((Bytes.hexEscape b).drop 1).map fun c => .atom (plain c) := by
  have hhalf : (2 * k + 1) / 2 = k := by omega
  rw [escapeTokens, if_neg (Nat.not_even_two_mul_add_one k), hhalf]

/-- The byte is among the tokens only behind pairs of backslashes. -/
theorem code_mem_escapeTokens (n : Nat) (b : UInt8) :
    .atom (.literal (.code b)) ∈ escapeTokens n b ↔ Even n := by
  rcases Nat.even_or_odd' n with ⟨k, rfl | rfl⟩
  · rw [escapeTokens_two_mul]
    exact iff_of_true (List.mem_append_right _ (List.mem_singleton_self _)) (even_two_mul k)
  · rw [escapeTokens_two_mul_add_one]
    refine iff_of_false (fun hmem => ?_) (Nat.not_even_two_mul_add_one k)
    rcases List.mem_append.1 hmem with hpair | hletter
    · exact nomatch List.eq_of_mem_replicate hpair
    · obtain ⟨c, -, hc⟩ := List.mem_map.1 hletter
      simp only [plain] at hc
      split at hc <;> cases hc

/-- What is read for backslashes and an escape behind them does not depend on what follows. -/
theorem tokenLoop_escape (fuel n : Nat) (x : Bool) (saved : List Bool) (b : UInt8)
    (rest : List Char) :
    tokenLoop (fuel + (escapeTokens n b).length) x saved
        (List.replicate n '\\' ++ (Bytes.hexEscape b ++ rest)) =
      (tokenLoop fuel x saved rest).map (escapeTokens n b ++ ·) := by
  rcases Nat.even_or_odd' n with ⟨k, rfl | rfl⟩
  · have hfuel : fuel + (escapeTokens (2 * k) b).length = fuel + 1 + k := by
      rw [escapeTokens_two_mul, List.length_append, List.length_replicate, List.length_singleton]
      omega
    rw [hfuel, tokenLoop_backslashes, tokenLoop_hexEscape, escapeTokens_two_mul]
    cases tokenLoop fuel x saved rest with
    | error r => rfl
    | ok more => simp [Except.map]
  · have hfuel : fuel + (escapeTokens (2 * k + 1) b).length = fuel + 3 + (k + 1) := by
      rw [escapeTokens_two_mul_add_one, List.length_append, List.length_replicate]
      show fuel + (k + 1 + 3) = _
      omega
    -- the backslash of the escape is the second one of the last pair
    have hpair : List.replicate (2 * k + 1) '\\' ++ (Bytes.hexEscape b ++ rest) =
        List.replicate (2 * (k + 1)) '\\' ++ ((Bytes.hexEscape b).drop 1 ++ rest) := by
      have hone : List.replicate (2 * (k + 1)) '\\' =
          List.replicate (2 * k + 1) '\\' ++ ['\\'] := List.replicate_succ'
      rw [hone, List.append_assoc]
      rfl
    rw [hfuel, hpair, tokenLoop_backslashes, tokenLoop_letters, escapeTokens_two_mul_add_one]
    cases tokenLoop fuel x saved rest with
    | error r => rfl
    | ok more => simp [Except.map]

end Lexer

/-! ## Escapes in a source text -/

/-- What becomes of a literal when a pattern is read byte by byte. -/
def Literal.mark : Literal → Mark
  | .char c => .copied (Bytes.ofChar c)
  | .code b => .escaped b

theorem map_mark_sourceLiterals (p : Bytes) : (sourceLiterals p).map Literal.mark = marks p := by
  rw [marks_eq, sourceLiterals, List.map_flatMap]
  congr 1
  funext piece
  cases piece with
  | char c => rfl
  | malformed bytes => exact List.map_map ..

theorem ofChars_flatMap_written (ls : List Literal) :
    Bytes.ofChars (ls.flatMap Literal.written) = (ls.map Literal.mark).flatMap Mark.written := by
  induction ls with
  | nil => rfl
  | cons l ls ih =>
    rw [List.flatMap_cons, Bytes.ofChars_append, ih, List.map_cons, List.flatMap_cons]
    cases l with
    | char c => rw [Literal.written, Bytes.ofChars_cons, Bytes.ofChars_nil, List.append_nil]; rfl
    | code b => rw [Literal.written, ofChars_hexEscape]; rfl

/-- Where a byte is escaped the source text has its escape. -/
theorem exists_eq_append_hexEscape {p : Bytes} {before behind : List Mark} {b : UInt8}
    (hp : marks p = before ++ .escaped b :: behind) :
    ∃ text rest, sourceOf p = text ++ (Bytes.hexEscape b ++ rest) ∧
      Bytes.ofChars text = before.flatMap Mark.written ∧
      Bytes.ofChars rest = behind.flatMap Mark.written := by
  rw [← map_mark_sourceLiterals] at hp
  obtain ⟨ls, ls', hliterals, rfl, hbehind⟩ := List.map_eq_append_iff.1 hp
  obtain ⟨l, ls', rfl, hl, rfl⟩ := List.map_eq_cons_iff.1 hbehind
  have hcode : l = .code b := by
    cases l with
    | char c => cases hl
    | code b' => exact congrArg Literal.code (Mark.escaped.inj hl)
  refine ⟨_, _, ?_, ofChars_flatMap_written ls, ofChars_flatMap_written ls'⟩
  rw [← flatMap_written, hliterals, List.flatMap_append, List.flatMap_cons, hcode]
  rfl

/-- **Backslashes in front of an escape.** Wherever a byte of a pattern is escaped, there are as
many backslashes in front of the escape as in front of the byte. Where the lexer comes to them it
reads them together with the escape, whatever stands behind it, and the byte is among what it reads
just if their number is even. -/
theorem escape_behind_backslashes {p : Bytes} {before behind : List Mark} {b : UInt8}
    (hp : marks p = before ++ .escaped b :: behind) :
    let n := trailingBackslashes (before.flatMap Mark.bytes)
    p = before.flatMap Mark.bytes ++ b :: behind.flatMap Mark.bytes ∧
      trailingBackslashes (before.flatMap Mark.written) = n ∧
      ∃ front rest,
        sourceOf p = front ++ (List.replicate n '\\' ++ (Bytes.hexEscape b ++ rest)) ∧
        front.getLast? ≠ some '\\' ∧
        Bytes.ofChars (front ++ List.replicate n '\\') = before.flatMap Mark.written ∧
        Bytes.ofChars rest = behind.flatMap Mark.written ∧
        (∀ (fuel : Nat) (x : Bool) (saved : List Bool),
          Lexer.tokenLoop (fuel + (Lexer.escapeTokens n b).length) x saved
              (List.replicate n '\\' ++ (Bytes.hexEscape b ++ rest)) =
            (Lexer.tokenLoop fuel x saved rest).map (Lexer.escapeTokens n b ++ ·)) ∧
        (.atom (.literal (.code b)) ∈ Lexer.escapeTokens n b ↔ Even n) := by
  intro n
  have hbytes := flatMap_bytes_marks p
  rw [hp, List.flatMap_append, List.flatMap_cons] at hbytes
  have hcount : trailingBackslashes (before.flatMap Mark.written) = n := by
    refine trailingBackslashes_written fun c hc => ?_
    have hmem : c ∈ (marks p).filterMap Mark.escape? := by
      rw [hp]
      exact List.mem_filterMap.2 ⟨_, List.mem_append_left _ hc, rfl⟩
    -- a byte that is escaped is not ASCII
    rintro rfl
    exact absurd (le_of_mem_escaped hmem) (by decide)
  obtain ⟨text, rest, hsource, htext, hrest⟩ := exists_eq_append_hexEscape hp
  obtain ⟨front, hfront, hlast⟩ := exists_eq_append_backslashes text
  rw [htext, hcount] at hfront
  refine ⟨hbytes.symm, hcount, front, rest, ?_, hlast, ?_, hrest, fun fuel x saved => ?_, ?_⟩
  · rw [hsource, hfront, List.append_assoc]
  · rw [← hfront, htext]
  · exact Lexer.tokenLoop_escape fuel n x saved b rest
  · exact Lexer.code_mem_escapeTokens n b

/-- Three backslashes between two bytes that are escaped. -/
theorem escape_behind_backslashes_three :
    let before : List Mark := [.escaped 0xFE, .copied [0x5C], .copied [0x5C], .copied [0x5C]]
    marks [0xFE, 0x5C, 0x5C, 0x5C, 0xFF, 0x62] =
        before ++ .escaped 0xFF :: [.copied [0x62]] ∧
      trailingBackslashes (before.flatMap Mark.written) = 3 ∧
      ∃ rest, Lexer.tokenLoop 6 false [] (List.replicate 3 '\\' ++ (Bytes.hexEscape 0xFF ++ rest)) =
        (Lexer.tokenLoop 1 false [] rest).map fun more =>
          List.replicate 2 Lexer.backslash ++
            ['x', 'F', 'F'].map (fun c => .atom (Lexer.plain c)) ++ more := by
  intro before
  have hmarks : marks [0xFE, 0x5C, 0x5C, 0x5C, 0xFF, 0x62] =
      before ++ .escaped 0xFF :: [.copied [0x62]] := by decide +kernel
  have htokens : Lexer.escapeTokens 3 0xFF = List.replicate 2 Lexer.backslash ++
      ['x', 'F', 'F'].map fun c => .atom (Lexer.plain c) :=
    Lexer.escapeTokens_two_mul_add_one 1 0xFF
  obtain ⟨-, hcount, front, rest, -, -, -, -, hreads, -⟩ := escape_behind_backslashes hmarks
  have hthree : trailingBackslashes (before.flatMap Mark.bytes) = 3 := by decide
  rw [hthree, htokens] at hreads
  rw [hthree] at hcount
  exact ⟨hmarks, hcount, rest, hreads 1 false []⟩

open ByteSearch.Search in
/-- A backslash and a byte that is not UTF-8. The escape of the byte stands behind an odd number of
backslashes, and the pattern matches the four letters of the escape, but not the byte. -/
theorem escape_swallowed :
    marks [0x5C, 0xFF] = [.copied [0x5C]] ++ .escaped 0xFF :: [] ∧
      ¬ Even (trailingBackslashes ([Mark.copied [0x5C]].flatMap Mark.written)) ∧
      ((engine Engine.standardBudget).run #[0x5C, 0x78, 0x46, 0x46]
        ⟨[0x5C, 0xFF], by decide⟩).into Sink.empty = (⟨#[⟨4, 0⟩], 0⟩ : Collector) ∧
      ((engine Engine.standardBudget).run #[0x5C, 0xFF] ⟨[0x5C, 0xFF], by decide⟩).into
        Sink.empty = (⟨#[], 0⟩ : Collector) := by
  have hsource : sourceOf [0x5C, 0xFF] = ['\\', '\\', 'x', 'F', 'F'] := by decide +kernel
  -- no byte `FF` is left in the expression
  have he : Expr.ofSource (sourceOf [0x5C, 0xFF]) =
      .ok (.literal [0x5C, 0x78, 0x46, 0x46]) := by
    rw [hsource]
    rfl
  have hcapacity : (Compiled.ofExpr (.literal [0x5C, 0x78, 0x46, 0x46])).minimumCapacity ≤
      Engine.standardBudget.capacity := by decide +kernel
  have hcollects (h : Buffer) :
      ((engine Engine.standardBudget).run h ⟨[0x5C, 0xFF], by decide⟩).into Sink.empty =
        (⟨(((Expr.literal [0x5C, 0x78, 0x46, 0x46]).matchEnds h).map
          fun j => ⟨j, Pattern.identifier⟩).toArray, 0⟩ : Collector) := by
    have hdone := engine_completes rfl (p := ⟨[0x5C, 0xFF], by decide⟩) he hcapacity h
    obtain ⟨e, he', hsteps⟩ := engine_steps hdone
    obtain rfl := Except.ok.inj (he.symm.trans he')
    rw [Run.into, hsteps, Collector.run_record]
    exact congrArg (Collector.mk · 0) (Array.empty_append ..)
  refine ⟨by decide +kernel, by decide, ?_, ?_⟩
  · rw [hcollects]
    decide +kernel
  · rw [hcollects]
    decide +kernel

end ByteSearch.Regex
