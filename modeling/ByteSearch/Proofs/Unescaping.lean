import ByteSearch.Proofs.PlainPatterns
import ByteSearch.Proofs.SourceText

/-!
# Reading a source text back

`unescape` reads a source text as bytes again: every escape `\xNN` as its byte, and any other
character as its encoding. In the source text of a pattern without a backslash every backslash
begins an escape, so the literals are read back one by one (`unescape_written`) and give the pattern
again.

Main statement: `unescape_sourceOf`.
-/

namespace ByteSearch.Regex

/-- The bytes of a source text. A backslash that begins no escape with two hexadecimal digits stands
for itself. -/
def unescape : List Char → Bytes
  | [] => []
  | '\\' :: 'x' :: high :: low :: rest =>
    match Lexer.hexValue? high, Lexer.hexValue? low with
    | some m, some n => UInt8.ofNat (16 * m + n) :: unescape rest
    | _, _ => Bytes.ofChar '\\' ++ unescape ('x' :: high :: low :: rest)
  | c :: rest => Bytes.ofChar c ++ unescape rest

theorem unescape_cons {c : Char} (hc : c ≠ '\\') (rest : List Char) :
    unescape (c :: rest) = Bytes.ofChar c ++ unescape rest := by
  conv_lhs => unfold unescape
  split
  · rename_i heq
    cases heq
  · rename_i heq
    exact absurd (List.cons.inj heq).1 hc
  · rename_i heq
    obtain ⟨rfl, rfl⟩ := List.cons.inj heq
    rfl

theorem unescape_hexEscape (b : UInt8) (rest : List Char) :
    unescape (Bytes.hexEscape b ++ rest) = b :: unescape rest := by
  have hb := b.toNat_lt
  have hhigh : Lexer.hexValue? (Bytes.hexDigit (b.toNat / 16)) = some (b.toNat / 16) :=
    Lexer.hexValue?_hexDigit (by omega)
  have hlow : Lexer.hexValue? (Bytes.hexDigit (b.toNat % 16)) = some (b.toNat % 16) :=
    Lexer.hexValue?_hexDigit (by omega)
  show unescape ('\\' :: 'x' :: _ :: _ :: rest) = _
  rw [unescape, hhigh, hlow]
  simp only
  rw [Nat.div_add_mod, UInt8.ofNat_toNat]

/-- Literals are read back one by one, if none of them is a backslash. -/
theorem unescape_written {ls : List Literal} (hls : .char '\\' ∉ ls) :
    unescape (ls.flatMap Literal.written) = ls.flatMap Literal.bytes := by
  induction ls with
  | nil => rfl
  | cons l ls ih =>
    rw [List.mem_cons, not_or] at hls
    rw [List.flatMap_cons, List.flatMap_cons, ← ih hls.2]
    cases l with
    | char c =>
      have hc : c ≠ '\\' := fun heq => hls.1 (congrArg Literal.char heq.symm)
      exact unescape_cons hc _
    | code b => exact unescape_hexEscape b _

theorem backslash_not_mem_sourceLiterals {p : Bytes} (hp : 0x5C ∉ p) :
    .char '\\' ∉ sourceLiterals p := by
  intro hmem
  have hbyte : 0x5C ∈ Literal.bytes (.char '\\') := by decide
  have hbytes : 0x5C ∈ (sourceLiterals p).flatMap Literal.bytes :=
    List.mem_flatMap.2 ⟨_, hmem, hbyte⟩
  rw [flatMap_bytes] at hbytes
  exact hp hbytes

theorem unescape_sourceOf_eq {p : Bytes} (hp : 0x5C ∉ p) : unescape (sourceOf p) = p := by
  rw [← flatMap_written, unescape_written (backslash_not_mem_sourceLiterals hp), flatMap_bytes]

theorem eq_of_sourceOf_eq {p q : Bytes} (hp : 0x5C ∉ p) (hq : 0x5C ∉ q)
    (heq : sourceOf q = sourceOf p) : q = p := by
  rw [← unescape_sourceOf_eq hp, ← unescape_sourceOf_eq hq, heq]

theorem backslash_not_mem_of_isPlain {p : Bytes} (hp : IsPlain p) : 0x5C ∉ p :=
  fun hmem => hp 0x5C hmem (by decide)

open ByteSearch.Search (Pattern) in
/-- **Source texts without backslashes of the pattern.** The source text of a pattern without a
backslash, also when it is written from one fault to the next, is read back as the pattern. So no
other pattern without a backslash has the same source text, and two plain patterns that are compiled
from one source text are the same. -/
theorem unescape_sourceOf {p : Bytes} (hp : 0x5C ∉ p) :
    unescape (sourceOf p) = p ∧ unescape (sourceInRuns p) = p ∧
      (∀ q, 0x5C ∉ q → (sourceOf q = sourceOf p ↔ q = p)) ∧
      ∀ q q' : Pattern, IsPlain q.bytes → IsPlain q'.bytes →
        sourceOf q.bytes = sourceOf q'.bytes → q = q' := by
  refine ⟨unescape_sourceOf_eq hp, ?_, fun q hq => ⟨eq_of_sourceOf_eq hp hq, ?_⟩, ?_⟩
  · rw [sourceInRuns_eq]
    exact unescape_sourceOf_eq hp
  · rintro rfl
    rfl
  · rintro ⟨q, hne⟩ ⟨q', hne'⟩ hq hq' heq
    obtain rfl : q = q' := eq_of_sourceOf_eq (backslash_not_mem_of_isPlain hq')
      (backslash_not_mem_of_isPlain hq) heq
    rfl

/-- A stray continuation byte, a character of two bytes, an overlong form, a surrogate, and a
character that breaks off at the end. -/
theorem unescape_sourceOf_broken :
    unescape "\\x80é\\xC0\\x80\\xED\\xA0\\x80\\xE2\\x82".toList =
        [0x80, 0xC3, 0xA9, 0xC0, 0x80, 0xED, 0xA0, 0x80, 0xE2, 0x82] ∧
      sourceOf [0x80, 0xC3, 0xA9, 0xC0, 0x80, 0xED, 0xA0, 0x80, 0xE2, 0x82] ≠ sourceOf [0xE9] := by
  have hread := unescape_sourceOf
    (p := [0x80, 0xC3, 0xA9, 0xC0, 0x80, 0xED, 0xA0, 0x80, 0xE2, 0x82]) (by decide)
  have hsource : sourceOf [0x80, 0xC3, 0xA9, 0xC0, 0x80, 0xED, 0xA0, 0x80, 0xE2, 0x82] =
      "\\x80é\\xC0\\x80\\xED\\xA0\\x80\\xE2\\x82".toList := by decide +kernel
  refine ⟨?_, fun heq => ?_⟩
  · rw [← hsource]
    exact hread.1
  · exact absurd ((hread.2.2.1 [0xE9] (by decide)).1 heq.symm) (by decide)

/-- With a backslash in the pattern the source text no longer tells: the letters of an escape and
the byte for which it stands have the same one. -/
example : sourceOf [0x5C, 0x78, 0x46, 0x46] = sourceOf [0xFF] := by
  decide +kernel

end ByteSearch.Regex
