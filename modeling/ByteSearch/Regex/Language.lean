import ByteSearch.Regex.Expr
import ByteSearch.Search.Occurrence

/-!
# What an expression matches

`Expr.Spans h e i j` says that the expression `e` matches the haystack `h` from position `i` to
position `j`. Assertions look at the whole haystack, not only at what is matched. Greed and the
order of alternatives do not occur: they would choose between matches, and all of them count here.
-/

namespace ByteSearch.Regex

open ByteSearch.Search (OccursAt)

/-- The bytes of words: ASCII letters and digits, and the low line. -/
def isWordByte (b : UInt8) : Bool :=
  (0x30 ≤ b && b ≤ 0x39) || (0x41 ≤ b && b ≤ 0x5A) || b == 0x5F || (0x61 ≤ b && b ≤ 0x7A)

namespace Look

/-- The byte before a position. -/
def before? (h : Buffer) (i : Nat) : Option UInt8 :=
  if i = 0 then none else h[i - 1]?

/-- Whether a byte is there and belongs to a word. -/
def inWord (b : Option UInt8) : Bool :=
  b.any isWordByte

/-- Whether an assertion holds at a position. -/
def holds (h : Buffer) (i : Nat) : Look → Bool
  | .textStart => i == 0
  | .textEnd => i == h.size
  | .lineStart => i == 0 || before? h i == some 0x0A
  | .lineEnd => i == h.size || h[i]? == some 0x0A
  | .crlfStart =>
    i == 0 || before? h i == some 0x0A || (before? h i == some 0x0D && h[i]? != some 0x0A)
  | .crlfEnd =>
    i == h.size || h[i]? == some 0x0D || (h[i]? == some 0x0A && before? h i != some 0x0D)
  | .wordBoundary => inWord (before? h i) != inWord h[i]?
  | .notWordBoundary => inWord (before? h i) == inWord h[i]?
  | .wordStart => !inWord (before? h i) && inWord h[i]?
  | .wordEnd => inWord (before? h i) && !inWord h[i]?
  | .wordStartHalf => !inWord (before? h i)
  | .wordEndHalf => !inWord h[i]?
  | .unicodeWord => false

end Look

/-- A relation between positions, `n` times in a row. -/
def Times (R : Nat → Nat → Prop) : Nat → Nat → Nat → Prop
  | 0, i, j => i = j
  | n + 1, i, j => ∃ k, R i k ∧ Times R n k j

namespace Expr

mutual

/-- The expression matches from `i` to `j`. -/
def Spans (h : Buffer) : Expr → Nat → Nat → Prop
  | .empty, i, j => i = j
  | .literal w, i, j => OccursAt h w i ∧ j = i + w.length
  | .bytes s, i, j => (∃ b, h[i]? = some b ∧ s.contains b.toNat = true) ∧ j = i + 1
  | .chars s, i, j =>
    ∃ c, s.contains c.toNat = true ∧ OccursAt h (Bytes.ofChar c) i ∧
      j = i + (Bytes.ofChar c).length
  | .look l, i, j => l.holds h i = true ∧ i = j
  | .repetition min max _ body, i, j =>
    ∃ n, min ≤ n ∧ (∀ m, max = some m → n ≤ m) ∧ Times (Spans h body) n i j
  | .capture body, i, j => Spans h body i j
  | .sequence items, i, j => SpansInTurn h items i j
  | .alternatives branches, i, j => SpansAny h branches i j

/-- The expressions match one after the other. -/
def SpansInTurn (h : Buffer) : List Expr → Nat → Nat → Prop
  | [], i, j => i = j
  | e :: es, i, j => ∃ k, Spans h e i k ∧ SpansInTurn h es k j

/-- One of the expressions matches. -/
def SpansAny (h : Buffer) : List Expr → Nat → Nat → Prop
  | [], _, _ => False
  | e :: es, i, j => Spans h e i j ∨ SpansAny h es i j

end

/-- Some match ends at `j`. -/
def EndsAt (h : Buffer) (e : Expr) (j : Nat) : Prop :=
  j ≤ h.size ∧ ∃ i, i ≤ h.size ∧ Spans h e i j

end Expr

end ByteSearch.Regex
