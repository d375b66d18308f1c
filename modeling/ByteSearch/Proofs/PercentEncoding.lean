import ByteSearch.Cli.Location
import Mathlib.Data.List.Basic

/-!
# Percent encodings

In a URL a byte is written as itself, or as an escape whose two digits may each be of either case
(`Spelling`). Only the percent sign never stands for itself (`SpelledByte`). Whichever spelling is
chosen for each byte, the bytes are read back.

The reason is that a spelling is read without regard to what stands behind it
(`percentDecode_spelledByte`): what has been decoded is not looked at again.

Main statement: `percentDecode_spelled`.
-/

namespace ByteSearch.Cli

/-! ## Digits -/

/-- The case of the letters among the hexadecimal digits. -/
inductive LetterCase where
  | upper | lower
  deriving DecidableEq

/-- The ASCII code of the letter `A` or `a`. -/
def LetterCase.first : LetterCase → Nat
  | upper => 0x41
  | lower => 0x61

/-- The hexadecimal digit of a number below sixteen, as an ASCII byte. -/
def hexByte (c : LetterCase) (n : Nat) : UInt8 :=
  UInt8.ofNat (if n < 10 then 0x30 + n else c.first + (n - 10))

theorem hexValue?_hexByte (c : LetterCase) {n : Nat} (hn : n < 16) :
    Bytes.hexValue? (hexByte c n) = some (UInt8.ofNat n) := by
  have hall : ∀ n : Fin 16, Bytes.hexValue? (hexByte c n) = some (UInt8.ofNat n) := by
    cases c <;> decide
  exact hall ⟨n, hn⟩

theorem hexByte_ne_percent (c : LetterCase) {n : Nat} (hn : n < 16) : hexByte c n ≠ percent := by
  have hall : ∀ n : Fin 16, hexByte c n ≠ percent := by
    cases c <;> decide
  exact hall ⟨n, hn⟩

/-! ## Spellings -/

/-- How a byte is written. -/
inductive Spelling where
  | itself
  /-- A percent sign and two digits. -/
  | escape (high low : LetterCase)
  deriving DecidableEq

/-- A byte with the way in which it is written. -/
structure SpelledByte where
  byte : UInt8
  spelling : Spelling
  percent_escaped : spelling = .itself → byte ≠ percent

/-- What is written for a byte. -/
def SpelledByte.written (s : SpelledByte) : Bytes :=
  match s.spelling with
  | .itself => [s.byte]
  | .escape high low =>
    [percent, hexByte high (s.byte.toNat / 16), hexByte low (s.byte.toNat % 16)]

theorem escaped?_of_ne {b : UInt8} (hb : b ≠ percent) (rest : Bytes) :
    escaped? (b :: rest) = none := by
  match rest with
  | [] => rfl
  | [_] => rfl
  | _ :: _ :: _ => exact if_neg hb

/-- Two digits of either case behind a percent sign are an escape. -/
theorem escaped?_digits (high low : LetterCase) {m n : Nat} (hm : m < 16) (hn : n < 16)
    (rest : Bytes) :
    escaped? (percent :: hexByte high m :: hexByte low n :: rest) =
      some (UInt8.ofNat (m * 16 + n)) := by
  simp only [escaped?, if_true, hexValue?_hexByte high hm, hexValue?_hexByte low hn]
  show some (UInt8.ofNat m * 16 + UInt8.ofNat n) = _
  rw [UInt8.ofNat_add, UInt8.ofNat_mul]
  rfl

/-- A percent sign that begins no escape, and any other byte, stands for itself. -/
theorem percentDecode_of_escaped?_eq_none {b : UInt8} {rest : Bytes}
    (hnone : escaped? (b :: rest) = none) :
    percentDecode (b :: rest) = b :: percentDecode rest := by
  rw [percentDecode, hnone]

theorem percentDecode_of_escaped? {sign high low b : UInt8} {rest : Bytes}
    (hsome : escaped? (sign :: high :: low :: rest) = some b) :
    percentDecode (sign :: high :: low :: rest) = b :: percentDecode rest := by
  rw [percentDecode, hsome]
  rfl

/-- What is written for a byte is read as this byte, whatever stands behind it. -/
theorem percentDecode_spelledByte (s : SpelledByte) (rest : Bytes) :
    percentDecode (s.written ++ rest) = s.byte :: percentDecode rest := by
  obtain ⟨b, spelling, hpercent⟩ := s
  cases spelling with
  | itself => exact percentDecode_of_escaped?_eq_none (escaped?_of_ne (hpercent rfl) rest)
  | escape high low =>
    have hb := b.toNat_lt
    have hescape := escaped?_digits high low (m := b.toNat / 16) (n := b.toNat % 16) (by omega)
      (by omega) rest
    rw [Nat.div_add_mod', UInt8.ofNat_toNat] at hescape
    exact percentDecode_of_escaped? hescape

theorem percentDecode_spelled_append (s : List SpelledByte) (rest : Bytes) :
    percentDecode (s.flatMap SpelledByte.written ++ rest) =
      s.map SpelledByte.byte ++ percentDecode rest := by
  induction s with
  | nil => rfl
  | cons a s ih =>
    rw [List.flatMap_cons, List.append_assoc, percentDecode_spelledByte, ih, List.map_cons,
      List.cons_append]

theorem percentDecode_nil : percentDecode [] = [] := by
  rw [percentDecode]

/-- **Percent encodings.** If each byte is written as itself or as an escape with digits of either
case, and the percent sign always as an escape, the bytes are read back, and what stands behind them
is read as if it stood alone. So a percent sign that was escaped makes no escape with the digits
behind it, as one that stands for itself would. -/
theorem percentDecode_spelled (s : List SpelledByte) :
    percentDecode (s.flatMap SpelledByte.written) = s.map SpelledByte.byte ∧
      (∀ rest, percentDecode (s.flatMap SpelledByte.written ++ rest) =
        s.map SpelledByte.byte ++ percentDecode rest) ∧
      ∀ (high low : LetterCase) (m n : Fin 16) (rest : Bytes),
        percentDecode (percent :: 0x32 :: 0x35 :: hexByte high m :: hexByte low n :: rest) =
          percent :: hexByte high m :: hexByte low n :: percentDecode rest ∧
        percentDecode (percent :: hexByte high m :: hexByte low n :: rest) =
          UInt8.ofNat (m * 16 + n) :: percentDecode rest := by
  have happend := percentDecode_spelled_append s
  refine ⟨?_, happend, fun high low m n rest => ⟨?_, ?_⟩⟩
  · have hall := happend []
    rwa [percentDecode_nil, List.append_nil, List.append_nil] at hall
  · -- behind the decoded percent sign no other one stands, and the digits are bytes like any other
    have hhigh := escaped?_of_ne (hexByte_ne_percent high m.isLt) (hexByte low n :: rest)
    have hlow := escaped?_of_ne (hexByte_ne_percent low n.isLt) rest
    have hsign := percentDecode_spelledByte ⟨percent, .escape .upper .upper, fun h => nomatch h⟩
      (hexByte high m :: hexByte low n :: rest)
    rw [percentDecode_of_escaped?_eq_none hhigh, percentDecode_of_escaped?_eq_none hlow] at hsign
    exact hsign
  · exact percentDecode_of_escaped? (escaped?_digits high low m.isLt n.isLt rest)

/-- The path `/a%41é` with an escaped percent sign, mixed digits, and an escape at the end. -/
theorem percentDecode_spelled_mixed :
    percentDecode (Bytes.ofString "/%61%2541%c3%A9") = Bytes.ofString "/a%41é" := by
  have hspelled := (percentDecode_spelled [⟨0x2F, .itself, by decide⟩,
    ⟨0x61, .escape .upper .upper, by decide⟩, ⟨0x25, .escape .upper .lower, by decide⟩,
    ⟨0x34, .itself, by decide⟩, ⟨0x31, .itself, by decide⟩,
    ⟨0xC3, .escape .lower .upper, by decide⟩, ⟨0xA9, .escape .upper .lower, by decide⟩]).1
  exact hspelled

end ByteSearch.Cli
