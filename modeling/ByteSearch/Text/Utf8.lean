import ByteSearch.Bytes

/-!
# Reading bytes as UTF-8

A byte string need not be well-formed UTF-8. `pieces` cuts it into well-formed characters and
malformed runs, where a malformed run is the longest start of a character that the text breaks
off, or a single byte that starts no character. Everything that shows bytes as text goes through
this one decomposition:

* `lossy` writes one replacement character for each malformed run;
* `decode?` reads a text, and fails if there is a malformed run.

The well-formed sequences are those of the Unicode standard, table 3-7: no overlong forms, no
surrogates, nothing above U+10FFFF.
-/

namespace ByteSearch.Utf8

/-- What the first byte of a multi-byte character fixes: how many continuation bytes follow, and
the bounds of the first of them. -/
structure Lead where
  continuations : Nat
  low : UInt8
  high : UInt8
  deriving DecidableEq, Repr

/-- The leading bytes of multi-byte characters. -/
def lead? (b : UInt8) : Option Lead :=
  if 0xC2 ≤ b ∧ b ≤ 0xDF then some ⟨1, 0x80, 0xBF⟩
  else if b = 0xE0 then some ⟨2, 0xA0, 0xBF⟩
  else if b = 0xED then some ⟨2, 0x80, 0x9F⟩
  else if 0xE1 ≤ b ∧ b ≤ 0xEF then some ⟨2, 0x80, 0xBF⟩
  else if b = 0xF0 then some ⟨3, 0x90, 0xBF⟩
  else if 0xF1 ≤ b ∧ b ≤ 0xF3 then some ⟨3, 0x80, 0xBF⟩
  else if b = 0xF4 then some ⟨3, 0x80, 0x8F⟩
  else none

/-- The continuation bytes at the front of a byte string, at most `n` of them; the bounds are
those of the first one. -/
def continuations : Nat → UInt8 → UInt8 → Bytes → Bytes
  | n + 1, low, high, b :: rest =>
    if low ≤ b ∧ b ≤ high then b :: continuations n 0x80 0xBF rest else []
  | _, _, _, _ => []

/-- The character of a leading byte and its continuation bytes. -/
def scalar (b : UInt8) (tail : Bytes) : Char :=
  let bits := match tail.length with
    | 1 => b.toNat % 32
    | 2 => b.toNat % 16
    | _ => b.toNat % 8
  Char.ofNat (tail.foldl (fun n t => n * 64 + t.toNat % 64) bits)

/-- A piece of a byte string: a character, or a malformed run of bytes. -/
inductive Piece where
  | char (c : Char)
  | malformed (bytes : Bytes)
  deriving DecidableEq, Repr

/-- Cuts a byte string into characters and malformed runs. -/
def pieces : Bytes → List Piece
  | [] => []
  | b :: rest =>
    if b < 0x80 then .char (Char.ofNat b.toNat) :: pieces rest
    else
      match lead? b with
      | none => .malformed [b] :: pieces rest
      | some lead =>
        let tail := continuations lead.continuations lead.low lead.high rest
        let piece :=
          if tail.length = lead.continuations then .char (scalar b tail)
          else .malformed (b :: tail)
        piece :: pieces (rest.drop tail.length)
termination_by s => s.length
decreasing_by all_goals simp only [List.length_cons, List.length_drop]; omega

/-- The text of a byte string, with one U+FFFD for each malformed run. -/
def lossy (s : Bytes) : String :=
  String.ofList ((pieces s).map fun
    | .char c => c
    | .malformed _ => '\uFFFD')

/-- The text of a well-formed byte string. -/
def decode? (s : Bytes) : Option String :=
  (List.mapM (fun
    | Piece.char c => some c
    | Piece.malformed _ => none) (pieces s)).map String.ofList

end ByteSearch.Utf8
