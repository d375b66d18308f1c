/-!
# Byte strings

`Bytes` is a byte string that is read from the front: patterns, paths, arguments.
`Buffer` is a byte string with constant-time access: the text that is searched.
`Bytes.ofString` is the UTF-8 encoding of a text.
-/

namespace ByteSearch

/-- A byte string that is taken apart from the front. -/
abbrev Bytes := List UInt8

/-- A byte string that is indexed. -/
abbrev Buffer := Array UInt8

namespace Bytes

/-- The UTF-8 encoding of one character. -/
def ofChar (c : Char) : Bytes :=
  String.utf8EncodeChar c

/-- The UTF-8 encoding of a list of characters. -/
def ofChars (s : List Char) : Bytes :=
  s.flatMap ofChar

@[simp] theorem ofChars_nil : ofChars [] = [] := rfl

@[simp] theorem ofChars_cons (c : Char) (s : List Char) :
    ofChars (c :: s) = ofChar c ++ ofChars s :=
  List.flatMap_cons

@[simp] theorem ofChars_append (s t : List Char) : ofChars (s ++ t) = ofChars s ++ ofChars t :=
  List.flatMap_append

/-- The UTF-8 encoding of a text. -/
def ofString (s : String) : Bytes :=
  ofChars s.toList

/-- The value of a hexadecimal digit of either case, given as an ASCII byte. -/
def hexValue? (b : UInt8) : Option UInt8 :=
  if 0x30 ≤ b ∧ b ≤ 0x39 then some (b - 0x30)
  else if 0x61 ≤ b ∧ b ≤ 0x66 then some (b - 0x61 + 10)
  else if 0x41 ≤ b ∧ b ≤ 0x46 then some (b - 0x41 + 10)
  else none

/-- The upper-case hexadecimal digit of a number below sixteen. -/
def hexDigit (n : Nat) : Char :=
  if n < 10 then Char.ofNat (0x30 + n) else Char.ofNat (0x41 + (n - 10))

/-- The escape `\xNN` of a byte, with two upper-case digits. -/
def hexEscape (b : UInt8) : List Char :=
  ['\\', 'x', hexDigit (b.toNat / 16), hexDigit (b.toNat % 16)]

end Bytes

end ByteSearch
