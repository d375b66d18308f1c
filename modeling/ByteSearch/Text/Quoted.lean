import ByteSearch.Text.Utf8
import ByteSearch.Text.Property

/-!
# Quoted text

A text in double quotes, with escapes for what would not show: `\0 \t \n \r \" \\`, and `\u` with
the code point in braces for every other character that is not printable or attaches to the one
before it.

`quote` writes a text. `quoteBytes` writes a byte string: it escapes the single quote too, and
writes the bytes of a malformed run as `\xNN`.
-/

namespace ByteSearch.Text

/-- The digits of a number in lower-case hexadecimal. -/
def lowerHex (n : Nat) : List Char :=
  Nat.toDigits 16 n

/-- The escape of a code point: `\u` and its hexadecimal digits in braces. -/
def codePointEscape (c : Char) : List Char :=
  ['\\', 'u', '\x7b'] ++ lowerHex c.toNat ++ ['\x7d']

/-- A character as it stands between the quotes. -/
def quotedChar (c : Char) : List Char :=
  match c with
  | '\x00' => ['\\', '0']
  | '\t' => ['\\', 't']
  | '\n' => ['\\', 'n']
  | '\r' => ['\\', 'r']
  | '"' => ['\\', '"']
  | '\\' => ['\\', '\\']
  | _ =>
    if Property.isGraphemeExtend c || !Property.isPrintable c then codePointEscape c else [c]

/-- A text in quotes. -/
def quote (s : String) : String :=
  String.ofList (['"'] ++ s.toList.flatMap quotedChar ++ ['"'])

/-- A piece of a byte string as it stands between the quotes. -/
def quotedPiece : Utf8.Piece → List Char
  | .char '\'' => ['\\', '\'']
  | .char c => quotedChar c
  | .malformed bytes => bytes.flatMap Bytes.hexEscape

/-- A byte string in quotes. -/
def quoteBytes (s : Bytes) : String :=
  String.ofList (['"'] ++ (Utf8.pieces s).flatMap quotedPiece ++ ['"'])

/-- A list of texts in brackets, each in quotes. -/
def quoteList (names : List String) : String :=
  "[" ++ ", ".intercalate (names.map quote) ++ "]"

end ByteSearch.Text
