import ByteSearch.Text.Utf8

/-!
# The source text of a pattern

A pattern is a byte string, a regular expression is a text. `sourceOf` copies the well-formed
characters of the pattern and writes every byte of a malformed run as an escape `\xNN`, which stands
for that byte.
-/

namespace ByteSearch.Regex

/-- A piece of a pattern as it stands in the source text. -/
def sourcePiece : Utf8.Piece → List Char
  | .char c => [c]
  | .malformed bytes => bytes.flatMap Bytes.hexEscape

/-- The source text of a pattern. -/
def sourceOf (pattern : Bytes) : List Char :=
  (Utf8.pieces pattern).flatMap sourcePiece

end ByteSearch.Regex
