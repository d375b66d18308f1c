import ByteSearch.Text.Category
import ByteSearch.Text.Property.Table

/-!
# Properties of characters

The character classes that output and names depend on, built from the general category and the
short lists of `Property/Table`.
-/

namespace ByteSearch.Text.Property

/-- The value of an upper-case hexadecimal digit. -/
def hexDigit (c : Char) : Nat :=
  if c ≤ '9' then c.toNat - '0'.toNat else c.toNat - 'A'.toNat + 10

/-- Reads a hexadecimal number. -/
def hexNumber (s : List Char) : Nat :=
  s.foldl (fun n c => n * 16 + hexDigit c) 0

/-- Reads one entry of a list: a code point, or two code points with a hyphen between them. -/
def readRange (s : String) : Range :=
  match s.splitOn "-" with
  | [low, high] => ⟨hexNumber low.toList, hexNumber high.toList⟩
  | _ => ⟨hexNumber s.toList, hexNumber s.toList⟩

/-- Reads the rows of a list of code points. -/
def readRows (rows : List String) : Ranges :=
  rows.flatMap fun row => (row.splitOn " ").map readRange

/-- The entries of `otherAlphabetic`. -/
def otherAlphabeticRanges : Ranges := readRows otherAlphabetic

/-- The entries of `otherGraphemeExtend`. -/
def otherGraphemeExtendRanges : Ranges := readRows otherGraphemeExtend

/-- Whether a character has a glyph of its own: it is assigned, and neither a control, a format
character, a private one, nor a separator other than the space. -/
def isPrintable (c : Char) : Bool :=
  c == ' ' || !([.cc, .cf, .cs, .co, .cn, .zl, .zp, .zs].contains (Category.of c))

/-- Whether a character attaches to the one before it. -/
def isGraphemeExtend (c : Char) : Bool :=
  [.mn, .me].contains (Category.of c) || otherGraphemeExtendRanges.contains c.toNat

/-- Whether a character is alphabetic. -/
def isAlphabetic (c : Char) : Bool :=
  [.lu, .ll, .lt, .lm, .lo, .nl].contains (Category.of c) ||
    otherAlphabeticRanges.contains c.toNat

/-- Whether a character is alphabetic or a number. -/
def isAlphanumeric (c : Char) : Bool :=
  isAlphabetic c || [.nd, .nl, .no].contains (Category.of c)

/-- The word characters: letters, marks, decimal digits, connectors, the joiners and the circled
letters. -/
def word : Ranges :=
  Ranges.union (Category.ranges [.lu, .ll, .lt, .lm, .lo, .nl, .mn, .mc, .me, .nd, .pc])
    (readRows otherWord)

/-- The decimal digits. -/
def decimal : Ranges :=
  Category.ranges [.nd]

/-- The property `White_Space`. -/
def space : Ranges :=
  [⟨0x09, 0x0D⟩, ⟨0x20, 0x20⟩, ⟨0x85, 0x85⟩, ⟨0xA0, 0xA0⟩, ⟨0x1680, 0x1680⟩, ⟨0x2000, 0x200A⟩,
    ⟨0x2028, 0x2029⟩, ⟨0x202F, 0x202F⟩, ⟨0x205F, 0x205F⟩, ⟨0x3000, 0x3000⟩]

end ByteSearch.Text.Property
