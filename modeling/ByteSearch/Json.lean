import ByteSearch.Number.Decimal
import ByteSearch.Text.Quoted

/-!
# JSON

A `Json` is a value whose object members have an order. `write` prints a value in a `Layout`:

* `Layout.compact` has no space at all;
* `Layout.indented` puts every item and every member on a line of its own, with two spaces for each
  level, and leaves empty arrays and objects on one line.

In a string only the quote, the backslash and the control characters below U+0020 are escaped.
-/

namespace ByteSearch

/-- A JSON value. -/
inductive Json where
  | nat (n : Nat)
  | decimal (d : Number.Decimal)
  | bool (b : Bool)
  | string (s : String)
  | array (items : List Json)
  | object (members : List (String × Json))

namespace Json

/-- A character inside a string. -/
def escape (c : Char) : List Char :=
  match c with
  | '"' => ['\\', '"']
  | '\\' => ['\\', '\\']
  | '\n' => ['\\', 'n']
  | '\r' => ['\\', 'r']
  | '\t' => ['\\', 't']
  | '\x08' => ['\\', 'b']
  | '\x0c' => ['\\', 'f']
  | c =>
    if c.toNat < 0x20 then
      let digits := Text.lowerHex c.toNat
      ['\\', 'u'] ++ List.replicate (4 - digits.length) '0' ++ digits
    else [c]

/-- A string with its quotes. -/
def quoted (s : String) : List Char :=
  '"' :: (s.toList.flatMap escape ++ ['"'])

/-- How the parts of a value are set apart. -/
structure Layout where
  /-- What stands before an item or a closing bracket of some level. -/
  lineBreak : Nat → List Char
  /-- What stands between a key and its value. -/
  colon : List Char

namespace Layout

/-- Everything on one line. -/
def compact : Layout :=
  ⟨fun _ => [], [':']⟩

/-- Every item on a line of its own. -/
def indented : Layout :=
  ⟨fun level => '\n' :: List.replicate (2 * level) ' ', [':', ' ']⟩

end Layout

/-- Items between brackets, set apart by commas. -/
def bracketed (l : Layout) (level : Nat) (opening closing : Char) (items : List (List Char)) :
    List Char :=
  if items.isEmpty then [opening, closing]
  else
    opening :: (List.intercalate [','] (items.map (l.lineBreak (level + 1) ++ ·)) ++
      l.lineBreak level ++ [closing])

mutual

/-- The text of a value at a level. -/
def write (l : Layout) (level : Nat) : Json → List Char
  | .nat n => Number.Decimal.digitsOf n
  | .decimal d => d.text
  | .bool b => if b then ['t', 'r', 'u', 'e'] else ['f', 'a', 'l', 's', 'e']
  | .string s => quoted s
  | .array items => bracketed l level '[' ']' (writeItems l (level + 1) items)
  | .object members => bracketed l level '\x7b' '\x7d' (writeMembers l (level + 1) members)

/-- The texts of items. -/
def writeItems (l : Layout) (level : Nat) : List Json → List (List Char)
  | [] => []
  | v :: vs => write l level v :: writeItems l level vs

/-- The texts of members. -/
def writeMembers (l : Layout) (level : Nat) : List (String × Json) → List (List Char)
  | [] => []
  | (key, v) :: rest => (quoted key ++ l.colon ++ write l level v) :: writeMembers l level rest

end

/-- The text of a value. -/
def text (l : Layout) (v : Json) : String :=
  String.ofList (write l 0 v)

end Json

end ByteSearch
