import ByteSearch.Json

/-!
# The grammar of JSON

What a JSON text says is a `Value`. `Reads s v rest` says that the text `s` begins with the value
`v` and goes on with `rest`, `IsTextOf s v` that `s` is a value and nothing else, but for blanks.

* A number is exact, whatever its notation.
* An escape `\u` gives a UTF-16 code unit. Two surrogates that belong together are one character,
  and a surrogate alone is none.
* The members of an object keep their order, and a key may occur twice.
-/

namespace ByteSearch.Json

/-- What a JSON text says. -/
inductive Value where
  | null
  | bool (b : Bool)
  | number (x : Rat)
  | string (s : String)
  | array (items : List Value)
  | object (members : List (String × Value))

/-- The characters that may stand between the parts of a text. -/
def isBlank (c : Char) : Bool :=
  c = ' ' || c = '\t' || c = '\n' || c = '\r'

/-- The text behind the blanks in front. -/
def skip (s : List Char) : List Char :=
  s.dropWhile isBlank

/-! ## Numbers -/

/-- Digits in front, as many as there are. -/
structure ReadsDigits (s digits rest : List Char) : Prop where
  digits_ne_nil : digits ≠ []
  digits_eq : digits = s.takeWhile Char.isDigit
  rest_eq : rest = s.dropWhile Char.isDigit

/-- The digits behind a point, if there is a point. -/
inductive ReadsPlaces : List Char → List Char → List Char → Prop
  | absent {s : List Char} (h : s.head? ≠ some '.') : ReadsPlaces s [] s
  | present {s digits rest : List Char} (h : ReadsDigits s digits rest) :
    ReadsPlaces ('.' :: s) digits rest

/-- The sign of an exponent, as a factor. -/
inductive ReadsSign : List Char → Int → List Char → Prop
  | absent {s : List Char} (h : s.head? ≠ some '+' ∧ s.head? ≠ some '-') : ReadsSign s 1 s
  | plus {s : List Char} : ReadsSign ('+' :: s) 1 s
  | minus {s : List Char} : ReadsSign ('-' :: s) (-1) s

inductive ReadsExponent : List Char → Int → List Char → Prop
  | absent {s : List Char} (h : s.head? ≠ some 'e' ∧ s.head? ≠ some 'E') : ReadsExponent s 0 s
  | present {mark : Char} {s t digits rest : List Char} {sign : Int}
      (hmark : mark = 'e' ∨ mark = 'E') (hsign : ReadsSign s sign t)
      (hdigits : ReadsDigits t digits rest) :
    ReadsExponent (mark :: s) (sign * Nat.ofDigitChars 10 digits 0) rest

/-- A number without a sign. Its first digit is zero only if there is no other before the point. -/
inductive ReadsMagnitude : List Char → Rat → List Char → Prop
  | intro {s whole t places u rest : List Char} {exponent : Int} (hwhole : ReadsDigits s whole t)
      (hzero : whole.head? = some '0' → whole = ['0']) (hplaces : ReadsPlaces t places u)
      (hexponent : ReadsExponent u exponent rest) :
    ReadsMagnitude s
      (Number.Decimal.value ⟨Nat.ofDigitChars 10 (whole ++ places) 0, exponent - places.length⟩)
      rest

/-! ## Strings -/

/-- A hexadecimal digit of either case. -/
def IsHexDigit (c : Char) (n : Nat) : Prop :=
  n < 16 ∧ (c = Nat.digitChar n ∨ c = Bytes.hexDigit n)

/-- The number of four hexadecimal digits. -/
def IsCodeUnit (a b c d : Char) (n : Nat) : Prop :=
  ∃ i j k l, IsHexDigit a i ∧ IsHexDigit b j ∧ IsHexDigit c k ∧ IsHexDigit d l ∧
    n = ((i * 16 + j) * 16 + k) * 16 + l

/-- What a letter behind a backslash stands for. -/
def shortEscape? : Char → Option Char
  | '"' => some '"'
  | '\\' => some '\\'
  | '/' => some '/'
  | 'b' => some '\x08'
  | 'f' => some '\x0c'
  | 'n' => some '\n'
  | 'r' => some '\r'
  | 't' => some '\t'
  | _ => none

/-- One character of a string. -/
inductive ReadsChar : List Char → Char → List Char → Prop
  | plain {c : Char} {rest : List Char} (hcontrol : 0x20 ≤ c.toNat) (hquote : c ≠ '"')
      (hbackslash : c ≠ '\\') : ReadsChar (c :: rest) c rest
  | short {letter c : Char} {rest : List Char} (h : shortEscape? letter = some c) :
    ReadsChar ('\\' :: letter :: rest) c rest
  | code {i j k l : Char} {n : Nat} {rest : List Char} (h : IsCodeUnit i j k l n)
      (hscalar : n < 0xD800 ∨ 0xDFFF < n) :
    ReadsChar ('\\' :: 'u' :: i :: j :: k :: l :: rest) (Char.ofNat n) rest
  | surrogates {i j k l i' j' k' l' : Char} {high low : Nat} {rest : List Char}
      (hhigh : IsCodeUnit i j k l high) (hlow : IsCodeUnit i' j' k' l' low)
      (hhighs : 0xD800 ≤ high ∧ high ≤ 0xDBFF) (hlows : 0xDC00 ≤ low ∧ low ≤ 0xDFFF) :
    ReadsChar ('\\' :: 'u' :: i :: j :: k :: l :: '\\' :: 'u' :: i' :: j' :: k' :: l' :: rest)
      (Char.ofNat (0x10000 + (high - 0xD800) * 0x400 + (low - 0xDC00))) rest

/-- The characters of a string up to its closing quote, behind the opening one. -/
inductive ReadsChars : List Char → List Char → List Char → Prop
  | closed {rest : List Char} : ReadsChars ('"' :: rest) [] rest
  | char {s t chars rest : List Char} {c : Char} (hc : ReadsChar s c t)
      (hchars : ReadsChars t chars rest) : ReadsChars s (c :: chars) rest

/-! ## Values -/

mutual

/-- The text begins with a value. -/
inductive Reads : List Char → Value → List Char → Prop
  | null {rest : List Char} : Reads ('n' :: 'u' :: 'l' :: 'l' :: rest) .null rest
  | true {rest : List Char} : Reads ('t' :: 'r' :: 'u' :: 'e' :: rest) (.bool true) rest
  | false {rest : List Char} :
    Reads ('f' :: 'a' :: 'l' :: 's' :: 'e' :: rest) (.bool false) rest
  | positive {s rest : List Char} {x : Rat} (h : ReadsMagnitude s x rest) : Reads s (.number x) rest
  | negative {s rest : List Char} {x : Rat} (h : ReadsMagnitude s x rest) :
    Reads ('-' :: s) (.number (-x)) rest
  | string {s chars rest : List Char} (h : ReadsChars s chars rest) :
    Reads ('"' :: s) (.string (String.ofList chars)) rest
  | emptyArray {s rest : List Char} (h : skip s = ']' :: rest) : Reads ('[' :: s) (.array []) rest
  | array {s rest : List Char} {items : List Value} (h : ReadsItems s items rest) :
    Reads ('[' :: s) (.array items) rest
  | emptyObject {s rest : List Char} (h : skip s = '\x7d' :: rest) :
    Reads ('\x7b' :: s) (.object []) rest
  | object {s rest : List Char} {members : List (String × Value)}
      (h : ReadsMembers s members rest) : Reads ('\x7b' :: s) (.object members) rest

/-- Items up to the closing bracket, at least one. -/
inductive ReadsItems : List Char → List Value → List Char → Prop
  | last {s t rest : List Char} {v : Value} (hv : Reads (skip s) v t)
      (hclosing : skip t = ']' :: rest) : ReadsItems s [v] rest
  | more {s t u rest : List Char} {v : Value} {items : List Value} (hv : Reads (skip s) v t)
      (hcomma : skip t = ',' :: u) (hitems : ReadsItems u items rest) :
    ReadsItems s (v :: items) rest

/-- A key and its value. -/
inductive ReadsMember : List Char → String × Value → List Char → Prop
  | intro {s t key u w rest : List Char} {v : Value} (hquote : skip s = '"' :: t)
      (hkey : ReadsChars t key u) (hcolon : skip u = ':' :: w) (hv : Reads (skip w) v rest) :
    ReadsMember s (String.ofList key, v) rest

/-- Members up to the closing brace, at least one. -/
inductive ReadsMembers : List Char → List (String × Value) → List Char → Prop
  | last {s t rest : List Char} {member : String × Value} (hmember : ReadsMember s member t)
      (hclosing : skip t = '\x7d' :: rest) : ReadsMembers s [member] rest
  | more {s t u rest : List Char} {member : String × Value} {members : List (String × Value)}
      (hmember : ReadsMember s member t) (hcomma : skip t = ',' :: u)
      (hmembers : ReadsMembers u members rest) : ReadsMembers s (member :: members) rest

end

/-- The text is that of a value, with blanks around it perhaps. -/
def IsTextOf (s : String) (v : Value) : Prop :=
  ∃ rest, Reads (skip s.toList) v rest ∧ skip rest = []

end ByteSearch.Json
