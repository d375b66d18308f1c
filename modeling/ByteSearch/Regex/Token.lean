/-!
# Tokens of a regular expression

The words of the notation for regular expressions. An `Atom` matches by itself; the other tokens
open, close, separate, repeat, or change flags. A bracketed class is one token, whose contents are a
`ClassSet`.
-/

namespace ByteSearch.Regex

/-- A character of the expression, or a byte that is written with two hexadecimal digits. -/
inductive Literal where
  | char (c : Char)
  | code (b : UInt8)
  deriving DecidableEq, Repr

/-- The character of a literal; a byte stands for the code point of the same number. -/
def Literal.scalar : Literal → Char
  | char c => c
  | code b => Char.ofNat b.toNat

/-- The classes that are written with one letter. -/
inductive LetterClass where
  | digit | space | word
  deriving DecidableEq, Repr

/-- The named classes of ASCII characters. -/
inductive NamedClass where
  | alnum | alpha | ascii | blank | cntrl | digit | graph | lower | print | punct | space | upper
  | word | xdigit
  deriving DecidableEq, Repr

/-- The names of the named classes. -/
def NamedClass.names : List (String × NamedClass) := [
  ("alnum", alnum), ("alpha", alpha), ("ascii", ascii), ("blank", blank), ("cntrl", cntrl),
  ("digit", digit), ("graph", graph), ("lower", lower), ("print", print), ("punct", punct),
  ("space", space), ("upper", upper), ("word", word), ("xdigit", xdigit)]

/-- A question about a Unicode property. -/
inductive PropertyQuery where
  /-- A property or a value by its name alone. -/
  | named (name : String)
  /-- A property and its value. -/
  | valued (name value : String)
  deriving DecidableEq, Repr

/-- The operations between sets of a class. -/
inductive SetOperation where
  | intersection | difference | symmetricDifference
  deriving DecidableEq, Repr

/-- The contents of a bracketed class. -/
inductive ClassSet where
  | empty
  | literal (l : Literal)
  | range (low high : Literal)
  | named (c : NamedClass) (negated : Bool)
  | letter (c : LetterClass) (negated : Bool)
  | property (q : PropertyQuery) (negated : Bool)
  | bracketed (negated : Bool) (set : ClassSet)
  | union (items : List ClassSet)
  | operation (op : SetOperation) (left right : ClassSet)
  deriving Repr

/-- The assertions about a position. -/
inductive Anchor where
  | lineStart | lineEnd | textStart | textEnd
  | wordBoundary | notWordBoundary
  | wordStart | wordEnd | wordStartHalf | wordEndHalf
  deriving DecidableEq, Repr

/-- What matches by itself. -/
inductive Atom where
  | literal (l : Literal)
  | dot
  | anchor (a : Anchor)
  | letter (c : LetterClass) (negated : Bool)
  | property (q : PropertyQuery) (negated : Bool)
  | bracketed (negated : Bool) (set : ClassSet)
  deriving Repr

/-- The flags of an expression. -/
inductive Flag where
  | caseInsensitive | multiLine | dotMatchesNewLine | swapGreed | unicode | crlf
  | ignoreWhitespace
  deriving DecidableEq, Repr

/-- The letter of a flag. -/
def Flag.ofLetter? : Char → Option Flag
  | 'i' => some .caseInsensitive
  | 'm' => some .multiLine
  | 's' => some .dotMatchesNewLine
  | 'U' => some .swapGreed
  | 'u' => some .unicode
  | 'R' => some .crlf
  | 'x' => some .ignoreWhitespace
  | _ => none

/-- Flags to set, each with its new value. -/
abbrev Directive := List (Flag × Bool)

/-- How a group begins. -/
inductive GroupKind where
  | capture (name : Option String)
  | flagged (d : Directive)
  deriving DecidableEq, Repr

/-- A token. -/
inductive Token where
  | atom (a : Atom)
  | flags (d : Directive)
  | opening (kind : GroupKind)
  | closing
  | bar
  /-- A repetition of what comes before; without a maximum it has no end. -/
  | repetition (min : Nat) (max : Option Nat) (greedy : Bool)
  deriving Repr

end ByteSearch.Regex
