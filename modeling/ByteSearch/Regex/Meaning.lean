import ByteSearch.Regex.Expr
import ByteSearch.Regex.Tree
import ByteSearch.Text.PropertyName

/-!
# The meaning of a tree

`Tree.meaning` settles the flags of a tree and gives the expression that it stands for. Flags change
from left to right, and a group gives back the flags that it found.

Without the flag `unicode`, classes are sets of bytes, and the classes with names hold ASCII only; a
character beyond ASCII is then no member of a class, although it may stand outside of one. With the
flag, classes are sets of code points.
-/

namespace ByteSearch.Regex

open ByteSearch.Text (Range Ranges CaseFolding.close CaseFolding.closeAscii)

/-- The flags that decide what a tree means. -/
structure Flags where
  caseInsensitive : Bool := false
  multiLine : Bool := false
  dotMatchesNewLine : Bool := true
  swapGreed : Bool := false
  unicode : Bool := false
  crlf : Bool := false
  deriving DecidableEq, Repr

namespace Flags

/-- Sets one flag. -/
def set (f : Flags) : Flag × Bool → Flags
  | (.caseInsensitive, b) => { f with caseInsensitive := b }
  | (.multiLine, b) => { f with multiLine := b }
  | (.dotMatchesNewLine, b) => { f with dotMatchesNewLine := b }
  | (.swapGreed, b) => { f with swapGreed := b }
  | (.unicode, b) => { f with unicode := b }
  | (.crlf, b) => { f with crlf := b }
  | (.ignoreWhitespace, _) => f

/-- Sets some flags. -/
def apply (f : Flags) (d : Directive) : Flags :=
  d.foldl set f

end Flags

namespace Meaning

/-! ## Classes -/

/-- The greatest member of a class: a byte, or a code point. -/
def top (f : Flags) : Nat :=
  if f.unicode then 0x10FFFF else 0xFF

/-- The members of a set that classes may have: no surrogates. -/
def scalars (f : Flags) (s : Ranges) : Ranges :=
  if f.unicode then Ranges.inter s [⟨0, 0xD7FF⟩, ⟨0xE000, 0x10FFFF⟩] else s

/-- Adds the other case of the members, if case does not count. -/
def fold (f : Flags) (s : Ranges) : Ranges :=
  if f.caseInsensitive then
    if f.unicode then CaseFolding.close s else CaseFolding.closeAscii s
  else Ranges.normalize s

/-- Adds the other case, then negates. -/
def foldAndNegate (f : Flags) (negated : Bool) (s : Ranges) : Ranges :=
  let s := fold f s
  if negated then scalars f (Ranges.complement (top f) s) else s

/-- The ASCII characters of a named class. -/
def named : NamedClass → Ranges
  | .alnum => [⟨0x30, 0x39⟩, ⟨0x41, 0x5A⟩, ⟨0x61, 0x7A⟩]
  | .alpha => [⟨0x41, 0x5A⟩, ⟨0x61, 0x7A⟩]
  | .ascii => [⟨0x00, 0x7F⟩]
  | .blank => [⟨0x09, 0x09⟩, ⟨0x20, 0x20⟩]
  | .cntrl => [⟨0x00, 0x1F⟩, ⟨0x7F, 0x7F⟩]
  | .digit => [⟨0x30, 0x39⟩]
  | .graph => [⟨0x21, 0x7E⟩]
  | .lower => [⟨0x61, 0x7A⟩]
  | .print => [⟨0x20, 0x7E⟩]
  | .punct => [⟨0x21, 0x2F⟩, ⟨0x3A, 0x40⟩, ⟨0x5B, 0x60⟩, ⟨0x7B, 0x7E⟩]
  | .space => [⟨0x09, 0x0D⟩, ⟨0x20, 0x20⟩]
  | .upper => [⟨0x41, 0x5A⟩]
  | .word => [⟨0x30, 0x39⟩, ⟨0x41, 0x5A⟩, ⟨0x5F, 0x5F⟩, ⟨0x61, 0x7A⟩]
  | .xdigit => [⟨0x30, 0x39⟩, ⟨0x41, 0x46⟩, ⟨0x61, 0x66⟩]

/-- The members of a class that is written with one letter. -/
def letter (f : Flags) (c : LetterClass) (negated : Bool) : Ranges :=
  let s :=
    if f.unicode then
      match c with
      | .digit => Text.Property.decimal
      | .space => Text.Property.space
      | .word => Text.Property.word
    else
      match c with
      | .digit => named .digit
      | .space => named .space
      | .word => named .word
  if negated then scalars f (Ranges.complement (top f) s) else s

/-- The members of a Unicode property. -/
def property (f : Flags) (q : PropertyQuery) (negated : Bool) : Except Refusal Ranges :=
  if !f.unicode then .error .unicodeNotAllowed
  else
    let s := match q with
      | .named name => Text.PropertyName.byName? name
      | .valued name value => Text.PropertyName.byValue? name value
    match s with
    | some s => .ok (foldAndNegate f negated (scalars f s))
    | none => .error .propertyUnknown

/-- The number of a literal within a class: a code point, or a byte. -/
def member (f : Flags) (l : Literal) : Except Refusal Nat :=
  if f.unicode then .ok l.scalar.toNat
  else
    match l with
    | .code b => .ok b.toNat
    | .char c => if c.toNat < 0x80 then .ok c.toNat else .error .unicodeNotAllowed

/-- Applies an operation between sets. -/
def operate (f : Flags) (op : SetOperation) (s t : Ranges) : Ranges :=
  match op with
  | .intersection => Ranges.inter s t
  | .difference => Ranges.diff (top f) s t
  | .symmetricDifference => Ranges.symmDiff (top f) s t

mutual

/-- The members of the contents of a class. -/
def classMembers (f : Flags) : ClassSet → Except Refusal Ranges
  | .empty => .ok []
  | .literal l => (member f l).map Ranges.single
  | .range low high => do
    let a ← member f low
    let b ← member f high
    .ok (scalars f [⟨a, b⟩])
  | .named c negated => .ok (foldAndNegate f negated (named c))
  | .letter c negated => .ok (letter f c negated)
  | .property q negated => property f q negated
  | .bracketed negated set => (classMembers f set).map (foldAndNegate f negated)
  | .union items => (membersOfAll f items).map Ranges.normalize
  | .operation op left right => do
    let a ← classMembers f left
    let b ← classMembers f right
    .ok (operate f op (fold f a) (fold f b))

/-- The members of some sets together. -/
def membersOfAll (f : Flags) : List ClassSet → Except Refusal Ranges
  | [] => .ok []
  | set :: sets => do
    let a ← classMembers f set
    let b ← membersOfAll f sets
    .ok (a ++ b)

end

/-- The expression of a set. -/
def setExpr (f : Flags) (s : Ranges) : Expr :=
  if f.unicode then .ofCharSet s else .ofByteSet s

/-! ## Items -/

/-- The letters, whose other case counts too if case does not. -/
def hasCase (f : Flags) (c : Char) : Bool :=
  if f.unicode then CaseFolding.close (Ranges.single c.toNat) != Ranges.single c.toNat
  else c.isAlpha

/-- The expression of a literal. -/
def literal (f : Flags) (l : Literal) : Expr :=
  let character := fun (c : Char) =>
    if f.caseInsensitive && hasCase f c then setExpr f (fold f (Ranges.single c.toNat))
    else .literal (Bytes.ofChar c)
  match l with
  | .char c => character c
  | .code b => if f.unicode || b < 0x80 then character l.scalar else .literal [b]

/-- The expression of the dot: any byte or character, but for the ends of lines if it must not
match them. -/
def dot (f : Flags) : Expr :=
  let ends : Ranges :=
    if f.dotMatchesNewLine then []
    else if f.crlf then [⟨0x0A, 0x0A⟩, ⟨0x0D, 0x0D⟩]
    else [⟨0x0A, 0x0A⟩]
  setExpr f (scalars f (Ranges.complement (top f) ends))

/-- The assertion of an anchor. -/
def anchor (f : Flags) : Anchor → Look
  | .lineStart =>
    if f.multiLine then if f.crlf then .crlfStart else .lineStart else .textStart
  | .lineEnd =>
    if f.multiLine then if f.crlf then .crlfEnd else .lineEnd else .textEnd
  | .textStart => .textStart
  | .textEnd => .textEnd
  | .wordBoundary => if f.unicode then .unicodeWord else .wordBoundary
  | .notWordBoundary => if f.unicode then .unicodeWord else .notWordBoundary
  | .wordStart => if f.unicode then .unicodeWord else .wordStart
  | .wordEnd => if f.unicode then .unicodeWord else .wordEnd
  | .wordStartHalf => if f.unicode then .unicodeWord else .wordStartHalf
  | .wordEndHalf => if f.unicode then .unicodeWord else .wordEndHalf

/-- The expression of an item. -/
def atom (f : Flags) : Atom → Except Refusal Expr
  | .literal l => .ok (literal f l)
  | .dot => .ok (dot f)
  | .anchor a => .ok (.look (anchor f a))
  | .letter c negated => .ok (setExpr f (letter f c negated))
  | .property q negated => (property f q negated).map (setExpr f)
  | .bracketed negated set => do
    let s ← classMembers f set
    .ok (setExpr f (foldAndNegate f negated s))

end Meaning

namespace Tree

mutual

/-- The expression of a tree, and the flags after it. -/
def meaning (f : Flags) : Tree → Except Refusal (Expr × Flags)
  | .empty => .ok (.empty, f)
  | .atom a => (Meaning.atom f a).map (·, f)
  | .flags d => .ok (.empty, f.apply d)
  | .repetition min max greedy body => do
    let (e, f) ← meaning f body
    .ok (.repeated min max (greedy != f.swapGreed) e, f)
  | .group (.capture _) body => do
    let (e, _) ← meaning f body
    .ok (.capture e, f)
  | .group (.flagged d) body => do
    let (e, _) ← meaning (f.apply d) body
    .ok (e, f)
  | .sequence items => do
    let (es, f) ← meanings f items
    .ok (.inSequence es, f)
  | .alternatives branches => do
    let (es, f) ← meanings f branches
    .ok (.oneOf es, f)

/-- The expressions of some trees, from left to right. -/
def meanings (f : Flags) : List Tree → Except Refusal (List Expr × Flags)
  | [] => .ok ([], f)
  | t :: ts => do
    let (e, f) ← meaning f t
    let (es, f) ← meanings f ts
    .ok (e :: es, f)

end

end Tree

end ByteSearch.Regex
