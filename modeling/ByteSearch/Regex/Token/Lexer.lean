import ByteSearch.Regex.Refusal
import ByteSearch.Regex.Token
import ByteSearch.Text.Blank
import ByteSearch.Text.Property

/-!
# Cutting a source text into tokens

`tokens` cuts a source text into tokens, or refuses it. Each reader takes the rest of the text and
returns what it read with the new rest. The Boolean that the readers share is the flag
`ignoreWhitespace`: while it is set, blanks and comments (from `#` to the end of the line) between
the characters of the notation do not count. A group restores the flag where it closes, so the main
loop keeps the values of the open groups.

The loops take fuel: the length of the text is enough, because every token has a character.
-/

namespace ByteSearch.Regex.Lexer

open ByteSearch.Text (isBlank)

/-! ## Blanks and comments -/

/-- Drops blanks and comments. The Boolean says that the text begins inside a comment. -/
def dropBlanks : Bool → List Char → List Char
  | _, [] => []
  | true, c :: rest => dropBlanks (c != '\n') rest
  | false, c :: rest =>
    if isBlank c then dropBlanks false rest
    else if c == '#' then dropBlanks true rest
    else c :: rest

theorem length_dropBlanks_le (inComment : Bool) (s : List Char) :
    (dropBlanks inComment s).length ≤ s.length := by
  induction s generalizing inComment with
  | nil => simp [dropBlanks]
  | cons c rest ih =>
    cases inComment
    · simp only [dropBlanks]
      split
      · exact Nat.le_succ_of_le (ih _)
      · split
        · exact Nat.le_succ_of_le (ih _)
        · exact Nat.le_refl _
    · exact Nat.le_succ_of_le (ih _)

/-- Drops blanks and comments if they do not count. -/
def skip (x : Bool) (s : List Char) : List Char :=
  if x then dropBlanks false s else s

theorem length_skip_le (x : Bool) (s : List Char) : (skip x s).length ≤ s.length := by
  unfold skip
  split
  · exact length_dropBlanks_le _ _
  · exact Nat.le_refl _

/-- The rest after a character, if there is any: otherwise the refusal `r`. -/
def after (r : Refusal) (x : Bool) (rest : List Char) : Except Refusal (List Char) :=
  match skip x rest with
  | [] => .error r
  | s => .ok s

/-- The next character but one that counts: after the first, blanks and the start of one comment
are passed over. -/
def peek (x : Bool) : List Char → Option Char
  | [] => none
  | _ :: rest =>
    if x then
      match rest.dropWhile isBlank with
      | '#' :: comment => (comment.dropWhile isBlank).head?
      | s => s.head?
    else rest.head?

/-! ## Numbers -/

/-- The value of a hexadecimal digit. -/
def hexValue? (c : Char) : Option Nat :=
  if '0' ≤ c && c ≤ '9' then some (c.toNat - '0'.toNat)
  else if 'a' ≤ c && c ≤ 'f' then some (c.toNat - 'a'.toNat + 10)
  else if 'A' ≤ c && c ≤ 'F' then some (c.toNat - 'A'.toNat + 10)
  else none

/-- The character with a number, if it is a Unicode scalar value. -/
def scalar? (n : Nat) : Option Char :=
  if n < 0xD800 || (0xDFFF < n && n < 0x110000) then some (Char.ofNat n) else none

/-- Reads a fixed number of hexadecimal digits. -/
def fixedHex (x : Bool) : Nat → Nat → List Char → Except Refusal (Nat × List Char)
  | 0, n, s => .ok (n, s)
  | k + 1, n, c :: rest =>
    match hexValue? c with
    | some d => fixedHex x k (n * 16 + d) (skip x rest)
    | none => .error .hexadecimalInvalid
  | _ + 1, _, [] => .error .escapeUnclosed

/-- Reads hexadecimal digits up to a closing brace, at least one. -/
def bracedHex (x : Bool) (n : Option Nat) (s : List Char) : Except Refusal (Nat × List Char) :=
  match s with
  | [] => .error .escapeUnclosed
  | '\x7d' :: rest =>
    match n with
    | some n => .ok (n, skip x rest)
    | none => .error .hexadecimalInvalid
  | c :: rest =>
    match hexValue? c with
    | some d => bracedHex x (some (n.getD 0 * 16 + d)) (skip x rest)
    | none => .error .hexadecimalInvalid
termination_by s.length
decreasing_by simp only [List.length_cons]; have := length_skip_le x rest; omega

/-- Reads decimal digits. -/
def digits (x : Bool) (n : Option Nat) (s : List Char) : Option Nat × List Char :=
  match s with
  | [] => (n, [])
  | c :: rest =>
    if '0' ≤ c && c ≤ '9' then
      digits x (some (n.getD 0 * 10 + (c.toNat - '0'.toNat))) (skip x rest)
    else (n, c :: rest)
termination_by s.length
decreasing_by simp only [List.length_cons]; have := length_skip_le x rest; omega

/-- Drops blanks, and comments after a blank if they do not count. -/
def trailingBlanks (x : Bool) (s : List Char) : List Char :=
  match s with
  | [] => []
  | c :: rest => if isBlank c then trailingBlanks x (skip x rest) else c :: rest
termination_by s.length
decreasing_by simp only [List.length_cons]; have := length_skip_le x rest; omega

/-- Reads a decimal number below 2³², with blanks around it. -/
def decimal (x : Bool) (s : List Char) : Except Refusal (Nat × List Char) :=
  match digits x none (s.dropWhile isBlank) with
  | (some n, rest) =>
    if n < 4294967296 then .ok (n, trailingBlanks x rest) else .error .countInvalid
  | (none, _) => .error .countInvalid

/-! ## Repetitions -/

/-- Reads the question mark that makes a repetition lazy. -/
def greedy : List Char → Bool × List Char
  | '?' :: rest => (false, rest)
  | s => (true, s)

/-- Reads a counted repetition after its opening brace. -/
def counted (x : Bool) (s : List Char) : Except Refusal (Token × List Char) := do
  let s ← after .countUnclosed x s
  let (min, s) ← decimal x s
  let (max, s) ←
    match s with
    | ',' :: rest => do
      match ← after .countUnclosed x rest with
      | '\x7d' :: rest => pure (none, '\x7d' :: rest)
      | s => do
        let (max, s) ← decimal x s
        pure (some max, s)
    | s => pure (some min, s)
  match s with
  | '\x7d' :: rest =>
    let (g, s) := greedy (skip x rest)
    if max.all (min ≤ ·) then .ok (.repetition min max g, s) else .error .countInvalid
  | _ => .error .countUnclosed

/-! ## Escapes -/

/-- The characters of the notation. -/
def isMeta (c : Char) : Bool :=
  ['\\', '.', '+', '*', '?', '(', ')', '|', '[', ']', '\x7b', '\x7d', '^', '$', '#', '&', '-',
    '~'].contains c

/-- The characters that a backslash makes literal: ASCII other than letters, digits and the angle
brackets. -/
def isEscapable (c : Char) : Bool :=
  isMeta c || (c.toNat < 0x80 && !c.isAlphanum && c != '<' && c != '>')

/-- The characters of the name of a word boundary. -/
def isBoundaryLetter (c : Char) : Bool :=
  c.isAlpha || c == '-'

/-- Reads the name of a word boundary. -/
def boundaryName (x : Bool) (name : List Char) (s : List Char) : List Char × List Char :=
  match s with
  | [] => (name.reverse, [])
  | c :: rest =>
    if isBoundaryLetter c then boundaryName x (c :: name) (skip x rest)
    else (name.reverse, c :: rest)
termination_by s.length
decreasing_by simp only [List.length_cons]; have := length_skip_le x rest; omega

/-- Reads what may follow `\b`: the kind of a word boundary in braces. If the braces do not begin
with a letter they are left for the repetition that they are. -/
def boundary (x : Bool) (s : List Char) : Except Refusal (Anchor × List Char) :=
  match s with
  | '\x7b' :: rest => do
    match ← after .wordBoundaryUnknown x rest with
    | c :: more =>
      if isBoundaryLetter c then
        match boundaryName x [] (c :: more) with
        | (name, '\x7d' :: rest) =>
          match String.ofList name with
          | "start" => .ok (.wordStart, rest)
          | "end" => .ok (.wordEnd, rest)
          | "start-half" => .ok (.wordStartHalf, rest)
          | "end-half" => .ok (.wordEndHalf, rest)
          | _ => .error .wordBoundaryUnknown
        | _ => .error .wordBoundaryUnknown
      else .ok (.wordBoundary, s)
    | [] => .ok (.wordBoundary, s)
  | s => .ok (.wordBoundary, s)

/-- Reads a character by its number, after the letter that says how many digits it has. Two digits
alone stand for a byte. -/
def numbered (x : Bool) (letter : Char) (s : List Char) :
    Except Refusal (Literal × List Char) := do
  match ← after .escapeUnclosed x s with
  | '\x7b' :: rest => do
    let (n, s) ← bracedHex x none (skip x rest)
    match scalar? n with
    | some c => .ok (.char c, s)
    | none => .error .hexadecimalInvalid
  | s => do
    let width := if letter == 'x' then 2 else if letter == 'u' then 4 else 8
    let (n, s) ← fixedHex x width 0 s
    match scalar? n with
    | some c => .ok (if letter == 'x' then .code (UInt8.ofNat n) else .char c, s)
    | none => .error .hexadecimalInvalid

/-- Cuts a name at the first place where `sep` stands. -/
def cut (sep : List Char) : List Char → Option (List Char × List Char)
  | [] => none
  | c :: rest =>
    if sep.isPrefixOf (c :: rest) then some ([], (c :: rest).drop sep.length)
    else (cut sep rest).map fun (a, b) => (c :: a, b)

/-- The question that the name in braces asks. The marks `!=`, `:` and `=` before a value all ask
the same: only the letter before the braces negates. -/
def query (name : List Char) : PropertyQuery :=
  match cut ['!', '='] name <|> cut [':'] name <|> cut ['='] name with
  | some (a, b) => .valued (String.ofList a) (String.ofList b)
  | none => .named (String.ofList name)

/-- Reads a name up to the closing brace. -/
def bracedName (x : Bool) (name : List Char) (s : List Char) :
    Except Refusal (List Char × List Char) :=
  match s with
  | [] => .error .escapeUnclosed
  | '\x7d' :: rest => .ok (name.reverse, rest)
  | c :: rest => bracedName x (c :: name) (skip x rest)
termination_by s.length
decreasing_by simp only [List.length_cons]; have := length_skip_le x rest; omega

/-- Reads a Unicode property after its letter. -/
def property (x : Bool) (s : List Char) : Except Refusal (PropertyQuery × List Char) := do
  match ← after .escapeUnclosed x s with
  | '\x7b' :: rest => do
    let (name, s) ← bracedName x [] (skip x rest)
    .ok (query name, s)
  | '\\' :: _ => .error .escapeUnknown
  | c :: rest => .ok (.named (String.ofList [c]), skip x rest)
  | [] => .error .escapeUnclosed

/-- Reads an escape after its backslash. -/
def escape (x : Bool) (s : List Char) : Except Refusal (Atom × List Char) :=
  match s with
  | [] => .error .escapeUnclosed
  | c :: rest =>
    if c.isDigit then .error .backreference
    else if c == 'x' || c == 'u' || c == 'U' then do
      let (l, s) ← numbered x c rest
      .ok (.literal l, s)
    else if c == 'p' || c == 'P' then do
      let (q, s) ← property x rest
      .ok (.property q (c == 'P'), s)
    else if isEscapable c then .ok (.literal (.char c), rest)
    else
      match c with
      | 'd' => .ok (.letter .digit false, rest)
      | 'D' => .ok (.letter .digit true, rest)
      | 's' => .ok (.letter .space false, rest)
      | 'S' => .ok (.letter .space true, rest)
      | 'w' => .ok (.letter .word false, rest)
      | 'W' => .ok (.letter .word true, rest)
      | 'a' => .ok (.literal (.char '\x07'), rest)
      | 'f' => .ok (.literal (.char '\x0c'), rest)
      | 't' => .ok (.literal (.char '\t'), rest)
      | 'n' => .ok (.literal (.char '\n'), rest)
      | 'r' => .ok (.literal (.char '\r'), rest)
      | 'v' => .ok (.literal (.char '\x0b'), rest)
      | 'A' => .ok (.anchor .textStart, rest)
      | 'z' => .ok (.anchor .textEnd, rest)
      | 'b' => do
        let (a, s) ← boundary x rest
        .ok (.anchor a, s)
      | 'B' => .ok (.anchor .notWordBoundary, rest)
      | '<' => .ok (.anchor .wordStart, rest)
      | '>' => .ok (.anchor .wordEnd, rest)
      | _ => .error .escapeUnknown

/-! ## Bracketed classes -/

/-- An item of a class, before it is known whether it begins a range. -/
def classItem (x : Bool) : List Char → Except Refusal (Atom × List Char)
  | '\\' :: rest => escape x rest
  | c :: rest => .ok (.literal (.char c), rest)
  | [] => .error .classUnclosed

/-- The set of an item that stands alone. -/
def itemSet : Atom → Except Refusal ClassSet
  | .literal l => .ok (.literal l)
  | .letter c n => .ok (.letter c n)
  | .property q n => .ok (.property q n)
  | _ => .error .classItemInvalid

/-- The literal of an item that bounds a range. -/
def itemLiteral : Atom → Except Refusal Literal
  | .literal l => .ok l
  | _ => .error .classRangeInvalid

/-- Reads an item or a range. A hyphen before `]` or another hyphen makes no range. -/
def classRange (x : Bool) (s : List Char) : Except Refusal (ClassSet × List Char) := do
  let (first, s) ← classItem x s
  let s ← after .classUnclosed x s
  if s.head? != some '-' || peek x s == some ']' || peek x s == some '-' then
    let set ← itemSet first
    .ok (set, s)
  else
    let s ← after .classUnclosed x (s.drop 1)
    let (last, s) ← classItem x s
    let low ← itemLiteral first
    let high ← itemLiteral last
    if low.scalar ≤ high.scalar then .ok (.range low high, s) else .error .classRangeInvalid

/-- Reads a named class after its opening bracket. It is no refusal if there is none: the bracket
then opens a class within the class. -/
def namedClass (s : List Char) : Option (ClassSet × List Char) :=
  match s with
  | ':' :: rest =>
    let (negated, rest) := match rest with
      | '^' :: rest => (true, rest)
      | rest => (false, rest)
    match rest.dropWhile (· != ':') with
    | ':' :: ']' :: after =>
      (NamedClass.names.lookup (String.ofList (rest.takeWhile (· != ':')))).map fun c =>
        (.named c negated, after)
    | _ => none
  | _ => none

/-- Reads hyphens that open a class, which are literal. -/
def leadingHyphens (x : Bool) (items : List ClassSet) (s : List Char) :
    Except Refusal (List ClassSet × List Char) :=
  match s with
  | '-' :: rest =>
    match _h : skip x rest with
    | [] => .error .classUnclosed
    | c :: more => leadingHyphens x (.literal (.char '-') :: items) (c :: more)
  | s => .ok (items, s)
termination_by s.length
decreasing_by
  have := length_skip_le x rest
  rw [_h] at this
  simp only [List.length_cons] at this ⊢
  omega

/-- Reads the start of a class after its bracket: whether it is negated, and the hyphens or the
closing bracket that are literal there. The items are in reverse. -/
def classOpening (x : Bool) (s : List Char) :
    Except Refusal ((Bool × List ClassSet) × List Char) := do
  let s ← after .classUnclosed x s
  let (negated, s) ←
    match s with
    | '^' :: rest => do
      let s ← after .classUnclosed x rest
      pure (true, s)
    | s => pure (false, s)
  let (items, s) ← leadingHyphens x [] s
  match items, s with
  | [], ']' :: rest => do
    let s ← after .classUnclosed x rest
    .ok ((negated, [.literal (.char ']')]), s)
  | items, s => .ok ((negated, items), s)

/-- What is open while a class is read: an outer class with its items so far, or an operation that
waits for its right side. -/
inductive ClassFrame where
  | class (outer : List ClassSet) (negated : Bool)
  | operation (op : SetOperation) (left : ClassSet)

/-- The set of the items of a class, which are in reverse. -/
def setOfItems : List ClassSet → ClassSet
  | [] => .empty
  | [item] => item
  | items => .union items.reverse

/-- Applies the operation that waits, if there is one. -/
def applyOperation (right : ClassSet) : List ClassFrame → ClassSet × List ClassFrame
  | .operation op left :: frames => (.operation op left right, frames)
  | frames => (right, frames)

/-- The operator at the front of a text. -/
def operator? : List Char → Option (SetOperation × List Char)
  | '&' :: '&' :: rest => some (.intersection, rest)
  | '-' :: '-' :: rest => some (.difference, rest)
  | '~' :: '~' :: rest => some (.symmetricDifference, rest)
  | _ => none

/-- Reads the contents of a class and its closing bracket. -/
def classBody (x : Bool) :
    Nat → List ClassFrame → List ClassSet → List Char → Except Refusal (Atom × List Char)
  | 0, _, _, _ => .error .classUnclosed
  | fuel + 1, frames, items, s =>
    match skip x s with
    | [] => .error .classUnclosed
    | '[' :: rest =>
      match namedClass rest with
      | some (set, rest) => classBody x fuel frames (set :: items) rest
      | none => do
        let ((negated, inner), s) ← classOpening x rest
        classBody x fuel (.class items negated :: frames) inner s
    | ']' :: rest =>
      match applyOperation (setOfItems items) frames with
      | (set, .class outer negated :: frames) =>
        if frames.isEmpty then .ok (.bracketed negated set, rest)
        else classBody x fuel frames (.bracketed negated set :: outer) rest
      | _ => .error .classUnclosed
    | s =>
      match operator? s with
      | some (op, rest) =>
        let (left, frames) := applyOperation (setOfItems items) frames
        classBody x fuel (.operation op left :: frames) [] rest
      | none => do
        let (set, s) ← classRange x s
        classBody x fuel frames (set :: items) s

/-- Reads a class after its opening bracket. -/
def bracketed (x : Bool) (s : List Char) : Except Refusal (Atom × List Char) := do
  let ((negated, items), rest) ← classOpening x s
  classBody x (rest.length + 1) [.class [] negated] items rest

/-! ## Groups -/

/-- Reads flags up to the colon or parenthesis that ends them. The list is in reverse; `seen` says
that something was read, `negated` that a hyphen was, and `dangling` that it came last. -/
def directive (d : Directive) (seen negated dangling : Bool) :
    List Char → Except Refusal ((Directive × Bool) × List Char)
  | [] => .error .flagsUnclosed
  | c :: rest =>
    if c == ':' || c == ')' then
      if dangling then .error .flagDangling else .ok ((d.reverse, seen), c :: rest)
    else if c == '-' then
      if negated then .error .flagRepeated else directive d true true true rest
    else
      match Flag.ofLetter? c with
      | none => .error .flagUnknown
      | some f =>
        if (d.lookup f).isSome then .error .flagRepeated
        else directive ((f, !negated) :: d) true negated false rest

/-- Whether a character may stand in the name of a group. -/
def isNameChar (first : Bool) (c : Char) : Bool :=
  if first then c == '_' || Text.Property.isAlphabetic c
  else ['_', '.', '[', ']'].contains c || Text.Property.isAlphanumeric c

/-- Reads the name of a group up to the closing bracket. -/
def groupName (name : List Char) : List Char → Except Refusal (String × List Char)
  | [] => .error .groupNameInvalid
  | c :: rest =>
    if c == '>' then
      if name.isEmpty then .error .groupNameInvalid
      else .ok (String.ofList name.reverse, rest)
    else if isNameChar name.isEmpty c then groupName (c :: name) rest
    else .error .groupNameInvalid

/-- Reads the opening of a group, or a change of flags, after its parenthesis. -/
def opening (x : Bool) (s : List Char) : Except Refusal (Token × List Char) :=
  match skip x s with
  | '?' :: '=' :: _ | '?' :: '!' :: _ | '?' :: '<' :: '=' :: _ | '?' :: '<' :: '!' :: _ =>
    .error .lookAround
  | '?' :: 'P' :: '<' :: rest | '?' :: '<' :: rest => do
    let (name, s) ← groupName [] rest
    .ok (.opening (.capture (some name)), s)
  | '?' :: rest => do
    match ← directive [] false false false rest with
    | ((d, seen), ')' :: s) => if seen then .ok (.flags d, s) else .error .operandMissing
    | ((d, _), s) => .ok (.opening (.flagged d), s.drop 1)
  | s => .ok (.opening (.capture none), s)

/-! ## The main loop -/

/-- The new value of `ignoreWhitespace`. -/
def ignores (x : Bool) (d : Directive) : Bool :=
  (d.lookup .ignoreWhitespace).getD x

/-- The anchors and the dot, which are one character each, and the literal characters. -/
def plain : Char → Atom
  | '.' => .dot
  | '^' => .anchor .lineStart
  | '$' => .anchor .lineEnd
  | c => .literal (.char c)

/-- Reads tokens to the end of the text. `saved` holds the values of `ignoreWhitespace` outside the
open groups. -/
def tokenLoop : Nat → Bool → List Bool → List Char → Except Refusal (List Token)
  | 0, _, _, _ => .ok []
  | fuel + 1, x, saved, s =>
    match skip x s with
    | [] => .ok []
    | '(' :: rest => do
      match ← opening x rest with
      | (.flags d, s) => do
        let more ← tokenLoop fuel (ignores x d) saved s
        .ok (.flags d :: more)
      | (.opening (.flagged d), s) => do
        let more ← tokenLoop fuel (ignores x d) (x :: saved) s
        .ok (.opening (.flagged d) :: more)
      | (token, s) => do
        let more ← tokenLoop fuel x (x :: saved) s
        .ok (token :: more)
    | ')' :: rest =>
      match saved with
      | [] => .error .groupUnopened
      | x :: saved => do
        let more ← tokenLoop fuel x saved rest
        .ok (.closing :: more)
    | '|' :: rest => do
      let more ← tokenLoop fuel x saved rest
      .ok (.bar :: more)
    | '[' :: rest => do
      let (a, s) ← bracketed x rest
      let more ← tokenLoop fuel x saved s
      .ok (.atom a :: more)
    | '?' :: rest => do
      let (g, s) := greedy rest
      let more ← tokenLoop fuel x saved s
      .ok (.repetition 0 (some 1) g :: more)
    | '*' :: rest => do
      let (g, s) := greedy rest
      let more ← tokenLoop fuel x saved s
      .ok (.repetition 0 none g :: more)
    | '+' :: rest => do
      let (g, s) := greedy rest
      let more ← tokenLoop fuel x saved s
      .ok (.repetition 1 none g :: more)
    | '\x7b' :: rest => do
      let (token, s) ← counted x rest
      let more ← tokenLoop fuel x saved s
      .ok (token :: more)
    | '\\' :: rest => do
      let (a, s) ← escape x rest
      let more ← tokenLoop fuel x saved s
      .ok (.atom a :: more)
    | c :: rest => do
      let more ← tokenLoop fuel x saved rest
      .ok (.atom (plain c) :: more)

/-- The tokens of a source text. -/
def tokens (s : List Char) : Except Refusal (List Token) :=
  tokenLoop (s.length + 1) false [] s

end ByteSearch.Regex.Lexer
