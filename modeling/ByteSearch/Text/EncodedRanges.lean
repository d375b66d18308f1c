import ByteSearch.Text.Ranges

/-!
# Ranges of characters as ranges of bytes

The encodings of a range of code points do not form one range of byte strings, but a few: within
each of them every place of the encoding has its own range of bytes, and all combinations occur.
`encodedRanges` gives them in ascending order.
-/

namespace ByteSearch.Text

/-- The ranges of byte strings for the numbers from `low` to `high`, written as a first byte on top
of `lead` and `more` bytes with six bits each. -/
def bytePlaces : Nat → Nat → Nat → Nat → List (List Range)
  | 0, lead, low, high => [[⟨lead + low, lead + high⟩]]
  | more + 1, lead, low, high =>
    let block := 1 <<< (6 * (more + 1))
    let first := low / block
    let last := high / block
    let under (n low high : Nat) :=
      (bytePlaces more 0x80 low high).map (⟨lead + n, lead + n⟩ :: ·)
    if first = last then under first (low % block) (high % block)
    else
      let cutLow := low % block ≠ 0
      let cutHigh := high % block ≠ block - 1
      let fullLow := if cutLow then first + 1 else first
      let fullHigh := if cutHigh then last - 1 else last
      (if cutLow then under first (low % block) (block - 1) else []) ++
        (if fullLow ≤ fullHigh then
          [⟨lead + fullLow, lead + fullHigh⟩ :: List.replicate (more + 1) ⟨0x80, 0xBF⟩]
        else []) ++
        (if cutHigh then under last 0 (high % block) else [])

/-- The code points with encodings of one form: the number of bytes after the first, what the first
byte adds, and the bounds. Surrogates have no encoding. -/
def encodedForms : List (Nat × Nat × Range) :=
  [(0, 0, ⟨0, 0x7F⟩), (1, 0xC0, ⟨0x80, 0x7FF⟩), (2, 0xE0, ⟨0x800, 0xD7FF⟩),
    (2, 0xE0, ⟨0xE000, 0xFFFF⟩), (3, 0xF0, ⟨0x10000, 0x10FFFF⟩)]

/-- The ranges of byte strings that encode the code points of a range. -/
def encodedRanges (r : Range) : List (List Range) :=
  encodedForms.flatMap fun (more, lead, form) =>
    let low := max r.low form.low
    let high := min r.high form.high
    if low ≤ high then bytePlaces more lead low high else []

end ByteSearch.Text
