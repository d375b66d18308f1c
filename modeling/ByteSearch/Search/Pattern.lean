import ByteSearch.Text.Quoted

/-!
# Search patterns

A pattern is a byte string with at least one byte. The condition is part of the type, so a strategy
may take the first byte, and one less than the length, without asking.
-/

namespace ByteSearch.Search

/-- A non-empty byte string to search for. -/
structure Pattern where
  bytes : Bytes
  bytes_ne_nil : bytes ≠ []
  deriving DecidableEq

namespace Pattern

/-- The identifier that every event carries: there is only ever one pattern. -/
def identifier : Nat := 0

/-- The pattern of a byte string, unless that is empty. -/
def ofBytes? (bytes : Bytes) : Option Pattern :=
  if h : bytes ≠ [] then some ⟨bytes, h⟩ else none

theorem ofBytes?_eq_none_iff {bytes : Bytes} : ofBytes? bytes = none ↔ bytes = [] := by
  simp [ofBytes?]

theorem bytes_of_ofBytes? {bytes : Bytes} {p : Pattern} (h : ofBytes? bytes = some p) :
    p.bytes = bytes := by
  simp only [ofBytes?] at h
  split at h
  · cases h; rfl
  · cases h

/-- The first byte. -/
def first (p : Pattern) : UInt8 :=
  p.bytes.head p.bytes_ne_nil

/-- The number of bytes. -/
def length (p : Pattern) : Nat :=
  p.bytes.length

theorem length_pos (p : Pattern) : 0 < p.length :=
  List.length_pos_iff.2 p.bytes_ne_nil

/-- The pattern as text, with a replacement character for each malformed run. -/
def text (p : Pattern) : String :=
  Utf8.lossy p.bytes

/-- The pattern as a quoted value. -/
def debug (p : Pattern) : String :=
  "Pattern(" ++ Text.quote p.text ++ ")"

end Pattern

end ByteSearch.Search
