import ByteSearch.Text.Quoted

/-!
# Failures of a scan

The reasons for which a strategy may give up one run. `Failure.message` is the text of each.
`SearchStop` lists the reasons that the regular expression engine gives while it searches, and
`SearchStop.failure` says which failure each of them is.
-/

namespace ByteSearch.Search

/-- Why a scan failed. -/
inductive Failure where
  /-- The pattern has no bytes. -/
  | emptyPattern
  /-- The engine refuses the pattern. -/
  | notCompiled (pattern : String) (reason : String)
  /-- The scratch capacity is below what the compiled pattern needs. -/
  | scratchTooSmall (capacity : Nat) (reason : String)
  /-- The scratch space ran out at an offset, after it had been cleared some number of times. -/
  | scratchExhausted (offset clears : Nat)
  /-- Any other failure of the engine. -/
  | engine (reason : String)
  deriving DecidableEq, Repr

namespace Failure

/-- The refusal of a pattern, which is shown as text. -/
def refusal (pattern : Bytes) (reason : String) : Failure :=
  .notCompiled (Utf8.lossy pattern) reason

/-- The text of a failure. -/
def message : Failure → String
  | emptyPattern => "Empty search pattern"
  | notCompiled pattern reason => "Unable to compile pattern \"" ++ pattern ++ "\": " ++ reason
  | scratchTooSmall capacity reason =>
    "Unable to allocate scratch space of " ++ toString capacity ++ " bytes: " ++ reason
  | scratchExhausted offset clears =>
    "Scratch space exhausted at offset 0x" ++ String.ofList (Text.lowerHex offset) ++
      " after " ++ toString clears ++ " cache clears"
  | engine reason => "Engine error: " ++ reason

end Failure

/-- Why the engine stopped in the middle of a search. -/
inductive SearchStop where
  /-- The scratch space ran out. -/
  | gaveUp (offset : Nat)
  /-- The search met a byte that it must not step over. -/
  | quit (byte : UInt8) (offset : Nat)
  /-- The haystack is longer than the engine can address. -/
  | tooLong (length : Nat)
  deriving DecidableEq, Repr

namespace SearchStop

/-- A byte as the engine's messages show it: a space in quotes, other printable ASCII as it is, and
an escape for the rest. -/
def byteText (b : UInt8) : String :=
  if b = 0x20 then "' '"
  else if b = 0x09 then "\\t"
  else if b = 0x0A then "\\n"
  else if b = 0x0D then "\\r"
  else if b = 0x22 ∨ b = 0x27 ∨ b = 0x5C then String.ofList ['\\', Char.ofNat b.toNat]
  else if 0x20 < b ∧ b < 0x7F then String.ofList [Char.ofNat b.toNat]
  else String.ofList (Bytes.hexEscape b)

/-- The failure of a scan whose search stopped, given how often the scratch space was cleared. -/
def failure (clears : Nat) : SearchStop → Failure
  | gaveUp offset => .scratchExhausted offset clears
  | quit byte offset =>
    .engine ("quit search after observing byte " ++ byteText byte ++ " at offset " ++
      toString offset)
  | tooLong length => .engine ("haystack of length " ++ toString length ++ " is too long")

end SearchStop

end ByteSearch.Search
