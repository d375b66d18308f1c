import ByteSearch.Bytes

/-!
# Locations

A location names an input file: it is a path, or a URL that starts with `file://`. In a URL every
byte may be written as a percent sign and two hexadecimal digits. `percentDecode` reads such
escapes; a percent sign without two digits behind it stands for itself. `Location.path` is the path
of a location.
-/

namespace ByteSearch.Cli

/-- The percent sign. -/
def percent : UInt8 := 0x25

/-- The byte that an escape at the front of a byte string stands for. -/
def escaped? : Bytes → Option UInt8
  | sign :: high :: low :: _ =>
    if sign = percent then do
      let high ← Bytes.hexValue? high
      let low ← Bytes.hexValue? low
      pure (high * 16 + low)
    else none
  | _ => none

/-- The bytes that a byte string with escapes stands for. -/
def percentDecode : Bytes → Bytes
  | [] => []
  | b :: rest =>
    match escaped? (b :: rest) with
    | some decoded => decoded :: percentDecode (rest.drop 2)
    | none => b :: percentDecode rest
termination_by s => s.length
decreasing_by all_goals simp only [List.length_cons, List.length_drop]; omega

/-- The start of a URL that names a file. -/
def fileScheme : Bytes :=
  Bytes.ofString "file://"

/-- What stands behind some bytes at the front of a byte string, if they stand there. -/
def stripFront? : Bytes → Bytes → Option Bytes
  | [], s => some s
  | a :: as, b :: bs => if a = b then stripFront? as bs else none
  | _ :: _, [] => none

/-- Whether a path begins with a slash, some byte and a colon, as paths with a drive letter do in
URLs. -/
def hasDrive : Bytes → Bool
  | 0x2F :: _ :: 0x3A :: _ => true
  | _ => false

/-- The path that a location names. The slash before a drive letter does not belong to it. -/
def pathOf (location : Bytes) : Bytes :=
  match stripFront? fileScheme location with
  | none => location
  | some rest => percentDecode (if hasDrive rest then rest.drop 1 else rest)

end ByteSearch.Cli
