import ByteSearch.Cli.FileSystem
import ByteSearch.Cli.Location
import ByteSearch.Text.Quoted

/-!
# Input files

The haystack is the content of a file. `InputFile.load` finds the file of a location and takes its
content, which must not be empty. Failures name the path and not the location.
-/

namespace ByteSearch.Cli

/-- Why an input file cannot be used. -/
inductive InputFailure where
  | notFound (path : Bytes)
  | permissionDenied (path : Bytes)
  | notOpened (path : Bytes) (cause : SystemFailure)
  | empty (path : Bytes)
  | notMapped (path : Bytes) (cause : SystemFailure)
  deriving DecidableEq, Repr

namespace InputFailure

/-- A path in quotes, as text. -/
def named (path : Bytes) : String :=
  "\"" ++ Utf8.lossy path ++ "\""

/-- The text of a failure. -/
def message : InputFailure → String
  | notFound path => "file " ++ named path ++ " doesn't exist"
  | permissionDenied path => "file " ++ named path ++ " can't be read"
  | notOpened path cause => "unable to open file " ++ named path ++ ": " ++ cause.message
  | empty path => "input file " ++ named path ++ " is empty"
  | notMapped path cause => "unable to map file " ++ named path ++ ": " ++ cause.message

/-- The failure of the system behind a failure. -/
def cause? : InputFailure → Option SystemFailure
  | notOpened _ cause | notMapped _ cause => some cause
  | _ => none

end InputFailure

/-- A file with content. -/
structure InputFile where
  location : Bytes
  path : Bytes
  content : Buffer
  content_ne : content ≠ #[]

namespace InputFile

/-- The number of bytes. -/
def length (f : InputFile) : Nat :=
  f.content.size

/-- The file that a location names. Every file that is there has a length and a content; a system
that may not answer when it is asked for them is in `Cli/SystemCalls`. -/
def load (files : FileSystem) (location : Bytes) : Except InputFailure InputFile :=
  let path := pathOf location
  match files path with
  | .error .notFound => .error (.notFound path)
  | .error .permissionDenied => .error (.permissionDenied path)
  | .error cause => .error (.notOpened path cause)
  | .ok .directory => .error (.notMapped path .noSuchDevice)
  | .ok (.file content) =>
    if h : content ≠ #[] then .ok ⟨location, path, content, h⟩ else .error (.empty path)

/-- The file without its content. -/
def debug (f : InputFile) : String :=
  "InputFile \x7b location: " ++ Text.quoteBytes f.location ++ ", path: " ++
    Text.quoteBytes f.path ++ ", len: " ++ toString f.length ++ " \x7d"

end InputFile

end ByteSearch.Cli
