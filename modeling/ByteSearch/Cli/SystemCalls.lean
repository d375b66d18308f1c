import ByteSearch.Cli.InputFile

/-!
# Questions to the system

On the way to the bytes of a file the system is asked three times: to open the path, how many bytes
the open file has, and to map them into memory. It can fail each time. `InputFile.ask` asks in this
order, and a file without bytes is refused before it would be mapped. `InputFile.loadBy` is the
whole way from the location to the file.

`InputFile.load` asks only once, what the path names. Where paths name files and directories that is
enough (`loadBy_system`), and a `FileSystem` can be used as a `System`.
-/

namespace ByteSearch.Cli

/-- What the system answers about a file that is open. -/
structure OpenFile where
  /-- How many bytes it has. -/
  length : Except SystemFailure Nat
  /-- Its bytes in memory. -/
  mapped : Except SystemFailure Buffer
  /-- A file is mapped as a whole. -/
  length_of_mapped : ∀ content, mapped = .ok content → length = .ok content.size

/-- What the system answers when a path is to be opened. Nothing but the path matters. -/
abbrev System := Bytes → Except SystemFailure OpenFile

/-- The bytes of an open file, which has some. -/
def OpenFile.content (file : OpenFile) (path : Bytes) :
    Except InputFailure { content : Buffer // content ≠ #[] } :=
  match hlength : file.length with
  | .error cause => .error (.notOpened path cause)
  | .ok 0 => .error (.empty path)
  | .ok (_ + 1) =>
    match hmapped : file.mapped with
    | .error cause => .error (.notMapped path cause)
    | .ok content =>
      .ok ⟨content, fun hempty => by
        have hsize := file.length_of_mapped content hmapped
        rw [hlength, hempty] at hsize
        cases hsize⟩

namespace InputFile

/-- The bytes of the file that a path names. -/
def ask (system : System) (path : Bytes) :
    Except InputFailure { content : Buffer // content ≠ #[] } :=
  match system path with
  | .error .notFound => .error (.notFound path)
  | .error .permissionDenied => .error (.permissionDenied path)
  | .error cause => .error (.notOpened path cause)
  | .ok file => file.content path

/-- The file that a location names. -/
def loadBy (system : System) (location : Bytes) : Except InputFailure InputFile :=
  let path := pathOf location
  (ask system path).map fun content => ⟨location, path, content.1, content.2⟩

end InputFile

/-! ## Files and directories -/

/-- The number of bytes that a directory says it has. -/
def directoryLength : Nat := 4096

/-- What a file or a directory answers when it is open. A directory cannot be mapped. -/
def Opened.answers : Opened → OpenFile
  | .file content => ⟨.ok content.size, .ok content, fun _ h => by rw [Except.ok.inj h]⟩
  | .directory => ⟨.ok directoryLength, .error .noSuchDevice, fun _ h => nomatch h⟩

/-- The system that answers from files and directories. -/
def FileSystem.system (files : FileSystem) : System := fun path =>
  (files path).map Opened.answers

instance : Coe FileSystem System := ⟨FileSystem.system⟩

theorem OpenFile.content_file (content : Buffer) (path : Bytes) :
    (Opened.file content).answers.content path =
      if h : content ≠ #[] then .ok ⟨content, h⟩ else .error (.empty path) := by
  obtain ⟨bytes⟩ := content
  cases bytes with
  | nil => rfl
  | cons b bytes => rfl

namespace InputFile

/-- One question is enough for files and directories. -/
theorem loadBy_system (files : FileSystem) (location : Bytes) :
    loadBy (FileSystem.system files) location = load files location := by
  simp only [loadBy, ask, load, FileSystem.system]
  cases files (pathOf location) with
  | error failure => cases failure <;> rfl
  | ok opened =>
    cases opened with
    | directory => rfl
    | file content =>
      show ((Opened.file content).answers.content _).map _ = _
      rw [OpenFile.content_file]
      by_cases hcontent : content ≠ #[]
      · simp only [dif_pos hcontent]
        rfl
      · simp only [dif_neg hcontent]
        rfl

end InputFile

end ByteSearch.Cli
