import ByteSearch.Cli.SystemCalls
import ByteSearch.Proofs.FileUrls

/-!
# Loading a file by path or by URL

What the system answers depends on the path, and of the location only the path is asked for
(`InputFile.ask`). So two locations of one path have the same outcome, and a file that is loaded
differs in the location that it keeps. A relative path and a URL that spells it are such locations:
neither begins with the slash of a drive, the path is taken as it is, and the URL is decoded once.

Main statement: `loadBy_relative`.
-/

namespace ByteSearch.Cli

/-- The path that a failure names. -/
def InputFailure.path : InputFailure → Bytes
  | notFound path | permissionDenied path | notOpened path _ | empty path | notMapped path _ => path

/-! ## Answers -/

/-- The content is all that the system maps, as many bytes as it says the file has. -/
theorem OpenFile.content_eq_ok {file : OpenFile} {path : Bytes}
    {content : { content : Buffer // content ≠ #[] }} (h : file.content path = .ok content) :
    file.mapped = .ok content.1 ∧ file.length = .ok content.1.size := by
  unfold OpenFile.content at h
  split at h
  · cases h
  · cases h
  · split at h
    · cases h
    · rename_i hmapped
      cases h
      exact ⟨hmapped, file.length_of_mapped _ hmapped⟩

theorem OpenFile.path_of_content {file : OpenFile} {path : Bytes} {failure : InputFailure}
    (h : file.content path = .error failure) : failure.path = path := by
  unfold OpenFile.content at h
  split at h
  · cases h
    rfl
  · cases h
    rfl
  · split at h
    · cases h
      rfl
    · cases h

namespace InputFile

variable {system : System} {path : Bytes}

theorem ask_eq_ok {content : { content : Buffer // content ≠ #[] }}
    (h : ask system path = .ok content) :
    ∃ file, system path = .ok file ∧ file.mapped = .ok content.1 ∧
      file.length = .ok content.1.size := by
  unfold ask at h
  split at h
  · cases h
  · cases h
  · cases h
  · rename_i file hfile
    exact ⟨file, hfile, OpenFile.content_eq_ok h⟩

/-- Whatever fails, the path is named. -/
theorem path_of_ask {failure : InputFailure} (h : ask system path = .error failure) :
    failure.path = path := by
  unfold ask at h
  split at h
  · cases h
    rfl
  · cases h
    rfl
  · cases h
    rfl
  · exact OpenFile.path_of_content h

/-! ## Locations of one path -/

theorem loadBy_of_ask_error {location : Bytes} (hpath : pathOf location = path)
    {failure : InputFailure} (h : ask system path = .error failure) :
    loadBy system location = .error failure := by
  simp only [loadBy, hpath, h]
  rfl

theorem loadBy_of_ask_ok {location : Bytes} (hpath : pathOf location = path)
    {content : { content : Buffer // content ≠ #[] }} (h : ask system path = .ok content) :
    loadBy system location = .ok ⟨location, path, content.1, content.2⟩ := by
  simp only [loadBy, hpath, h]
  rfl

end InputFile

theorem not_writesDrive_of_relative {s : List SpelledByte}
    (h : (s.map SpelledByte.byte).head? ≠ some 0x2F) : ¬WritesDrive s := by
  rintro ⟨slash, drive, colon, rest, rfl, hslash, -⟩
  refine h ?_
  rcases slash.written_cases with hitself | ⟨high, low, hescape, -⟩
  · rw [hslash] at hitself
    rw [List.map_cons, List.head?_cons, (List.cons.inj hitself).1]
  · rw [hslash] at hescape
    cases hescape

open InputFile in
/-- **Loading by path or by URL.** A relative path and a URL that spells it have the same outcome,
whatever the system answers. Either both name a file, which has bytes and is mapped as a whole, and
only the locations differ; or both fail in the same way, and the failure names the path. -/
theorem loadBy_relative (system : System) (s : List SpelledByte)
    (hrelative : (s.map SpelledByte.byte).head? ≠ some 0x2F)
    (hplain : ¬fileScheme <+: s.map SpelledByte.byte) :
    let path := s.map SpelledByte.byte
    let url := fileScheme ++ s.flatMap SpelledByte.written
    (∃ plain named, loadBy system path = .ok plain ∧ loadBy system url = .ok named ∧
        plain.location = path ∧ named.location = url ∧ plain.path = path ∧ named.path = path ∧
        named.content = plain.content ∧ named.length = plain.length ∧ 0 < plain.length ∧
        ∃ file, system path = .ok file ∧ file.mapped = .ok plain.content ∧
          file.length = .ok plain.length) ∨
      ∃ failure, loadBy system path = .error failure ∧ loadBy system url = .error failure ∧
        failure.path = path := by
  intro path url
  have hpath : pathOf path = path := pathOf_of_not_fileScheme hplain
  have hurl : pathOf url = path := pathOf_of_not_writesDrive (not_writesDrive_of_relative hrelative)
  cases hask : ask system path with
  | error failure =>
    exact .inr ⟨failure, loadBy_of_ask_error hpath hask, loadBy_of_ask_error hurl hask,
      path_of_ask hask⟩
  | ok content =>
    have hlength : 0 < content.1.size := Array.size_pos_iff.2 content.2
    exact .inl ⟨_, _, loadBy_of_ask_ok hpath hask, loadBy_of_ask_ok hurl hask, rfl, rfl, rfl, rfl,
      rfl, rfl, hlength, ask_eq_ok hask⟩

open InputFile in
/-- A file whose name has a percent sign and a byte that is not UTF-8. Its plain path is not
decoded, and the URL is decoded once: `%25` and `61` make no second escape. -/
theorem loadBy_relative_percent :
    let path : Bytes := [0x25, 0x36, 0x31, 0xFE]
    let url := Bytes.ofString "file://%2561%fE"
    let file : OpenFile := ⟨.ok 2, .ok #[0x68, 0x69], fun _ h => by rw [← Except.ok.inj h]; rfl⟩
    let system : System := fun asked => if asked = path then .ok file else .error .notFound
    path.head? ≠ some 0x2F ∧ ¬fileScheme <+: path ∧
      ∃ plain named, loadBy system path = .ok plain ∧ loadBy system url = .ok named ∧
        plain.location = path ∧ named.location = url ∧ named.path = path ∧
        plain.content = #[0x68, 0x69] ∧ named.content = plain.content := by
  intro path url file system
  have hrelative : path.head? ≠ some 0x2F := by decide
  have hplain : ¬fileScheme <+: path := by decide
  have hfile : system path = .ok file := if_pos rfl
  refine ⟨hrelative, hplain, ?_⟩
  rcases loadBy_relative system
      [⟨0x25, .escape .upper .upper, by decide⟩, ⟨0x36, .itself, by decide⟩,
        ⟨0x31, .itself, by decide⟩, ⟨0xFE, .escape .lower .upper, by decide⟩] hrelative hplain with
    ⟨plain, named, hload, hnamed, hlocation, hurl, -, hpath, hcontent, -, -, file', hfile', hmapped,
      -⟩ | ⟨failure, hload, -⟩
  · obtain rfl := Except.ok.inj (hfile.symm.trans hfile')
    exact ⟨plain, named, hload, hnamed, hlocation, hurl, hpath, (Except.ok.inj hmapped).symm,
      hcontent⟩
  · cases hload

end ByteSearch.Cli
