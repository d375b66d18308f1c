import ByteSearch.Proofs.EscapeCount

/-!
# Paths in URLs

A URL that names a file is the scheme and a spelling of the path. It is decoded to the path, except
that a slash which seems to stand before a drive letter is dropped. Whether it does is decided by
the spelling and not by the path: the slash, the byte behind it and a colon must all be written as
themselves (`WritesDrive`), and the byte may be any byte. So a path with a drive letter keeps its
slash if the colon is escaped, and one without may lose it.

Main statements: `pathOf_fileUrl`, and `pathOf_fileUrl_digit` for a path without a drive letter that
loses its slash.
-/

namespace ByteSearch.Cli

/-! ## Schemes -/

theorem stripFront?_append (front s : Bytes) : stripFront? front (front ++ s) = some s := by
  induction front with
  | nil => rfl
  | cons b front ih => rw [List.cons_append, stripFront?, if_pos rfl, ih]

theorem eq_append_of_stripFront? {front s rest : Bytes} (h : stripFront? front s = some rest) :
    s = front ++ rest := by
  induction front generalizing s with
  | nil => exact Option.some.inj h
  | cons b front ih =>
    cases s with
    | nil => cases h
    | cons c s =>
      rw [stripFront?] at h
      split at h
      · rename_i hb
        rw [ih h, hb, List.cons_append]
      · cases h

theorem pathOf_fileScheme (s : Bytes) :
    pathOf (fileScheme ++ s) = percentDecode (if hasDrive s then s.drop 1 else s) := by
  rw [pathOf, stripFront?_append]

/-- A location without the scheme is a path, whatever bytes it has. -/
theorem pathOf_of_not_fileScheme {location : Bytes} (h : ¬fileScheme <+: location) :
    pathOf location = location := by
  cases hstrip : stripFront? fileScheme location with
  | none => rw [pathOf, hstrip]
  | some rest => exact absurd ⟨rest, (eq_append_of_stripFront? hstrip).symm⟩ h

/-! ## Drives -/

/-- A spelling begins with a slash, some byte and a colon, and each is written as itself. -/
def WritesDrive (s : List SpelledByte) : Prop :=
  ∃ slash drive colon rest, s = slash :: drive :: colon :: rest ∧ slash.written = [0x2F] ∧
    drive.written = [drive.byte] ∧ colon.written = [0x3A]

/-- A path begins with a slash, an ASCII letter and a colon. -/
def HasDriveLetter (path : Bytes) : Prop :=
  ∃ letter rest, path = 0x2F :: letter :: 0x3A :: rest ∧
    (0x41 ≤ letter ∧ letter ≤ 0x5A ∨ 0x61 ≤ letter ∧ letter ≤ 0x7A)

theorem isHexDigit_hexByte (c : LetterCase) {n : Nat} (hn : n < 16) :
    isHexDigit (hexByte c n) = true := by
  rw [← isSome_hexValue?, hexValue?_hexByte c hn]
  rfl

/-- A byte is written as itself, or a percent sign and two digits are written for it. -/
theorem SpelledByte.written_cases (s : SpelledByte) :
    s.written = [s.byte] ∨
      ∃ high low, s.written = [percent, high, low] ∧ isHexDigit high = true := by
  obtain ⟨b, spelling, -⟩ := s
  have hb := b.toNat_lt
  cases spelling with
  | itself => exact .inl rfl
  | escape high low =>
    have hdigit : isHexDigit (hexByte high (b.toNat / 16)) = true :=
      isHexDigit_hexByte high (by omega)
    exact .inr ⟨_, _, rfl, hdigit⟩

theorem hasDrive_iff {s : Bytes} :
    hasDrive s = true ↔ ∃ drive rest, s = 0x2F :: drive :: 0x3A :: rest := by
  constructor
  · intro h
    unfold hasDrive at h
    split at h
    · exact ⟨_, _, rfl⟩
    · cases h
  · rintro ⟨drive, rest, rfl⟩
    rfl

/-- What is written begins with a byte that is written as itself, or with the percent sign and the
digits of an escape. -/
theorem exists_cons_of_flatMap_written {s : List SpelledByte} {b : UInt8} {rest : Bytes}
    (h : s.flatMap SpelledByte.written = b :: rest) :
    ∃ first more, s = first :: more ∧
      (first.written = [b] ∧ first.byte = b ∧ rest = more.flatMap SpelledByte.written ∨
        b = percent ∧ ∃ high low, isHexDigit high = true ∧
          rest = high :: low :: more.flatMap SpelledByte.written) := by
  cases s with
  | nil => cases h
  | cons first more =>
    refine ⟨first, more, rfl, ?_⟩
    rw [List.flatMap_cons] at h
    rcases first.written_cases with hitself | ⟨high, low, hescape, hdigit⟩
    · rw [hitself, List.singleton_append, List.cons.injEq] at h
      rw [hitself, h.1]
      exact .inl ⟨rfl, rfl, h.2.symm⟩
    · rw [hescape] at h
      obtain ⟨hb, hrest⟩ := List.cons.inj h
      exact .inr ⟨hb.symm, high, low, hdigit, hrest.symm⟩

/-- Bytes that are escaped are not taken for a slash, for a colon, or for the byte between them. -/
theorem hasDrive_written_iff (s : List SpelledByte) :
    hasDrive (s.flatMap SpelledByte.written) = true ↔ WritesDrive s := by
  rw [hasDrive_iff]
  constructor
  · rintro ⟨drive, rest, hwritten⟩
    obtain ⟨slash, s, rfl, ⟨hslash, -, hbehind⟩ | ⟨hpercent, -⟩⟩ :=
      exists_cons_of_flatMap_written hwritten
    · obtain ⟨drive', s, rfl, ⟨hdrive, rfl, hcolon⟩ | ⟨-, high, low, hdigit, hcolon⟩⟩ :=
        exists_cons_of_flatMap_written hbehind.symm
      · obtain ⟨colon, s, rfl, ⟨hcolon, -, -⟩ | ⟨hpercent, -⟩⟩ :=
          exists_cons_of_flatMap_written hcolon.symm
        · exact ⟨slash, drive', colon, s, rfl, hslash, hdrive, hcolon⟩
        · exact absurd hpercent (by decide)
      · -- behind the percent sign of an escape stands a digit and no colon
        rw [← (List.cons.inj hcolon).1] at hdigit
        exact absurd hdigit (by decide)
    · exact absurd hpercent (by decide)
  · rintro ⟨slash, drive, colon, rest, rfl, hslash, hdrive, hcolon⟩
    refine ⟨drive.byte, rest.flatMap SpelledByte.written, ?_⟩
    simp only [List.flatMap_cons, hslash, hdrive, hcolon, List.cons_append, List.nil_append]

/-! ## Paths -/

theorem percentDecode_flatMap_written (s : List SpelledByte) :
    percentDecode (s.flatMap SpelledByte.written) = s.map SpelledByte.byte := by
  have happend := percentDecode_spelled_append s []
  rwa [percentDecode_nil, List.append_nil, List.append_nil] at happend

theorem pathOf_of_not_writesDrive {s : List SpelledByte} (h : ¬WritesDrive s) :
    pathOf (fileScheme ++ s.flatMap SpelledByte.written) = s.map SpelledByte.byte := by
  rw [pathOf_fileScheme, if_neg (mt (hasDrive_written_iff s).1 h)]
  exact percentDecode_flatMap_written s

theorem pathOf_of_writesDrive {s : List SpelledByte} (h : WritesDrive s) :
    pathOf (fileScheme ++ s.flatMap SpelledByte.written) = (s.map SpelledByte.byte).tail := by
  rw [pathOf_fileScheme, if_pos ((hasDrive_written_iff s).2 h)]
  obtain ⟨slash, drive, colon, rest, rfl, hslash, -⟩ := h
  rw [List.flatMap_cons, hslash, List.singleton_append, List.drop_one, List.tail_cons,
    percentDecode_flatMap_written]
  rfl

/-- A byte that is escaped in any case. -/
def SpelledByte.escaped (b : UInt8) : SpelledByte :=
  ⟨b, .escape .upper .upper, fun h => nomatch h⟩

theorem not_writesDrive_escaped (path : Bytes) : ¬WritesDrive (path.map SpelledByte.escaped) := by
  rintro ⟨slash, drive, colon, rest, hpath, hslash, -⟩
  obtain ⟨b, path, rfl⟩ : ∃ b path', path = b :: path' := by
    cases path with
    | nil => cases hpath
    | cons b path => exact ⟨b, path, rfl⟩
  rw [← (List.cons.inj hpath).1] at hslash
  cases hslash

/-- **Paths in URLs.** Whatever spelling of a path a URL holds, it names this path, unless a slash,
a byte and a colon in front are all written as themselves. Then only the slash is missing. A URL can
name every path, because a spelling can escape these bytes. -/
theorem pathOf_fileUrl (s : List SpelledByte) :
    (pathOf (fileScheme ++ s.flatMap SpelledByte.written) = s.map SpelledByte.byte ↔
        ¬WritesDrive s) ∧
      (WritesDrive s → pathOf (fileScheme ++ s.flatMap SpelledByte.written) =
        (s.map SpelledByte.byte).tail) ∧
      ∀ path, ∃ t : List SpelledByte, t.map SpelledByte.byte = path ∧
        pathOf (fileScheme ++ t.flatMap SpelledByte.written) = path := by
  refine ⟨⟨fun hsame hdrive => ?_, pathOf_of_not_writesDrive⟩, pathOf_of_writesDrive,
    fun path => ⟨path.map SpelledByte.escaped, ?_, ?_⟩⟩
  · have htail := (pathOf_of_writesDrive hdrive).symm.trans hsame
    obtain ⟨slash, drive, colon, rest, rfl, -⟩ := hdrive
    have hlength := congrArg List.length htail
    rw [List.map_cons, List.tail_cons, List.length_cons] at hlength
    omega
  · rw [List.map_map]
    exact List.map_id path
  · rw [pathOf_of_not_writesDrive (not_writesDrive_escaped path), List.map_map]
    exact List.map_id path

/-- A drive letter without its slash, and with it if the colon is escaped. -/
theorem pathOf_fileUrl_drive :
    pathOf (Bytes.ofString "file:///C:/x") = Bytes.ofString "C:/x" ∧
      pathOf (Bytes.ofString "file:///C%3a/x") = Bytes.ofString "/C:/x" := by
  let s : List SpelledByte :=
    [⟨0x2F, .itself, by decide⟩, ⟨0x43, .itself, by decide⟩, ⟨0x3A, .itself, by decide⟩,
      ⟨0x2F, .itself, by decide⟩, ⟨0x78, .itself, by decide⟩]
  let t : List SpelledByte :=
    [⟨0x2F, .itself, by decide⟩, ⟨0x43, .itself, by decide⟩,
      ⟨0x3A, .escape .upper .lower, by decide⟩, ⟨0x2F, .itself, by decide⟩,
      ⟨0x78, .itself, by decide⟩]
  have hs : WritesDrive s := ⟨_, _, _, _, rfl, rfl, rfl, rfl⟩
  have ht : ¬WritesDrive t := by
    rw [← hasDrive_written_iff]
    decide
  exact ⟨(pathOf_fileUrl s).2.1 hs, (pathOf_fileUrl t).1.2 ht⟩

/-- A path that is no drive's: a digit stands before the colon. Written as it is, it loses its slash
and names another file, in the directory where the program runs. -/
theorem pathOf_fileUrl_digit :
    let s : List SpelledByte :=
      [⟨0x2F, .itself, by decide⟩, ⟨0x31, .itself, by decide⟩, ⟨0x3A, .itself, by decide⟩,
        ⟨0x2F, .itself, by decide⟩, ⟨0x78, .itself, by decide⟩]
    s.map SpelledByte.byte = Bytes.ofString "/1:/x" ∧ ¬HasDriveLetter (s.map SpelledByte.byte) ∧
      pathOf (fileScheme ++ s.flatMap SpelledByte.written) = Bytes.ofString "1:/x" ∧
      pathOf (fileScheme ++ s.flatMap SpelledByte.written) ≠ s.map SpelledByte.byte := by
  intro s
  have hwrites : WritesDrive s := ⟨_, _, _, _, rfl, rfl, rfl, rfl⟩
  have hpath := pathOf_of_writesDrive hwrites
  refine ⟨rfl, ?_, hpath, ?_⟩
  · rintro ⟨letter, rest, hcons, hletter⟩
    cases hcons
    revert hletter
    decide
  · rw [hpath]
    decide

end ByteSearch.Cli
