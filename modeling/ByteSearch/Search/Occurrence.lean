import ByteSearch.Search.Pattern

/-!
# Occurrences

`OccursAt h w i` says that the byte string `w` stands in the buffer `h` at offset `i`, and
`candidateStarts` counts the offsets at which a string of some length fits at all.
`occursAt_lt_candidateStarts` says that no occurrence is missed by looking at those only.

`agreesAt` compares byte by byte from an offset on and stops at the first difference;
`agreesAt_iff` says that it decides `OccursAt`.
-/

namespace ByteSearch.Search

/-- The string `w` stands in `h` at offset `i`. -/
def OccursAt (h : Buffer) (w : Bytes) (i : Nat) : Prop :=
  i + w.length ≤ h.size ∧ ∀ j, j < w.length → h[i + j]? = w[j]?

/-- The number of offsets at which a string of length `width` fits into a buffer of `size` bytes. -/
def candidateStarts (size width : Nat) : Nat :=
  if width ≤ size then size - width + 1 else 0

theorem lt_candidateStarts_iff {size width i : Nat} :
    i < candidateStarts size width ↔ i + width ≤ size := by
  unfold candidateStarts
  split <;> omega

theorem candidateStarts_le (size : Nat) {width : Nat} (hpos : 0 < width) :
    candidateStarts size width ≤ size := by
  unfold candidateStarts
  split <;> omega

theorem occursAt_lt_candidateStarts {h : Buffer} {w : Bytes} {i : Nat} (hw : OccursAt h w i) :
    i < candidateStarts h.size w.length :=
  lt_candidateStarts_iff.2 hw.1

/-- Compares byte by byte from offset `i` on, up to the first difference. -/
def agreesAt (h : Buffer) : Bytes → Nat → Bool
  | [], _ => true
  | b :: rest, i => h[i]? == some b && agreesAt h rest (i + 1)

theorem agreesAt_iff {h : Buffer} {w : Bytes} {i : Nat} (hi : i ≤ h.size) :
    agreesAt h w i = true ↔ OccursAt h w i := by
  induction w generalizing i with
  | nil => simpa [agreesAt, OccursAt] using hi
  | cons b rest ih =>
    simp only [agreesAt, Bool.and_eq_true, beq_iff_eq]
    constructor
    · rintro ⟨hb, hr⟩
      have hlt : i < h.size := by
        rw [Array.getElem?_eq_some_iff] at hb
        exact hb.1
      obtain ⟨hsize, hall⟩ := (ih (by omega)).1 hr
      refine ⟨by simp only [List.length_cons]; omega, fun j hj => ?_⟩
      cases j with
      | zero => simpa using hb
      | succ j =>
        have := hall j (by simpa using hj)
        simpa [Nat.add_assoc, Nat.add_comm 1 j] using this
    · rintro ⟨hsize, hall⟩
      simp only [List.length_cons] at hsize
      refine ⟨by simpa using hall 0 (by simp), (ih (by omega)).2 ⟨by omega, fun j hj => ?_⟩⟩
      have := hall (j + 1) (by simpa using hj)
      simpa [Nat.add_assoc, Nat.add_comm 1 j] using this

end ByteSearch.Search
