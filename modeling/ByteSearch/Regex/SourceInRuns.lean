import ByteSearch.Regex.Source

/-!
# The source text, run by run

The source text of a pattern can also be written in longer steps. `Utf8.fault?` reads a byte string
as UTF-8 up to the first byte that no character has there, and says how much was well-formed and how
much is wrong. `sourceInRuns` copies what was well-formed, escapes what is wrong, and goes on behind
it. A byte string that ends within a character is wrong to its end.
-/

namespace ByteSearch

namespace Utf8

/-- Where a byte string stops being well-formed. -/
structure Fault where
  /-- The number of well-formed bytes before it. -/
  validUpTo : Nat
  /-- The number of bytes that are wrong, unless the byte string ends within a character. -/
  length? : Option Nat
  deriving DecidableEq, Repr

/-- The fault as it is seen from a number of bytes further in front. -/
def Fault.after (f : Fault) (n : Nat) : Fault :=
  { f with validUpTo := n + f.validUpTo }

/-- The first fault of a byte string, if it has one. -/
def fault? : Bytes → Option Fault
  | [] => none
  | b :: rest =>
    if b < 0x80 then (fault? rest).map (·.after 1)
    else
      match lead? b with
      | none => some ⟨0, some 1⟩
      | some lead =>
        let tail := continuations lead.continuations lead.low lead.high rest
        if tail.length = lead.continuations then
          (fault? (rest.drop tail.length)).map (·.after (tail.length + 1))
        else if tail.length = rest.length then some ⟨0, none⟩
        else some ⟨0, some (tail.length + 1)⟩
termination_by s => s.length
decreasing_by all_goals simp only [List.length_cons, List.length_drop]; omega

theorem fault?_bounds {s : Bytes} {f : Fault} (hf : fault? s = some f) :
    f.validUpTo < s.length ∧ ∀ n, f.length? = some n → 0 < n := by
  fun_induction fault? s generalizing f with
  | case1 => cases hf
  | case2 b rest hb ih =>
    obtain ⟨g, hg, rfl⟩ := Option.map_eq_some_iff.1 hf
    have hbounds := ih hg
    refine ⟨?_, hbounds.2⟩
    simp only [Fault.after, List.length_cons]
    omega
  | case3 b rest hb hl =>
    cases hf
    simp
  | case4 b rest hb lead hl tail htail =>
    rename_i ih
    obtain ⟨g, hg, rfl⟩ := Option.map_eq_some_iff.1 hf
    have hbounds := ih hg
    rw [List.length_drop] at hbounds
    refine ⟨?_, hbounds.2⟩
    simp only [Fault.after, List.length_cons]
    omega
  | case5 b rest hb lead hl tail htail =>
    cases hf
    simp
  | case6 b rest hb lead hl tail htail =>
    cases hf
    simp

end Utf8

namespace Regex

/-- The source text of a pattern, in steps from one fault to the next. -/
def sourceInRuns (s : Bytes) : List Char :=
  match _hf : Utf8.fault? s with
  | none => ((Utf8.decode? s).getD "").toList
  | some f =>
    let wrong := f.length?.getD (s.drop f.validUpTo).length
    ((Utf8.decode? (s.take f.validUpTo)).getD "").toList ++
      ((s.drop f.validUpTo).take wrong).flatMap Bytes.hexEscape ++
      sourceInRuns ((s.drop f.validUpTo).drop wrong)
termination_by s.length
decreasing_by
  obtain ⟨hvalid, hpos⟩ := Utf8.fault?_bounds _hf
  simp only [List.length_drop]
  cases hlength : f.length? with
  | none => simp only [Option.getD_none]; omega
  | some n => have := hpos n hlength; simp only [Option.getD_some]; omega

end Regex

end ByteSearch
