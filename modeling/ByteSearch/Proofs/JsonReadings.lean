import ByteSearch.Json.Grammar
import Mathlib.Data.Nat.Basic

/-!
# JSON texts are unambiguous

A text begins with one value only, and it is clear where that ends. Numbers are read as far as they
go, so every rule of the grammar fixes what stands behind it, and the first character fixes the
rule.

Main statement: `Reads.unique`.
-/

namespace ByteSearch.Json

/-! ## Numbers -/

theorem ReadsDigits.unique {s digits digits' rest rest' : List Char}
    (h : ReadsDigits s digits rest) (h' : ReadsDigits s digits' rest') :
    digits' = digits ∧ rest' = rest :=
  ⟨h'.digits_eq.trans h.digits_eq.symm, h'.rest_eq.trans h.rest_eq.symm⟩

theorem ReadsDigits.head {s digits rest : List Char} (h : ReadsDigits s digits rest) :
    ∃ c t, s = c :: t ∧ c.isDigit = true := by
  cases s with
  | nil => exact absurd h.digits_eq h.digits_ne_nil
  | cons c t =>
    refine ⟨c, t, rfl, ?_⟩
    by_contra hc
    refine h.digits_ne_nil ?_
    rw [h.digits_eq, List.takeWhile_cons_of_neg hc]

theorem ReadsPlaces.unique {s digits digits' rest rest' : List Char}
    (h : ReadsPlaces s digits rest) (h' : ReadsPlaces s digits' rest') :
    digits' = digits ∧ rest' = rest := by
  cases h with
  | absent hpoint =>
    cases h' with
    | absent => exact ⟨rfl, rfl⟩
    | present => exact absurd rfl hpoint
  | present hdigits =>
    cases h' with
    | absent hpoint => exact absurd rfl hpoint
    | present hdigits' => exact hdigits.unique hdigits'

theorem ReadsSign.unique {s rest rest' : List Char} {sign sign' : Int}
    (h : ReadsSign s sign rest) (h' : ReadsSign s sign' rest') : sign' = sign ∧ rest' = rest := by
  cases h with
  | absent hsign =>
    cases h' with
    | absent => exact ⟨rfl, rfl⟩
    | plus => exact absurd rfl hsign.1
    | minus => exact absurd rfl hsign.2
  | plus =>
    cases h' with
    | absent hsign => exact absurd rfl hsign.1
    | plus => exact ⟨rfl, rfl⟩
  | minus =>
    cases h' with
    | absent hsign => exact absurd rfl hsign.2
    | minus => exact ⟨rfl, rfl⟩

theorem ReadsExponent.unique {s rest rest' : List Char} {exponent exponent' : Int}
    (h : ReadsExponent s exponent rest) (h' : ReadsExponent s exponent' rest') :
    exponent' = exponent ∧ rest' = rest := by
  have hmarked {mark : Char} {t : List Char} (hmark : mark = 'e' ∨ mark = 'E')
      (hno : (mark :: t).head? ≠ some 'e' ∧ (mark :: t).head? ≠ some 'E') : False := by
    rcases hmark with rfl | rfl
    · exact hno.1 rfl
    · exact hno.2 rfl
  cases h with
  | absent hno =>
    cases h' with
    | absent => exact ⟨rfl, rfl⟩
    | present hmark => exact (hmarked hmark hno).elim
  | present hmark hsign hdigits =>
    cases h' with
    | absent hno => exact (hmarked hmark hno).elim
    | present hmark' hsign' hdigits' =>
      obtain ⟨rfl, rfl⟩ := hsign.unique hsign'
      obtain ⟨rfl, rfl⟩ := hdigits.unique hdigits'
      exact ⟨rfl, rfl⟩

theorem ReadsMagnitude.unique {s rest rest' : List Char} {x x' : Rat}
    (h : ReadsMagnitude s x rest) (h' : ReadsMagnitude s x' rest') : x' = x ∧ rest' = rest := by
  obtain ⟨hwhole, -, hplaces, hexponent⟩ := h
  obtain ⟨hwhole', -, hplaces', hexponent'⟩ := h'
  obtain ⟨rfl, rfl⟩ := hwhole.unique hwhole'
  obtain ⟨rfl, rfl⟩ := hplaces.unique hplaces'
  obtain ⟨rfl, rfl⟩ := hexponent.unique hexponent'
  exact ⟨rfl, rfl⟩

/-- A number begins with a digit. -/
theorem ReadsMagnitude.isDigit {c : Char} {s rest : List Char} {x : Rat}
    (h : ReadsMagnitude (c :: s) x rest) : c.isDigit = true := by
  obtain ⟨hwhole, -, -, -⟩ := h
  obtain ⟨c', t, heq, hdigit⟩ := hwhole.head
  rwa [(List.cons.inj heq).1]

/-! ## Strings -/

theorem IsHexDigit.unique {c : Char} {m n : Nat} (h : IsHexDigit c m) (h' : IsHexDigit c n) :
    n = m := by
  have hall : ∀ m < 16, ∀ n < 16, (Nat.digitChar m = Nat.digitChar n → n = m) ∧
      (Nat.digitChar m = Bytes.hexDigit n → n = m) ∧
      (Bytes.hexDigit m = Nat.digitChar n → n = m) ∧
      (Bytes.hexDigit m = Bytes.hexDigit n → n = m) := by decide
  obtain ⟨hm, rfl | rfl⟩ := h
  · obtain ⟨hn, hc | hc⟩ := h'
    · exact (hall m hm n hn).1 hc
    · exact (hall m hm n hn).2.1 hc
  · obtain ⟨hn, hc | hc⟩ := h'
    · exact (hall m hm n hn).2.2.1 hc
    · exact (hall m hm n hn).2.2.2 hc

theorem IsCodeUnit.unique {a b c d : Char} {m n : Nat} (h : IsCodeUnit a b c d m)
    (h' : IsCodeUnit a b c d n) : n = m := by
  obtain ⟨i, j, k, l, hi, hj, hk, hl, rfl⟩ := h
  obtain ⟨i', j', k', l', hi', hj', hk', hl', rfl⟩ := h'
  rw [hi.unique hi', hj.unique hj', hk.unique hk', hl.unique hl']

theorem ReadsChar.unique {s rest rest' : List Char} {c c' : Char} (h : ReadsChar s c rest)
    (h' : ReadsChar s c' rest') : c' = c ∧ rest' = rest := by
  cases h with
  | plain hcontrol hquote hbackslash =>
    cases h' with
    | plain => exact ⟨rfl, rfl⟩
    | short | code | surrogates => exact absurd rfl hbackslash
  | short hshort =>
    cases h' with
    | plain hcontrol hquote hbackslash => exact absurd rfl hbackslash
    | short hshort' =>
      rw [hshort, Option.some.injEq] at hshort'
      exact ⟨hshort'.symm, rfl⟩
    | code | surrogates => cases hshort
  | code hcode hscalar =>
    cases h' with
    | plain hcontrol hquote hbackslash => exact absurd rfl hbackslash
    | short hshort => cases hshort
    | code hcode' =>
      rw [hcode.unique hcode']
      exact ⟨rfl, rfl⟩
    | surrogates hhigh hlow hhighs =>
      rw [hcode.unique hhigh] at hhighs
      omega
  | surrogates hhigh hlow hhighs hlows =>
    cases h' with
    | plain hcontrol hquote hbackslash => exact absurd rfl hbackslash
    | short hshort => cases hshort
    | code hcode hscalar =>
      rw [hhigh.unique hcode] at hscalar
      omega
    | surrogates hhigh' hlow' =>
      rw [hhigh.unique hhigh', hlow.unique hlow']
      exact ⟨rfl, rfl⟩

/-- No character is written as the closing quote. -/
theorem ReadsChar.not_quote {s rest : List Char} {c : Char} : ¬ ReadsChar ('"' :: s) c rest := by
  intro h
  cases h with
  | plain hcontrol hquote hbackslash => exact hquote rfl

theorem ReadsChars.unique {s chars chars' rest rest' : List Char} (h : ReadsChars s chars rest)
    (h' : ReadsChars s chars' rest') : chars' = chars ∧ rest' = rest := by
  induction h generalizing chars' with
  | closed =>
    cases h' with
    | closed => exact ⟨rfl, rfl⟩
    | char hc' => exact (ReadsChar.not_quote hc').elim
  | char hc hchars ih =>
    cases h' with
    | closed => exact (ReadsChar.not_quote hc).elim
    | char hc' hchars' =>
      obtain ⟨rfl, rfl⟩ := hc.unique hc'
      obtain ⟨rfl, rfl⟩ := ih hchars'
      exact ⟨rfl, rfl⟩

/-! ## Values -/

/-- No value begins with a closing bracket. -/
theorem Reads.not_bracket {s rest : List Char} {v : Value} : ¬ Reads (']' :: s) v rest := by
  intro h
  cases h with
  | positive h => exact absurd h.isDigit (by decide)

/-- No member begins with a closing brace. -/
theorem ReadsMember.not_brace {s t rest : List Char} {member : String × Value}
    (hs : skip s = '\x7d' :: t) : ¬ ReadsMember s member rest := by
  rintro ⟨hquote, -, -, -⟩
  rw [hs] at hquote
  cases hquote

theorem ReadsItems.not_closed {s t rest : List Char} {items : List Value}
    (hs : skip s = ']' :: t) : ¬ ReadsItems s items rest := by
  intro h
  cases h with
  | last hv | more hv =>
    rw [hs] at hv
    exact Reads.not_bracket hv

theorem ReadsMembers.not_closed {s t rest : List Char} {members : List (String × Value)}
    (hs : skip s = '\x7d' :: t) : ¬ ReadsMembers s members rest := by
  intro h
  cases h with
  | last hmember | more hmember => exact ReadsMember.not_brace hs hmember

-- The recursion is on the value that is read: its parts are smaller, whatever their texts are.
mutual

theorem Reads.unique {s rest rest' : List Char} {v v' : Value} (h : Reads s v rest)
    (h' : Reads s v' rest') : v' = v ∧ rest' = rest := by
  cases h with
  | null =>
    cases h' with
    | null => exact ⟨rfl, rfl⟩
    | positive h' => exact absurd h'.isDigit (by decide)
  | true =>
    cases h' with
    | true => exact ⟨rfl, rfl⟩
    | positive h' => exact absurd h'.isDigit (by decide)
  | false =>
    cases h' with
    | false => exact ⟨rfl, rfl⟩
    | positive h' => exact absurd h'.isDigit (by decide)
  | positive h =>
    cases h' with
    | positive h' =>
      obtain ⟨rfl, rfl⟩ := h.unique h'
      exact ⟨rfl, rfl⟩
    | null | true | false | negative | string | emptyArray | array | emptyObject | object =>
      exact absurd h.isDigit (by decide)
  | negative h =>
    cases h' with
    | positive h' => exact absurd h'.isDigit (by decide)
    | negative h' =>
      obtain ⟨rfl, rfl⟩ := h.unique h'
      exact ⟨rfl, rfl⟩
  | string h =>
    cases h' with
    | positive h' => exact absurd h'.isDigit (by decide)
    | string h' =>
      obtain ⟨rfl, rfl⟩ := h.unique h'
      exact ⟨rfl, rfl⟩
  | emptyArray h =>
    cases h' with
    | positive h' => exact absurd h'.isDigit (by decide)
    | emptyArray h' =>
      rw [h, List.cons.injEq] at h'
      exact ⟨rfl, h'.2.symm⟩
    | array h' => exact (ReadsItems.not_closed h h').elim
  | array h =>
    cases h' with
    | positive h' => exact absurd h'.isDigit (by decide)
    | emptyArray h' => exact (ReadsItems.not_closed h' h).elim
    | array h' =>
      obtain ⟨rfl, rfl⟩ := h.unique h'
      exact ⟨rfl, rfl⟩
  | emptyObject h =>
    cases h' with
    | positive h' => exact absurd h'.isDigit (by decide)
    | emptyObject h' =>
      rw [h, List.cons.injEq] at h'
      exact ⟨rfl, h'.2.symm⟩
    | object h' => exact (ReadsMembers.not_closed h h').elim
  | object h =>
    cases h' with
    | positive h' => exact absurd h'.isDigit (by decide)
    | emptyObject h' => exact (ReadsMembers.not_closed h' h).elim
    | object h' =>
      obtain ⟨rfl, rfl⟩ := h.unique h'
      exact ⟨rfl, rfl⟩
termination_by sizeOf v
decreasing_by
  all_goals
    subst_vars
    simp only [Value.array.sizeOf_spec, Value.object.sizeOf_spec]
    omega

theorem ReadsItems.unique {s rest rest' : List Char} {items items' : List Value}
    (h : ReadsItems s items rest) (h' : ReadsItems s items' rest') :
    items' = items ∧ rest' = rest := by
  cases h with
  | last hv hclosing =>
    cases h' with
    | last hv' hclosing' =>
      obtain ⟨rfl, rfl⟩ := hv.unique hv'
      rw [hclosing, List.cons.injEq] at hclosing'
      exact ⟨rfl, hclosing'.2.symm⟩
    | more hv' hcomma' =>
      obtain ⟨rfl, rfl⟩ := hv.unique hv'
      rw [hclosing] at hcomma'
      cases hcomma'
  | more hv hcomma hitems =>
    cases h' with
    | last hv' hclosing' =>
      obtain ⟨rfl, rfl⟩ := hv.unique hv'
      rw [hcomma] at hclosing'
      cases hclosing'
    | more hv' hcomma' hitems' =>
      obtain ⟨rfl, rfl⟩ := hv.unique hv'
      rw [hcomma, List.cons.injEq] at hcomma'
      obtain ⟨-, rfl⟩ := hcomma'
      obtain ⟨rfl, rfl⟩ := hitems.unique hitems'
      exact ⟨rfl, rfl⟩
termination_by sizeOf items
decreasing_by
  all_goals
    subst_vars
    simp only [List.cons.sizeOf_spec, List.nil.sizeOf_spec]
    omega

theorem ReadsMember.unique {s rest rest' : List Char} {member member' : String × Value}
    (h : ReadsMember s member rest) (h' : ReadsMember s member' rest') :
    member' = member ∧ rest' = rest := by
  cases h with
  | intro hquote hkey hcolon hv =>
    cases h' with
    | intro hquote' hkey' hcolon' hv' =>
      rw [hquote, List.cons.injEq] at hquote'
      obtain ⟨-, rfl⟩ := hquote'
      obtain ⟨rfl, rfl⟩ := hkey.unique hkey'
      rw [hcolon, List.cons.injEq] at hcolon'
      obtain ⟨-, rfl⟩ := hcolon'
      obtain ⟨rfl, rfl⟩ := hv.unique hv'
      exact ⟨rfl, rfl⟩
termination_by sizeOf member
decreasing_by
  all_goals
    subst_vars
    simp only [Prod.mk.sizeOf_spec]
    omega

theorem ReadsMembers.unique {s rest rest' : List Char} {members members' : List (String × Value)}
    (h : ReadsMembers s members rest) (h' : ReadsMembers s members' rest') :
    members' = members ∧ rest' = rest := by
  cases h with
  | last hmember hclosing =>
    cases h' with
    | last hmember' hclosing' =>
      obtain ⟨rfl, rfl⟩ := hmember.unique hmember'
      rw [hclosing, List.cons.injEq] at hclosing'
      exact ⟨rfl, hclosing'.2.symm⟩
    | more hmember' hcomma' =>
      obtain ⟨rfl, rfl⟩ := hmember.unique hmember'
      rw [hclosing] at hcomma'
      cases hcomma'
  | more hmember hcomma hmembers =>
    cases h' with
    | last hmember' hclosing' =>
      obtain ⟨rfl, rfl⟩ := hmember.unique hmember'
      rw [hcomma] at hclosing'
      cases hclosing'
    | more hmember' hcomma' hmembers' =>
      obtain ⟨rfl, rfl⟩ := hmember.unique hmember'
      rw [hcomma, List.cons.injEq] at hcomma'
      obtain ⟨-, rfl⟩ := hcomma'
      obtain ⟨rfl, rfl⟩ := hmembers.unique hmembers'
      exact ⟨rfl, rfl⟩
termination_by sizeOf members
decreasing_by
  all_goals
    subst_vars
    simp only [List.cons.sizeOf_spec, List.nil.sizeOf_spec]
    omega

end

/-- **JSON texts are unambiguous.** -/
theorem IsTextOf.unique {s : String} {v v' : Value} (h : IsTextOf s v) (h' : IsTextOf s v') :
    v' = v := by
  obtain ⟨rest, hv, -⟩ := h
  obtain ⟨rest', hv', -⟩ := h'
  exact (hv.unique hv').1

end ByteSearch.Json
