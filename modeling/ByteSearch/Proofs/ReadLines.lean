import ByteSearch.Proofs.CommandLines

/-!
# How arguments are read

That the parts of a command line are read one after the other is said by `read_parts`. Here is the
converse: whatever is read is such a part. So an argument list has parts in front, as many as are
read, and there is only a handful of things that can stand behind them (`StopsAt`). What the reading
comes to is decided there (`ReadsTo`).

Main statement: `readsTo_read`.
-/

namespace ByteSearch.Cli

/-! ## Numbers -/

theorem digitChar_of_isDigit {c : Char} (h : c.isDigit = true) :
    ∃ d : Fin 10, Numeral.digitChar d = c ∧ c.toNat - 0x30 = d.val := by
  have hbounds : 48 ≤ c.toNat ∧ c.toNat ≤ 57 := by
    rw [Char.isDigit, Bool.and_eq_true, decide_eq_true_eq, decide_eq_true_eq] at h
    exact h
  refine ⟨⟨c.toNat - 0x30, by omega⟩, ?_, rfl⟩
  have hsum : 0x30 + (c.toNat - 0x30) = c.toNat := by omega
  rw [Numeral.digitChar, hsum, Char.ofNat_toNat]

/-- The digits that are read are those of a numeral, and no number on the way is too large. -/
theorem exists_of_digits {cs : List Char} {n m : Nat} (hn : n < numberBound)
    (h : digits n cs = .ok m) :
    ∃ ds : List (Fin 10), ds.map Numeral.digitChar = cs ∧
      ds.foldl (fun n d => n * 10 + d.val) n = m ∧ m < numberBound := by
  induction cs generalizing n with
  | nil => exact ⟨[], rfl, Except.ok.inj h, Except.ok.inj h ▸ hn⟩
  | cons c cs ih =>
    rw [digits] at h
    split at h
    · rename_i hdigit
      dsimp only at h
      split at h
      · rename_i hbound
        obtain ⟨d, rfl, hvalue⟩ := digitChar_of_isDigit hdigit
        obtain ⟨ds, rfl, hfold, hm⟩ := ih hbound h
        rw [hvalue] at hfold
        exact ⟨d :: ds, rfl, hfold, hm⟩
      · cases h
    · cases h

theorem exists_numeral_of_number {s : String} {n : Nat} (h : number s = .ok n) :
    ∃ m : Numeral, m.text = s ∧ m.value = n := by
  have hfrom (plus : Bool) {c : Char} {cs : List Char} (hdigits : digits 0 (c :: cs) = .ok n)
      (htext : s.toList = (if plus then ['+'] else []) ++ c :: cs) :
      ∃ m : Numeral, m.text = s ∧ m.value = n := by
    obtain ⟨ds, hds, rfl, hbound⟩ := exists_of_digits (by decide) hdigits
    have hne : ds ≠ [] := by
      rintro rfl
      cases hds
    have hle : numberBound = 18446744073709551615 + 1 := rfl
    refine ⟨⟨plus, ds, hne, by omega⟩, ?_, rfl⟩
    rw [Numeral.text, hds, ← htext, String.ofList_toList]
  unfold number at h
  split at h
  · cases h
  · rename_i c rest hs
    exact hfrom true h hs
  · rename_i hnil _
    cases hs : s.toList with
    | nil => exact absurd hs hnil
    | cons c rest =>
      rw [hs] at h
      exact hfrom false h hs

/-! ## Arguments -/

/-- The text of an argument of a kind that has one text only. -/
def Argument.text? : Argument → Option String
  | json => some "--json"
  | parallel => some "--parallel"
  | valued option => some option.text
  | separator => some "--"
  | help | unknown _ | positional => none

theorem eq_of_text?_ofText {s t : String} (h : (Argument.ofText s).text? = some t) : s = t := by
  unfold Argument.ofText at h
  split_ifs at h with hhelp hjson hparallel honly hcapacity hclears hseparator
  · cases h
  · exact hjson.trans (Option.some.inj h)
  · exact hparallel.trans (Option.some.inj h)
  · exact honly.trans (Option.some.inj h)
  · exact hcapacity.trans (Option.some.inj h)
  · exact hclears.trans (Option.some.inj h)
  · exact hseparator.trans (Option.some.inj h)
  · split at h
    · cases h
    · cases h

theorem eq_ofString_of_ofBytes {argument : Bytes} {a : Argument} {t : String}
    (h : Argument.ofBytes argument = a) (ht : a.text? = some t) : argument = Bytes.ofString t := by
  rw [Argument.ofBytes] at h
  split at h
  · rename_i s hs
    subst h
    rw [← eq_of_text?_ofText ht]
    exact Utf8.eq_ofChars_of_decode? hs
  · subst h
    cases ht

/-- A hyphen with something behind it is never positional. -/
theorem ofText_hyphen {c : Char} {cs : List Char} {s : String} (hs : s.toList = '-' :: c :: cs) :
    Argument.ofText s ≠ .positional := by
  unfold Argument.ofText
  rw [hs]
  split_ifs <;> exact Argument.noConfusion

theorem isPositional_of_ofBytes {argument : Bytes} (h : Argument.ofBytes argument = .positional) :
    IsPositional argument := by
  cases hs : Utf8.decode? argument with
  | none => exact .inl hs
  | some s =>
    have hargument : argument = Bytes.ofChars s.toList := Utf8.eq_ofChars_of_decode? hs
    have htext : Argument.ofText s = .positional := by
      rwa [Argument.ofBytes, hs] at h
    right
    cases hchars : s.toList with
    | nil =>
      rw [hargument, hchars]
      exact .inl (by decide)
    | cons c cs =>
      rw [hargument, hchars, Bytes.ofChars_cons]
      by_cases hc : c = '-'
      · subst hc
        cases cs with
        | nil => exact .inr (by decide)
        | cons c cs => exact absurd htext (ofText_hyphen hchars)
      · have hne : Bytes.ofChar c ≠ [] := String.utf8EncodeChar_ne_nil
        refine .inl fun hhead => hc ?_
        rw [List.head?_append_of_ne_nil _ hne] at hhead
        exact Utf8.eq_of_mem_ofChar (List.mem_of_head? hhead) (by decide)

/-! ## Parts -/

theorem exists_numeral_of_ok {s : String} {put : Nat → Draft} {d : Draft}
    {invalid : ValueFault → OptionFault}
    (h : (match number s with
      | .ok n => .ok (put n)
      | .error fault => .error (invalid fault)) = Except.ok d) :
    ∃ m : Numeral, m.text = s ∧ put m.value = d := by
  cases hnumber : number s with
  | error fault =>
    rw [hnumber] at h
    cases h
  | ok n =>
    rw [hnumber] at h
    obtain ⟨m, hm, rfl⟩ := exists_numeral_of_number hnumber
    exact ⟨m, hm, Except.ok.inj h⟩

/-- An option whose value is accepted is a group, and sets what this group sets. -/
theorem exists_group_of_setValue {d d' : Draft} {option : Valued} {value : Bytes}
    (h : d.setValue option value = .ok d') :
    ∃ g : OptionGroup, g.arguments = [Bytes.ofString option.text, value] ∧
      Part.apply d (.group g) = d' := by
  unfold Draft.setValue at h
  dsimp only at h
  split at h
  · cases h
  · rename_i s hs
    obtain rfl : value = Bytes.ofString s := Utf8.eq_ofChars_of_decode? hs
    cases option with
    | only => exact ⟨.only s, rfl, Except.ok.inj h⟩
    | cacheCapacity =>
      obtain ⟨m, rfl, hm⟩ := exists_numeral_of_ok h
      exact ⟨.cacheCapacity m, rfl, hm⟩
    | maxCacheClears =>
      obtain ⟨m, rfl, hm⟩ := exists_numeral_of_ok h
      exact ⟨.maxCacheClears m, rfl, hm⟩

/-! ## Stops -/

/-- What stands behind the parts in front of an argument list, and what the reading comes to there,
given the draft that the parts have left. -/
inductive StopsAt (d : Draft) : List Bytes → Except OptionFault (Option Draft) → Prop
  | atEnd : StopsAt d [] (.ok (some d))
  | separator (behind : List Bytes) :
    StopsAt d (Bytes.ofString "--" :: behind) (.ok (some (d.addPositional behind)))
  | help {argument : Bytes} (rest : List Bytes) (h : Argument.ofBytes argument = .help) :
    StopsAt d (argument :: rest) (.ok none)
  | unknownOption {argument : Bytes} {option : String} (rest : List Bytes)
      (h : Argument.ofBytes argument = .unknown option) :
    StopsAt d (argument :: rest) (.error (.unknownOption option))
  | missingValue (option : Valued) :
    StopsAt d [Bytes.ofString option.text] (.error (.missingValue option.text))
  | invalidValue {option : Valued} {value : Bytes} {s : String} {fault : ValueFault}
      (rest : List Bytes)
      (h : d.setValue option value = .error (.invalidValue option.text s fault)) :
    StopsAt d (Bytes.ofString option.text :: value :: rest)
      (.error (.invalidValue option.text s fault))

theorem StopsAt.read_eq {d : Draft} {tail : List Bytes} {r : Except OptionFault (Option Draft)}
    (h : StopsAt d tail r) : d.read tail = r := by
  have hvalued (option : Valued) :
      Argument.ofBytes (Bytes.ofString option.text) = .valued option := by
    rw [ofBytes_ofString]
    cases option <;> rfl
  cases h with
  | atEnd => rfl
  | separator behind =>
    rw [Draft.read, ofBytes_ofString]
    rfl
  | help rest h | unknownOption rest h => simp only [Draft.read, h]
  | missingValue option => simp only [Draft.read, hvalued]
  | invalidValue rest h => simp only [Draft.read, hvalued, h]

theorem exists_of_setValue_error {d : Draft} {option : Valued} {value : Bytes} {fault : OptionFault}
    (h : d.setValue option value = .error fault) :
    ∃ s f, fault = .invalidValue option.text s f := by
  unfold Draft.setValue at h
  dsimp only at h
  split at h
  · cases h
    exact ⟨_, _, rfl⟩
  · split at h
    · cases h
    · split at h
      · cases h
      · cases h
        exact ⟨_, _, rfl⟩
    · split at h
      · cases h
      · cases h
        exact ⟨_, _, rfl⟩

/-- An argument list has parts in front, and the reading stops behind them. -/
def ReadsTo (d : Draft) (arguments : List Bytes) (r : Except OptionFault (Option Draft)) : Prop :=
  ∃ (parts : List Part) (tail : List Bytes), arguments = parts.flatMap Part.arguments ++ tail ∧
    StopsAt (parts.foldl Part.apply d) tail r

theorem StopsAt.readsTo {d : Draft} {tail : List Bytes} {r : Except OptionFault (Option Draft)}
    (h : StopsAt d tail r) : ReadsTo d tail r :=
  ⟨[], tail, rfl, h⟩

theorem ReadsTo.cons (part : Part) {d : Draft} {rest : List Bytes}
    {r : Except OptionFault (Option Draft)} (h : ReadsTo (part.apply d) rest r) :
    ReadsTo d (part.arguments ++ rest) r := by
  obtain ⟨parts, tail, rfl, hstop⟩ := h
  exact ⟨part :: parts, tail, by rw [List.flatMap_cons, List.append_assoc], hstop⟩

/-- **How arguments are read.** Every argument list has parts of a command line in front, and the
reading stops behind them: at the end, at the separator, or where something is wrong or help is
asked for. -/
theorem readsTo_read (d : Draft) (arguments : List Bytes) :
    ReadsTo d arguments (d.read arguments) := by
  fun_induction Draft.read d arguments with
  | case1 d => exact StopsAt.atEnd.readsTo
  | case2 d argument rest hargument => exact (StopsAt.help rest hargument).readsTo
  | case3 d argument rest hargument ih =>
    obtain rfl := eq_ofString_of_ofBytes hargument rfl
    exact ReadsTo.cons (.group .json) ih
  | case4 d argument rest hargument ih =>
    obtain rfl := eq_ofString_of_ofBytes hargument rfl
    exact ReadsTo.cons (.group .parallel) ih
  | case5 d argument option hargument =>
    obtain rfl := eq_ofString_of_ofBytes hargument rfl
    exact (StopsAt.missingValue option).readsTo
  | case6 d argument option hargument value rest d' hset ih =>
    obtain rfl := eq_ofString_of_ofBytes hargument rfl
    obtain ⟨g, hg, rfl⟩ := exists_group_of_setValue hset
    have hcons := ReadsTo.cons (.group g) ih
    rwa [Part.arguments, hg] at hcons
  | case7 d argument option hargument value rest fault hset =>
    obtain rfl := eq_ofString_of_ofBytes hargument rfl
    obtain ⟨s, f, rfl⟩ := exists_of_setValue_error hset
    exact (StopsAt.invalidValue rest hset).readsTo
  | case8 d argument rest hargument =>
    obtain rfl := eq_ofString_of_ofBytes hargument rfl
    exact (StopsAt.separator rest).readsTo
  | case9 d argument rest option hargument => exact (StopsAt.unknownOption rest hargument).readsTo
  | case10 d argument rest hargument ih =>
    exact ReadsTo.cons (.positional argument (isPositional_of_ofBytes hargument)) ih

end ByteSearch.Cli
