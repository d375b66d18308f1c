import ByteSearch.Proofs.ReadLines
import ByteSearch.Proofs.Sessions

/-!
# What more arguments change

Arguments are read from the left, and what is found on the way is reported at once: that help is
asked for, an unknown option, or a value that is not accepted. No argument behind it matters
(`StopsAt.append`). Only that an option is without its value is found at the end.

All else is about positional arguments. It is reported if the arguments are a command line, and then
depends on the positional ones alone, in a fixed order (`Reported`). More arguments may add to them,
but they take none away (`positional_initial_of_read_append`), and behind the separator they do
nothing else (`read_separator`).

Main statement: `parse_append`.
-/

namespace ByteSearch.Cli

/-- What is found while the options are read: help is asked for, or an option is wrong. -/
inductive FoundInOptions : Except OptionFault Command → Prop
  | help : FoundInOptions (.ok .help)
  | unknownOption (option : String) : FoundInOptions (.error (.unknownOption option))
  | missingValue (option : String) : FoundInOptions (.error (.missingValue option))
  | invalidValue (option value : String) (fault : ValueFault) :
    FoundInOptions (.error (.invalidValue option value fault))

/-- What is reported of positional arguments. Of several problems it is the first one in this order:
no pattern, no input file, a third argument, an empty pattern. -/
inductive Reported : List Bytes → Except OptionFault Command → Prop
  | noPattern : Reported [] (.error (.missingArgument "pattern"))
  | noInput (pattern : Bytes) : Reported [pattern] (.error (.missingArgument "input file"))
  | third (pattern input third : Bytes) (more : List Bytes) :
    Reported (pattern :: input :: third :: more) (.error (.unexpectedArgument (Utf8.lossy third)))
  | emptyPattern (input : Bytes) : Reported [[], input] (.error .emptyPattern)
  | run (o : Options) : Reported [o.pattern.bytes, o.input] (.ok (.run o))

/-! ## Reading on -/

theorem Draft.addPositional_append (d : Draft) (xs ys : List Bytes) :
    (d.addPositional xs).addPositional ys = d.addPositional (xs ++ ys) := by
  simp only [addPositional, List.append_assoc]

/-- Where something was found, nothing behind it is read. -/
theorem StopsAt.append {d : Draft} {tail : List Bytes} {r : Except OptionFault (Option Draft)}
    (h : StopsAt d tail r) (hread : ∀ d', r ≠ .ok (some d'))
    (hvalue : ∀ option, r ≠ .error (.missingValue option)) (ys : List Bytes) :
    StopsAt d (tail ++ ys) r := by
  cases h with
  | atEnd | separator => exact absurd rfl (hread _)
  | missingValue option => exact absurd rfl (hvalue _)
  | help rest h => exact .help (rest ++ ys) h
  | unknownOption rest h => exact .unknownOption (rest ++ ys) h
  | invalidValue rest h => exact .invalidValue (rest ++ ys) h

theorem read_append_of_found {d : Draft} {xs : List Bytes}
    (hread : ∀ d', d.read xs ≠ .ok (some d'))
    (hvalue : ∀ option, d.read xs ≠ .error (.missingValue option)) (ys : List Bytes) :
    d.read (xs ++ ys) = d.read xs := by
  obtain ⟨parts, tail, hxs, hstop⟩ := readsTo_read d xs
  have happend := (hstop.append hread hvalue ys).read_eq
  rw [← happend, ← read_parts, ← List.append_assoc, ← hxs]

/-- Where the reading came to an end it goes on, or all that follows is positional. -/
theorem read_append_of_read {d d' : Draft} {xs : List Bytes} (h : d.read xs = .ok (some d'))
    (ys : List Bytes) :
    d.read (xs ++ ys) = d'.read ys ∨ d.read (xs ++ ys) = .ok (some (d'.addPositional ys)) := by
  obtain ⟨parts, tail, rfl, hstop⟩ := readsTo_read d xs
  rw [h] at hstop
  rw [List.append_assoc, read_parts]
  cases hstop with
  | atEnd => exact .inl rfl
  | separator behind =>
    right
    rw [Draft.addPositional_append]
    exact (StopsAt.separator (behind ++ ys)).read_eq

theorem positional_initial_of_read {d d' : Draft} {xs : List Bytes}
    (h : d.read xs = .ok (some d')) : d.positional <+: d'.positional := by
  obtain ⟨parts, tail, -, hstop⟩ := readsTo_read d xs
  have hparts := foldl_apply_positional d parts
  rw [h] at hstop
  cases hstop with
  | atEnd =>
    rw [hparts]
    exact List.prefix_append _ _
  | separator behind =>
    rw [Draft.addPositional, hparts, List.append_assoc]
    exact List.prefix_append _ _

/-- No positional argument is lost when more arguments are read. -/
theorem positional_initial_of_read_append {d d' d'' : Draft} {xs ys : List Bytes}
    (h : d.read xs = .ok (some d')) (happend : d.read (xs ++ ys) = .ok (some d'')) :
    d'.positional <+: d''.positional := by
  rcases read_append_of_read h ys with hon | hbehind
  · exact positional_initial_of_read (hon.symm.trans happend)
  · rw [hbehind] at happend
    rw [← Option.some.inj (Except.ok.inj happend)]
    exact List.prefix_append _ _

/-- Where the separator stands in the place of an option, all that follows is positional, unless
something was found in front of it. -/
theorem read_separator {front : List Bytes} (h : atOption front = true) (d : Draft) :
    (∃ d' : Draft, ∀ back, d.read (front ++ Bytes.ofString "--" :: back) =
        .ok (some (d'.addPositional back))) ∨
      ∃ r, ∀ back, d.read (front ++ Bytes.ofString "--" :: back) = r := by
  fun_induction atOption front generalizing d with
  | case1 => exact .inl ⟨d, fun back => (StopsAt.separator back).read_eq⟩
  | case2 argument rest hargument => cases h
  | case3 argument option hargument => cases h
  | case4 argument option hargument value rest ih =>
    simp only [List.cons_append, Draft.read, hargument]
    cases d.setValue option value with
    | error fault => exact .inr ⟨_, fun _ => rfl⟩
    | ok d' => exact ih h d'
  | case5 argument rest hseparator hvalued ih =>
    simp only [List.cons_append, Draft.read]
    cases hargument : Argument.ofBytes argument with
    | separator => exact (hseparator hargument).elim
    | valued option => exact (hvalued option hargument).elim
    | help | unknown => exact .inr ⟨_, fun _ => rfl⟩
    | json | parallel | positional => exact ih h _

/-! ## Reports -/

theorem Reported.not_found {positionals : List Bytes} {r : Except OptionFault Command}
    (h : Reported positionals r) : ¬FoundInOptions r := by
  intro hfound
  cases h with
  | noPattern | noInput | third | emptyPattern | run => cases hfound

theorem Reported.eq_unexpectedArgument {pattern input third : Bytes} {more : List Bytes}
    {r : Except OptionFault Command} (h : Reported (pattern :: input :: third :: more) r) :
    r = .error (.unexpectedArgument (Utf8.lossy third)) := by
  cases h with
  | third => rfl

theorem reported_finish (d : Draft) : Reported d.positional (d.finish.map .run) := by
  unfold Draft.finish
  split
  · rename_i hpositional
    rw [hpositional]
    exact .noPattern
  · rename_i hpositional
    rw [hpositional]
    exact .noInput _
  · rename_i hpositional
    rw [hpositional]
    exact .third _ _ _ _
  · rename_i pattern input hpositional
    rw [hpositional]
    split
    · rename_i hnone
      rw [Search.Pattern.ofBytes?_eq_none_iff.1 hnone]
      exact .emptyPattern input
    · rename_i p hp
      rw [← Search.Pattern.bytes_of_ofBytes? hp]
      exact .run ⟨p, input, d.json, d.parallel, d.only, d.budget⟩

/-- Arguments are read to the end, or something is found on the way. -/
theorem read_or_found (xs : List Bytes) :
    (∃ d, Draft.read {} xs = .ok (some d) ∧ Reported d.positional (parse xs)) ∨
      (∀ d, Draft.read {} xs ≠ .ok (some d)) ∧ FoundInOptions (parse xs) := by
  obtain ⟨parts, tail, -, hstop⟩ := readsTo_read {} xs
  rw [parse]
  generalize Draft.read {} xs = r at hstop
  cases hstop with
  | atEnd => exact .inl ⟨_, rfl, reported_finish _⟩
  | separator => exact .inl ⟨_, rfl, reported_finish _⟩
  | help => exact .inr ⟨by simp, .help⟩
  | unknownOption => exact .inr ⟨by simp, .unknownOption _⟩
  | missingValue => exact .inr ⟨by simp, .missingValue _⟩
  | invalidValue => exact .inr ⟨by simp, .invalidValue _ _ _⟩

theorem parse_of_read {xs : List Bytes} {d : Draft} (h : Draft.read {} xs = .ok (some d)) :
    Reported d.positional (parse xs) := by
  rw [parse, h]
  exact reported_finish d

/-- What is read to the end is a command line. -/
theorem exists_commandLine_of_read {xs : List Bytes} {d : Draft}
    (h : Draft.read {} xs = .ok (some d)) : ∃ c : CommandLine, c.arguments = xs := by
  obtain ⟨parts, tail, rfl, hstop⟩ := readsTo_read {} xs
  rw [h] at hstop
  cases hstop with
  | atEnd => exact ⟨⟨parts, none⟩, rfl⟩
  | separator behind => exact ⟨⟨parts, some behind⟩, rfl⟩

theorem parse_append_of_found {xs : List Bytes} (hfound : FoundInOptions (parse xs))
    (hvalue : ∀ option, parse xs ≠ .error (.missingValue option)) (ys : List Bytes) :
    parse (xs ++ ys) = parse xs := by
  rcases read_or_found xs with ⟨d, -, hreported⟩ | ⟨hread, -⟩
  · exact absurd hfound hreported.not_found
  · have hread' : ∀ option, Draft.read {} xs ≠ .error (.missingValue option) := by
      intro option h
      refine hvalue option ?_
      rw [parse, h]
    rw [parse, parse, read_append_of_found hread hread']

/-- The third positional argument stays the third one. -/
theorem parse_append_of_unexpectedArgument {xs : List Bytes} {e : String}
    (h : parse xs = .error (.unexpectedArgument e)) (ys : List Bytes) :
    parse (xs ++ ys) = .error (.unexpectedArgument e) ∨ FoundInOptions (parse (xs ++ ys)) := by
  rcases read_or_found xs with ⟨d, hd, hreported⟩ | ⟨-, hfound⟩
  · rcases read_or_found (xs ++ ys) with ⟨d', hd', hreported'⟩ | ⟨-, hfound⟩
    · left
      obtain ⟨more, hmore⟩ := positional_initial_of_read_append hd hd'
      rw [← hmore] at hreported'
      rw [h] at hreported
      generalize d.positional = positionals at hreported hreported'
      cases hreported with
      | third pattern input third rest => exact hreported'.eq_unexpectedArgument
    · exact .inr hfound
  · rw [h] at hfound
    cases hfound

/-- Only the last argument can be without its value. -/
theorem getLast?_of_missingValue {xs : List Bytes} {option : String}
    (h : parse xs = .error (.missingValue option)) :
    xs.getLast? = some (Bytes.ofString option) := by
  rcases read_or_found xs with ⟨d, -, hreported⟩ | ⟨hread, -⟩
  · rw [h] at hreported
    exact absurd (FoundInOptions.missingValue option) hreported.not_found
  · obtain ⟨parts, tail, hxs, hstop⟩ := readsTo_read {} xs
    rw [parse] at h
    generalize Draft.read {} xs = r at hread hstop h
    cases hstop with
    | atEnd | separator => exact absurd rfl (hread _)
    | help | unknownOption | invalidValue => cases h
    | missingValue valued =>
      cases h
      rw [hxs]
      exact List.getLast?_concat

theorem parse_append_behind_separator {front : List Bytes} (hfront : atOption front = true)
    (back ys : List Bytes)
    (hfound : FoundInOptions (parse (front ++ Bytes.ofString "--" :: (back ++ ys)))) :
    parse (front ++ Bytes.ofString "--" :: back) =
      parse (front ++ Bytes.ofString "--" :: (back ++ ys)) := by
  rcases read_separator hfront {} with ⟨d, hread⟩ | ⟨r, hread⟩
  · exact absurd hfound (parse_of_read (hread (back ++ ys))).not_found
  · rw [parse, parse, hread, hread]

/-- **What more arguments change.** What is found in the options stays found, unless an option has
no value at the end. A third positional argument stays the third one, but something may be found in
the options behind it; behind the separator that is not so. All else is reported of command lines
only, and depends on the positional arguments alone. -/
theorem parse_append (xs ys : List Bytes) :
    (FoundInOptions (parse xs) → (∀ option, parse xs ≠ .error (.missingValue option)) →
        parse (xs ++ ys) = parse xs) ∧
      (∀ e, parse xs = .error (.unexpectedArgument e) →
        parse (xs ++ ys) = .error (.unexpectedArgument e) ∨
          FoundInOptions (parse (xs ++ ys))) ∧
      (∀ option, parse xs = .error (.missingValue option) →
        xs.getLast? = some (Bytes.ofString option)) ∧
      (∀ front back, xs = front ++ Bytes.ofString "--" :: back → atOption front = true →
        FoundInOptions (parse (xs ++ ys)) → parse xs = parse (xs ++ ys)) ∧
      (∀ c : CommandLine, c.arguments = xs → Reported c.positionals (parse xs)) ∧
      ((∀ c : CommandLine, c.arguments ≠ xs) → FoundInOptions (parse xs)) := by
  refine ⟨fun hfound hvalue => parse_append_of_found hfound hvalue ys,
    fun e h => parse_append_of_unexpectedArgument h ys, fun option => getLast?_of_missingValue,
    ?_, ?_, ?_⟩
  · rintro front back rfl hfront hfound
    rw [List.append_assoc] at hfound ⊢
    exact parse_append_behind_separator hfront back ys hfound
  · rintro c rfl
    exact parse_of_read c.read_arguments
  · intro hno
    rcases read_or_found xs with ⟨d, hd, -⟩ | ⟨-, hfound⟩
    · obtain ⟨c, hc⟩ := exists_commandLine_of_read hd
      exact absurd hc (hno c)
    · exact hfound

/-- Three positional arguments, of which the first one is empty, and an option without a value
behind them; the same option alone, which is no command line; and an unknown option before the
separator. -/
theorem parse_append_cases :
    let three := [[], Bytes.ofString "log", Bytes.ofString "more"]
    let only := [Bytes.ofString "--only"]
    let fast := [Bytes.ofString "--fast", Bytes.ofString "--"]
    parse three = .error (.unexpectedArgument "more") ∧
      parse only = .error (.missingValue "--only") ∧
      parse fast = .error (.unknownOption "--fast") ∧
      (parse (three ++ only) = .error (.unexpectedArgument "more") ∨
        FoundInOptions (parse (three ++ only))) ∧
      only.getLast? = some (Bytes.ofString "--only") ∧
      parse (fast ++ only) = .error (.unknownOption "--fast") ∧
      (∀ c : CommandLine, c.arguments ≠ only) ∧ FoundInOptions (parse only) := by
  intro three only fast
  have hpositional (s : String) (hs : (Bytes.ofString s).head? ≠ some 0x2D) :
      IsPositional (Bytes.ofString s) := .inr (.inl hs)
  let line : CommandLine :=
    ⟨[.positional [] (.inr (.inl (by decide))),
      .positional (Bytes.ofString "log") (hpositional "log" (by decide)),
      .positional (Bytes.ofString "more") (hpositional "more" (by decide))], none⟩
  have honly : parse only = .error (.missingValue "--only") := by
    rw [parse, Draft.read, ofBytes_ofString]
    rfl
  have hfast : parse fast = .error (.unknownOption "--fast") := by
    rw [parse, Draft.read, ofBytes_ofString]
    rfl
  have hoption : atOption [Bytes.ofString "--fast"] = true := by
    simp only [atOption, ofBytes_ofString]
    rfl
  have hno : ∀ c : CommandLine, c.arguments ≠ only := by
    intro c hc
    have hparse := parse_of_read c.read_arguments
    rw [hc, honly] at hparse
    exact hparse.not_found (.missingValue "--only")
  have hthree : parse three = .error (.unexpectedArgument "more") := by
    have hmore : Utf8.lossy (Bytes.ofString "more") = "more" := by decide +kernel
    have hreported : Reported three (parse three) := (parse_append three []).2.2.2.2.1 line rfl
    rw [← hmore]
    exact hreported.eq_unexpectedArgument
  have hvalue : ∀ option, parse fast ≠ .error (.missingValue option) := by
    intro option h
    rw [hfast] at h
    cases h
  have hfound : FoundInOptions (parse (fast ++ only)) := by
    rw [(parse_append fast only).1 (hfast ▸ .unknownOption "--fast") hvalue, hfast]
    exact .unknownOption "--fast"
  have hsame := (parse_append fast only).2.2.2.1 [Bytes.ofString "--fast"] [] rfl hoption hfound
  exact ⟨hthree, honly, hfast, (parse_append three only).2.1 "more" hthree,
    (parse_append only []).2.2.1 "--only" honly, hsame.symm.trans hfast, hno,
    (parse_append only []).2.2.2.2.2 hno⟩

end ByteSearch.Cli
