import ByteSearch.Bench.Render
import ByteSearch.Text.Blank
import Mathlib.Data.List.DropRight

/-!
# Reading text reports

The columns of a text report have a least width only, and a name may look like the columns behind
it. Read from the right, a line is still clear: what is measured and what is counted hold no space,
the word for the status always fills its column, and what is then left is the name, of which only
spaces in front are lost. `Printed.ofLine` reads a line in this way.

Main statement: `text_unambiguous`, for names that do not begin with a space and do not break the
line.
-/

namespace ByteSearch.Bench

open ByteSearch.Number (Decimal)

/-! ## Words behind spaces -/

/-- What stands behind the last space. -/
def lastWord (l : List Char) : List Char :=
  l.rtakeWhile (· ≠ ' ')

/-- What stands before the last word and the spaces in front of it. -/
def beforeLastWord (l : List Char) : List Char :=
  (l.rdropWhile (· ≠ ' ')).rdropWhile (· = ' ')

section

variable {word : List Char}

/-- From its end on, a line with a padded word is the word, a space, and other spaces. -/
theorem reverse_append_padLeft (front word : List Char) (width : Nat) :
    (front ++ ' ' :: padLeft width word).reverse =
      word.reverse ++ ' ' :: (List.replicate (width - word.length) ' ' ++ front.reverse) := by
  have hspaces (n : Nat) : List.replicate n ' ' ++ [' '] = ' ' :: List.replicate n ' ' := by
    rw [← List.replicate_succ', List.replicate_succ]
  rw [padLeft, List.reverse_append, List.reverse_cons, List.reverse_append, List.reverse_replicate,
    List.append_assoc word.reverse, hspaces, List.append_assoc, List.cons_append]

theorem ne_space_of_mem_reverse (hword : ' ' ∉ word) :
    ∀ c ∈ word.reverse, decide (c ≠ ' ') = true := by
  intro c hc
  refine decide_eq_true ?_
  rintro rfl
  exact hword (List.mem_reverse.1 hc)

theorem dropWhile_space {l : List Char} (hl : l.head? ≠ some ' ') :
    l.dropWhile (· = ' ') = l := by
  refine Text.dropWhile_of_head? fun c hc => decide_eq_false ?_
  rintro rfl
  exact hl hc

theorem lastWord_append_padLeft (hword : ' ' ∉ word) (front : List Char) (width : Nat) :
    lastWord (front ++ ' ' :: padLeft width word) = word := by
  rw [lastWord, List.rtakeWhile, reverse_append_padLeft,
    List.takeWhile_append_of_pos (ne_space_of_mem_reverse hword),
    List.takeWhile_cons_of_neg (by decide), List.append_nil, List.reverse_reverse]

theorem beforeLastWord_append_padLeft (hword : ' ' ∉ word) {front : List Char}
    (hfront : front.getLast? ≠ some ' ') (width : Nat) :
    beforeLastWord (front ++ ' ' :: padLeft width word) = front := by
  have hspaces :
      ∀ c ∈ ' ' :: List.replicate (width - word.length) ' ', decide (c = ' ') = true := by
    intro c hc
    rw [← List.replicate_succ] at hc
    exact decide_eq_true (List.eq_of_mem_replicate hc)
  have hword' : (front ++ ' ' :: padLeft width word).reverse.dropWhile (· ≠ ' ') =
      ' ' :: List.replicate (width - word.length) ' ' ++ front.reverse := by
    rw [reverse_append_padLeft, List.dropWhile_append_of_pos (ne_space_of_mem_reverse hword),
      List.dropWhile_cons_of_neg (by decide), List.cons_append]
  rw [beforeLastWord, List.rdropWhile, List.rdropWhile, List.reverse_reverse, hword',
    List.dropWhile_append_of_pos hspaces, dropWhile_space (by rwa [List.head?_reverse]),
    List.reverse_reverse]

/-- Without the spaces in front a padded word is the word. -/
theorem dropWhile_padLeft (hword : word.head? ≠ some ' ') (width : Nat) :
    (padLeft width word).dropWhile (· = ' ') = word := by
  have hspaces : ∀ c ∈ List.replicate (width - word.length) ' ', decide (c = ' ') = true :=
    fun c hc => decide_eq_true (List.eq_of_mem_replicate hc)
  rw [padLeft, List.dropWhile_append_of_pos hspaces, dropWhile_space hword]

end

section

variable {α : Type} {front back : List α} {n : Nat}

theorem rtake_append_of_length (hn : back.length = n) : (front ++ back).rtake n = back := by
  rw [List.rtake, List.length_append, hn, Nat.add_sub_cancel, List.drop_left]

theorem rdrop_append_of_length (hn : back.length = n) : (front ++ back).rdrop n = front := by
  rw [← hn, List.rdrop_append_length]

end

/-! ## Lines -/

/-- What a line shows of a result. -/
structure Printed where
  name : String
  label : String
  hits : Nat
  milliseconds : List Char
  deriving DecidableEq

def Result.printed (x : Result) : Printed :=
  ⟨x.name, x.status.label, x.hits, x.millisecondsText⟩

/-- Reads a line from its end on. -/
def Printed.ofLine (l : List Char) : Printed :=
  let measured := l.rdrop " ms.".length
  let counted := (beforeLastWord measured).rdrop "] Time measured:".length
  let labelled := (beforeLastWord counted).rdrop " hit".length
  let named := ((labelled.rdrop 8).rdrop ": ".length).drop "[".length
  { name := String.ofList (named.dropWhile (· = ' '))
    label := String.ofList ((labelled.rtake 8).dropWhile (· = ' '))
    hits := Nat.ofDigitChars 10 (lastWord counted) 0
    milliseconds := lastWord measured }

namespace Result

theorem mem_millisecondsText {x : Result} {c : Char} (hc : c ∈ x.millisecondsText) :
    c.isDigit = true ∨ c = '.' := by
  simp only [millisecondsText, Number.fixed, List.mem_append, List.mem_cons] at hc
  rcases hc with hc | rfl | hc | hc
  · exact .inl (Decimal.isDigit_of_mem_digitsOf hc)
  · exact .inr rfl
  · exact .inl (List.eq_of_mem_replicate hc ▸ by decide)
  · exact .inl (Decimal.isDigit_of_mem_digitsOf hc)

theorem not_mem_digitsOf {c : Char} (hc : c.isDigit = false) (n : Nat) :
    c ∉ Decimal.digitsOf n := by
  intro hmem
  rw [Decimal.isDigit_of_mem_digitsOf hmem] at hc
  cases hc

theorem not_mem_millisecondsText {c : Char} (hc : c.isDigit = false) (hpoint : c ≠ '.')
    (x : Result) : c ∉ x.millisecondsText := by
  intro hmem
  rcases mem_millisecondsText hmem with hdigit | rfl
  · rw [hdigit] at hc
    cases hc
  · exact hpoint rfl

/-- A line up to the word for the status. -/
def labelledPart (x : Result) : List Char :=
  "[".toList ++ padLeft 24 x.name.toList ++ ": ".toList ++ padLeft 8 x.status.label.toList

/-- A line up to the number of hits. -/
def countedPart (x : Result) : List Char :=
  (x.labelledPart ++ " hit".toList) ++ ' ' :: padLeft 12 (Decimal.digitsOf x.hits)

/-- A line up to the milliseconds. -/
def measuredPart (x : Result) : List Char :=
  (x.countedPart ++ "] Time measured:".toList) ++ ' ' :: padLeft 10 x.millisecondsText

theorem line_eq (x : Result) : x.line = x.measuredPart ++ " ms.".toList := by
  simp [line, measuredPart, countedPart, labelledPart]

/-- The word for the status fills its column, and does not begin with a space. -/
theorem label_padded (s : Status) :
    (padLeft 8 s.label.toList).length = 8 ∧ s.label.toList.head? ≠ some ' ' := by
  cases s with
  | done => decide
  | failed message =>
    exact show (padLeft 8 "ERROR".toList).length = 8 ∧ "ERROR".toList.head? ≠ some ' ' by decide

/-- A line is read back as what it shows. -/
theorem ofLine_line {x : Result} (hname : x.name.toList.head? ≠ some ' ') :
    Printed.ofLine x.line = x.printed := by
  have hmilliseconds : lastWord x.measuredPart = x.millisecondsText :=
    lastWord_append_padLeft (not_mem_millisecondsText rfl (by decide) x) _ 10
  have hcounted : beforeLastWord x.measuredPart = x.countedPart ++ "] Time measured:".toList :=
    beforeLastWord_append_padLeft (not_mem_millisecondsText rfl (by decide) x) (by simp) 10
  have hhits : lastWord x.countedPart = Decimal.digitsOf x.hits :=
    lastWord_append_padLeft (not_mem_digitsOf rfl x.hits) _ 12
  have hlabelled : beforeLastWord x.countedPart = x.labelledPart ++ " hit".toList :=
    beforeLastWord_append_padLeft (not_mem_digitsOf rfl x.hits) (by simp) 12
  obtain ⟨hlength, hlabel⟩ := label_padded x.status
  have hrdrop (l : List Char) (s : String) : (l ++ s.toList).rdrop s.length = l :=
    rdrop_append_of_length String.length_toList
  have hdrop (l : List Char) (s : String) : (s.toList ++ l).drop s.length = l :=
    List.drop_left' String.length_toList
  simp only [Printed.ofLine, line_eq, hrdrop, hmilliseconds, hcounted, hhits, hlabelled,
    Decimal.ofDigitChars_digitsOf]
  rw [labelledPart, rtake_append_of_length hlength, rdrop_append_of_length hlength, hrdrop, hdrop,
    dropWhile_padLeft hlabel, dropWhile_padLeft hname, String.ofList_toList, String.ofList_toList,
    printed]

theorem newline_not_mem_line {x : Result} (hname : '\n' ∉ x.name.toList) : '\n' ∉ x.line := by
  have hpad (width : Nat) {word : List Char} (hword : '\n' ∉ word) : '\n' ∉ padLeft width word := by
    intro hmem
    rcases List.mem_append.1 hmem with hmem | hmem
    · exact absurd (List.eq_of_mem_replicate hmem) (by decide)
    · exact hword hmem
  have hlabel : '\n' ∉ x.status.label.toList := by
    cases x.status with
    | done => decide
    | failed message => exact show '\n' ∉ "ERROR".toList by decide
  have hhits := not_mem_digitsOf (c := '\n') rfl x.hits
  have hmilliseconds := not_mem_millisecondsText (c := '\n') rfl (by decide) x
  simp [line, hpad, hname, hlabel, hhits, hmilliseconds]

end Result

/-! ## Texts -/

namespace Report

/-- No name breaks its line or begins with a space. -/
def NamesFit (r : Report) : Prop :=
  ∀ x ∈ r.results, '\n' ∉ x.name.toList ∧ x.name.toList.head? ≠ some ' '

theorem splitOn_lines {results : List Result} (hlines : ∀ x ∈ results, '\n' ∉ x.line) :
    (results.flatMap fun x => x.line ++ ['\n']).splitOn '\n' = results.map (·.line) ++ [[]] := by
  induction results with
  | nil => rfl
  | cons x results ih =>
    have hx : '\n' ∉ x.line := hlines x List.mem_cons_self
    rw [List.flatMap_cons, List.append_assoc, List.singleton_append,
      List.splitOn_append_cons_self, List.splitOn_eq_singleton hx,
      ih fun y hy => hlines y (List.mem_cons_of_mem _ hy)]
    rfl

/-- Each line has an end, and nothing stands behind the last one. -/
theorem splitOn_text {r : Report} (hr : r.NamesFit) :
    r.text.toList.splitOn '\n' = r.results.map (·.line) ++ [[]] := by
  rw [text, String.toList_ofList]
  exact splitOn_lines fun x hx => Result.newline_not_mem_line (hr x hx).1

end Report

/-- Reads the lines of a text. -/
def Printed.ofText (s : String) : List Printed :=
  (s.toList.splitOn '\n').dropLast.map Printed.ofLine

theorem Report.ofText_text {r : Report} (hr : r.NamesFit) :
    Printed.ofText r.text = r.results.map (·.printed) := by
  rw [Printed.ofText, splitOn_text hr, List.dropLast_concat, List.map_map]
  exact List.map_congr_left fun x hx => Result.ofLine_line (hr x hx).2

/-- **Text reports are unambiguous.** If no name begins with a space or breaks its line, a text has
one line for each result, in their order, and the name, the word for the status, the number of hits
and the milliseconds of each can be read back from it. So reports with the same text have the same
of all these. -/
theorem text_unambiguous {r : Report} (hr : r.NamesFit) :
    (r.render false).toList.splitOn '\n' = r.results.map (·.line) ++ [[]] ∧
      Printed.ofText (r.render false) = r.results.map (·.printed) ∧
      ∀ r' : Report, r'.NamesFit → r'.render false = r.render false →
        r'.results.map (·.printed) = r.results.map (·.printed) := by
  have htext (r : Report) : r.render false = r.text := rfl
  refine ⟨Report.splitOn_text hr, Report.ofText_text hr, fun r' hr' heq => ?_⟩
  rw [htext, htext] at heq
  rw [← Report.ofText_text hr', ← Report.ofText_text hr, heq]

/-- A name that is empty, and one that is longer than its column and looks like the rest of a
line. -/
theorem text_unambiguous_imitating :
    let imitating := "x:     DONE hit            1] Time measured:      2.000 ms."
    let r : Report := ⟨5, 1, [⟨"", .failed "", 18446744073709551615, ⟨0⟩, true⟩,
      ⟨imitating, .done, 7, ⟨1500000⟩, false⟩]⟩
    r.NamesFit ∧ Printed.ofText (r.render false) =
      [⟨"", "ERROR", 18446744073709551615, "0.000".toList⟩,
        ⟨imitating, "DONE", 7, "1.500".toList⟩] := by
  intro imitating r
  have hfit : r.NamesFit := by
    intro x hx
    rcases List.mem_pair.1 hx with rfl | rfl <;> decide
  refine ⟨hfit, (text_unambiguous hfit).2.1.trans ?_⟩
  decide +kernel

end ByteSearch.Bench
