import ByteSearch.Cli.Options
import ByteSearch.Proofs.Utf8Pieces
import Mathlib.Data.List.Forall2

/-!
# What command lines say

A command line is made of groups of options, each a flag or an option with its value, and of
positional arguments, which stand between the groups or behind the separator (`CommandLine`). It is
read part by part: `read_part` says that a part changes the draft as `Part.apply` does and is then
gone, whatever follows, and `foldl_apply` what all parts together leave of a draft.

Main statement: `parse_commandLine`. A command line with two positional arguments is not refused.
Flags count if they occur, of the other options the last one counts, and so the order of groups of
different options has no influence.
-/

namespace ByteSearch.Cli

open ByteSearch.Search (Pattern)

/-! ## Single arguments -/

theorem decode?_ofString (s : String) : Utf8.decode? (Bytes.ofString s) = some s := by
  rw [Bytes.ofString, Utf8.decode?_ofChars, String.ofList_toList]

theorem ofBytes_ofString (s : String) : Argument.ofBytes (Bytes.ofString s) = .ofText s := by
  rw [Argument.ofBytes, decode?_ofString]

/-- An argument that stands for itself where options are read: it is no text, it does not begin with
a hyphen, or it is a hyphen alone. -/
def IsPositional (argument : Bytes) : Prop :=
  Utf8.decode? argument = none ∨ argument.head? ≠ some 0x2D ∨ argument = [0x2D]

/-- A text that is not positional begins with a hyphen, and something follows. -/
theorem ofText_of_head {s : String} (h : s.toList.head? ≠ some '-') :
    Argument.ofText s = .positional := by
  have hne (t : String) (ht : t.toList.head? = some '-') : s ≠ t := by
    rintro rfl
    exact h ht
  unfold Argument.ofText
  rw [if_neg (not_or.2 ⟨hne _ rfl, hne _ rfl⟩), if_neg (hne _ rfl), if_neg (hne _ rfl),
    if_neg (hne _ rfl), if_neg (hne _ rfl), if_neg (hne _ rfl), if_neg (hne _ rfl)]
  split
  · rename_i hs
    rw [hs] at h
    exact absurd rfl h
  · rfl

theorem ofBytes_of_isPositional {argument : Bytes} (h : IsPositional argument) :
    Argument.ofBytes argument = .positional := by
  rcases h with h | h | rfl
  · rw [Argument.ofBytes, h]
  · cases hs : Utf8.decode? argument with
    | none => rw [Argument.ofBytes, hs]
    | some s =>
      have hargument := Utf8.eq_ofChars_of_decode? hs
      rw [Argument.ofBytes, hs]
      refine ofText_of_head fun hhead => h ?_
      obtain ⟨rest, hrest⟩ := List.head?_eq_some_iff.1 hhead
      rw [hargument, hrest, Bytes.ofChars_cons]
      rfl
  · have hhyphen : ([0x2D] : Bytes) = Bytes.ofString "-" := by decide
    rw [hhyphen, ofBytes_ofString]
    decide

/-! ## Numbers -/

/-- A number as it may stand on a command line. -/
structure Numeral where
  plus : Bool
  digits : List (Fin 10)
  digits_ne_nil : digits ≠ []
  /-- The number has at most 64 binary digits. -/
  value_le : digits.foldl (fun n d => n * 10 + d.val) 0 ≤ 18446744073709551615
  deriving DecidableEq

namespace Numeral

def value (n : Numeral) : Nat :=
  n.digits.foldl (fun n d => n * 10 + d.val) 0

/-- A digit as it is written. -/
def digitChar (d : Fin 10) : Char :=
  Char.ofNat (0x30 + d.val)

/-- An optional plus sign and the digits. -/
def text (n : Numeral) : String :=
  String.ofList ((if n.plus then ['+'] else []) ++ n.digits.map digitChar)

theorem digitChar_eq (d : Fin 10) :
    (digitChar d).isDigit = true ∧ (digitChar d).toNat - 0x30 = d.val ∧ digitChar d ≠ '+' := by
  revert d
  decide

end Numeral

theorem le_foldl_digits (ds : List (Fin 10)) (n : Nat) :
    n ≤ ds.foldl (fun n d => n * 10 + d.val) n := by
  induction ds generalizing n with
  | nil => exact Nat.le_refl n
  | cons d ds ih =>
    have := ih (n * 10 + d.val)
    rw [List.foldl_cons]
    omega

/-- No number on the way is greater than the last one, so none is too large. -/
theorem digits_map_digitChar (ds : List (Fin 10)) (n : Nat)
    (hle : ds.foldl (fun n d => n * 10 + d.val) n ≤ 18446744073709551615) :
    digits n (ds.map Numeral.digitChar) = .ok (ds.foldl (fun n d => n * 10 + d.val) n) := by
  induction ds generalizing n with
  | nil => rfl
  | cons d ds ih =>
    rw [List.foldl_cons] at hle
    obtain ⟨hdigit, hvalue, -⟩ := Numeral.digitChar_eq d
    have hbound : n * 10 + d.val < numberBound := by
      have := le_foldl_digits ds (n * 10 + d.val)
      have hlast : numberBound = 18446744073709551615 + 1 := rfl
      omega
    simp only [List.map_cons, digits]
    rw [if_pos hdigit, hvalue, if_pos hbound, ih _ hle, List.foldl_cons]

theorem number_text (n : Numeral) : number n.text = .ok n.value := by
  obtain ⟨plus, ds, hne, hle⟩ := n
  obtain ⟨d, ds, rfl⟩ := List.exists_cons_of_ne_nil hne
  have hdigits := digits_map_digitChar (d :: ds) 0 hle
  rw [List.map_cons] at hdigits
  rw [number, Numeral.text, String.toList_ofList]
  cases plus with
  | true => exact hdigits
  | false =>
    simp only [Bool.false_eq_true, if_false, List.nil_append, List.map_cons]
    split
    · rename_i heq
      cases heq
    · rename_i heq
      exact absurd (List.cons.inj heq).1 (Numeral.digitChar_eq d).2.2
    · exact hdigits

/-! ## Lists of names -/

theorem not_mem_of_mem_splitOn {α : Type} [BEq α] [LawfulBEq α] {a : α} {l part : List α}
    (hpart : part ∈ l.splitOn a) : a ∉ part := by
  induction l generalizing part with
  | nil =>
    rw [List.splitOn_nil, List.mem_singleton] at hpart
    rw [hpart]
    exact List.not_mem_nil
  | cons b l ih =>
    rw [List.splitOn_cons_eq_if_modifyHead] at hpart
    split at hpart
    · rcases List.mem_cons.1 hpart with rfl | hpart
      · exact List.not_mem_nil
      · exact ih hpart
    · rename_i hb
      obtain ⟨first, parts, hparts⟩ := List.exists_cons_of_ne_nil (List.splitOn_ne_nil a l)
      rw [hparts] at hpart ih
      rcases List.mem_cons.1 hpart with rfl | hpart
      · have hfirst := ih List.mem_cons_self
        simp only [List.mem_cons, not_or]
        exact ⟨fun h => hb (by simp [h]), hfirst⟩
      · exact ih (List.mem_cons_of_mem _ hpart)

/-- What is left of a text when the blanks around it are gone. -/
def Trimmed (s t : List Char) : Prop :=
  (∃ front back, s = front ++ t ++ back ∧ ∀ c ∈ front ++ back, Text.isBlank c = true) ∧
    ∀ c, t.head? = some c ∨ t.getLast? = some c → Text.isBlank c = false

theorem exists_eq_append_dropWhile (p : Char → Bool) (s : List Char) :
    ∃ front, s = front ++ s.dropWhile p ∧ ∀ c ∈ front, p c = true :=
  ⟨s.takeWhile p, List.takeWhile_append_dropWhile.symm, List.all_eq_true.1 List.all_takeWhile⟩

theorem eq_false_of_head?_dropWhile {p : Char → Bool} {s : List Char} {c : Char}
    (h : (s.dropWhile p).head? = some c) : p c = false := by
  have hne : s.dropWhile p ≠ [] := by
    intro hnil
    rw [hnil] at h
    cases h
  have hhead := List.head_dropWhile_not p hne
  rw [List.head?_eq_some_head hne, Option.some.injEq] at h
  rw [← h]
  simpa using hhead

theorem trimmed_trim (s : List Char) : Trimmed s (Text.trim s) := by
  obtain ⟨front, hfront, hblank⟩ := exists_eq_append_dropWhile Text.isBlank s
  obtain ⟨back, hback, hblank'⟩ :=
    exists_eq_append_dropWhile Text.isBlank (s.dropWhile Text.isBlank).reverse
  have hmiddle : s.dropWhile Text.isBlank = Text.trim s ++ back.reverse := by
    rw [← List.reverse_reverse (s.dropWhile Text.isBlank), hback, List.reverse_append, Text.trim]
  refine ⟨⟨front, back.reverse, ?_, ?_⟩, ?_⟩
  · rw [List.append_assoc, ← hmiddle, ← hfront]
  · intro c hc
    rcases List.mem_append.1 hc with hc | hc
    · exact hblank c hc
    · exact hblank' c (List.mem_reverse.1 hc)
  · rintro c (hc | hc)
    · -- The first character that is left is also the first one that stands behind the front.
      refine eq_false_of_head?_dropWhile (s := s) ?_
      rw [hmiddle, List.head?_append, hc]
      rfl
    · rw [Text.trim, List.getLast?_reverse] at hc
      exact eq_false_of_head?_dropWhile hc

/-- The names of a list with commas: what stands between the commas, without the blanks around it,
unless nothing is left. -/
def AreNames (names : List String) (s : String) : Prop :=
  ∃ parts trimmed : List (List Char), s.toList = List.intercalate [','] parts ∧ parts ≠ [] ∧
    (∀ part ∈ parts, ',' ∉ part) ∧ List.Forall₂ Trimmed parts trimmed ∧
    names = (trimmed.filter (· ≠ [])).map String.ofList

theorem areNames_nameList (s : String) : AreNames (nameList s) s := by
  refine ⟨s.toList.splitOn ',', (s.toList.splitOn ',').map Text.trim,
    (List.intercalate_splitOn ',').symm, List.splitOn_ne_nil _ _,
    fun part hpart => not_mem_of_mem_splitOn hpart, ?_, ?_⟩
  · rw [List.forall₂_map_right_iff, List.forall₂_same]
    exact fun part _ => trimmed_trim part
  · rw [nameList]
    congr 2
    funext part
    cases part <;> rfl

/-! ## Command lines -/

/-- A group of options. -/
inductive OptionGroup where
  | json
  | parallel
  | only (names : String)
  | cacheCapacity (n : Numeral)
  | maxCacheClears (n : Numeral)
  deriving DecidableEq

namespace OptionGroup

def option : OptionGroup → String
  | json => "--json"
  | parallel => "--parallel"
  | only _ => "--only"
  | cacheCapacity _ => "--cache-capacity"
  | maxCacheClears _ => "--max-cache-clears"

def value? : OptionGroup → Option String
  | only names => some names
  | cacheCapacity n | maxCacheClears n => some n.text
  | _ => none

def arguments (g : OptionGroup) : List Bytes :=
  Bytes.ofString g.option :: g.value?.toList.map Bytes.ofString

def names? : OptionGroup → Option String
  | only names => some names
  | _ => none

def capacity? : OptionGroup → Option Nat
  | cacheCapacity n => some n.value
  | _ => none

def maxClears? : OptionGroup → Option Nat
  | maxCacheClears n => some n.value
  | _ => none

end OptionGroup

/-- A part of a command line before the separator. -/
inductive Part where
  | group (g : OptionGroup)
  | positional (argument : Bytes) (h : IsPositional argument)

namespace Part

def arguments : Part → List Bytes
  | group g => g.arguments
  | positional argument _ => [argument]

def group? : Part → Option OptionGroup
  | group g => some g
  | positional .. => none

def positional? : Part → Option Bytes
  | group _ => none
  | positional argument _ => some argument

/-- The draft after a part. -/
def apply (d : Draft) : Part → Draft
  | group .json => { d with json := true }
  | group .parallel => { d with parallel := true }
  | group (.only names) => { d with only := some (nameList names) }
  | group (.cacheCapacity n) => { d with budget := { d.budget with capacity := n.value } }
  | group (.maxCacheClears n) => { d with budget := { d.budget with maxClears := some n.value } }
  | positional argument _ => d.addPositional [argument]

end Part

/-- An option whose value is accepted is read with its value. -/
theorem read_valued {d d' : Draft} {option : Valued} {value : String}
    (hset : d.setValue option (Bytes.ofString value) = .ok d') (rest : List Bytes) :
    d.read (Bytes.ofString option.text :: Bytes.ofString value :: rest) = d'.read rest := by
  have hoption : Argument.ofText option.text = .valued option := by cases option <;> rfl
  rw [Draft.read, ofBytes_ofString, hoption]
  simp only [hset]

/-- A part is read as a whole, whatever stands behind it. -/
theorem read_part (d : Draft) (part : Part) (rest : List Bytes) :
    d.read (part.arguments ++ rest) = (part.apply d).read rest := by
  cases part with
  | positional argument h =>
    rw [Part.arguments, List.singleton_append, Draft.read, ofBytes_of_isPositional h]
    rfl
  | group g =>
    cases g with
    | json =>
      rw [Part.arguments, OptionGroup.arguments, List.cons_append, Draft.read, ofBytes_ofString]
      rfl
    | parallel =>
      rw [Part.arguments, OptionGroup.arguments, List.cons_append, Draft.read, ofBytes_ofString]
      rfl
    | only names =>
      have hset : d.setValue .only (Bytes.ofString names) =
          .ok (Part.apply d (.group (.only names))) := by
        simp only [Draft.setValue, decode?_ofString, Part.apply]
      exact read_valued hset rest
    | cacheCapacity n =>
      have hset : d.setValue .cacheCapacity (Bytes.ofString n.text) =
          .ok (Part.apply d (.group (.cacheCapacity n))) := by
        simp only [Draft.setValue, decode?_ofString, number_text, Part.apply]
      exact read_valued hset rest
    | maxCacheClears n =>
      have hset : d.setValue .maxCacheClears (Bytes.ofString n.text) =
          .ok (Part.apply d (.group (.maxCacheClears n))) := by
        simp only [Draft.setValue, decode?_ofString, number_text, Part.apply]
      exact read_valued hset rest

theorem read_parts (d : Draft) (parts : List Part) (rest : List Bytes) :
    d.read (parts.flatMap Part.arguments ++ rest) = (parts.foldl Part.apply d).read rest := by
  induction parts generalizing d with
  | nil => rfl
  | cons part parts ih =>
    rw [List.flatMap_cons, List.append_assoc, read_part, ih, List.foldl_cons]

/-! ## What all parts say -/

/-- What counts of a draft in the end comes from the last group that is about it. -/
theorem foldl_apply_field {β γ : Type} (field : Draft → β) (about : OptionGroup → Option γ)
    (put : γ → β)
    (hgroup : ∀ d g, field (Part.apply d (.group g)) = ((about g).map put).getD (field d))
    (hpositional : ∀ d argument h, field (Part.apply d (.positional argument h)) = field d)
    (d : Draft) (parts : List Part) :
    field (parts.foldl Part.apply d) =
      (((parts.filterMap Part.group?).filterMap about).getLast?.map put).getD (field d) := by
  induction parts generalizing d with
  | nil => rfl
  | cons part parts ih =>
    rw [List.foldl_cons, ih]
    cases part with
    | positional argument h => rw [hpositional, List.filterMap_cons_none rfl]
    | group g =>
      have hcons : (Part.group g :: parts).filterMap Part.group? =
          g :: parts.filterMap Part.group? := List.filterMap_cons_some rfl
      rw [hgroup, hcons]
      cases hg : about g with
      | none => rw [List.filterMap_cons_none hg, Option.map_none, Option.getD_none]
      | some c =>
        rw [List.filterMap_cons_some hg, List.getLast?_cons]
        cases (List.filterMap about (parts.filterMap Part.group?)).getLast? <;> rfl

theorem foldl_apply_positional (d : Draft) (parts : List Part) :
    (parts.foldl Part.apply d).positional = d.positional ++ parts.filterMap Part.positional? := by
  induction parts generalizing d with
  | nil => exact (List.append_nil _).symm
  | cons part parts ih =>
    rw [List.foldl_cons, ih]
    cases part with
    | positional argument h =>
      have hcons : (Part.positional argument h :: parts).filterMap Part.positional? =
          argument :: parts.filterMap Part.positional? := List.filterMap_cons_some rfl
      rw [hcons, List.append_cons]
      rfl
    | group g =>
      rw [List.filterMap_cons_none rfl]
      cases g <;> rfl

theorem getD_map_some {γ δ : Type} (f : γ → δ) (o : Option γ) :
    (o.map fun c => some (f c)).getD none = o.map f := by
  cases o <;> rfl

/-- The group, if it is a certain flag. -/
def OptionGroup.flag? (flag g : OptionGroup) : Option Unit :=
  if g = flag then some () else none

/-- The last of the flags is there if there is one at all. -/
theorem getLast?_flag (flag : OptionGroup) (groups : List OptionGroup) :
    (((groups.filterMap flag.flag?).getLast?.map fun _ => true).getD false) =
      decide (flag ∈ groups) := by
  by_cases hflag : flag ∈ groups
  · have hmem : () ∈ groups.filterMap flag.flag? :=
      List.mem_filterMap.2 ⟨flag, hflag, if_pos rfl⟩
    rw [List.getLast?_eq_some_getLast (List.ne_nil_of_mem hmem), decide_eq_true hflag]
    rfl
  · have hnil : groups.filterMap flag.flag? = [] := by
      refine List.filterMap_eq_nil_iff.2 fun g hg => if_neg ?_
      rintro rfl
      exact hflag hg
    rw [hnil, decide_eq_false hflag]
    rfl

/-- A command line: parts with options and positional arguments and perhaps, behind the separator,
positional arguments only. -/
structure CommandLine where
  parts : List Part
  behind : Option (List Bytes)

namespace CommandLine

def arguments (c : CommandLine) : List Bytes :=
  c.parts.flatMap Part.arguments ++
    match c.behind with
    | none => []
    | some behind => Bytes.ofString "--" :: behind

/-- The groups of options, in order. -/
def groups (c : CommandLine) : List OptionGroup :=
  c.parts.filterMap Part.group?

/-- The positional arguments, in order. -/
def positionals (c : CommandLine) : List Bytes :=
  c.parts.filterMap Part.positional? ++ c.behind.getD []

/-- What a command line leaves. -/
def draft (c : CommandLine) : Draft where
  positional := c.positionals
  json := decide (.json ∈ c.groups)
  parallel := decide (.parallel ∈ c.groups)
  only := (c.groups.filterMap OptionGroup.names?).getLast?.map nameList
  budget :=
    ⟨(c.groups.filterMap OptionGroup.capacity?).getLast?.getD 2097152,
      (c.groups.filterMap OptionGroup.maxClears?).getLast?⟩

theorem foldl_apply_addPositional (c : CommandLine) :
    (c.parts.foldl Part.apply {}).addPositional (c.behind.getD []) = c.draft := by
  have hpositional := foldl_apply_positional {} c.parts
  have hjson := foldl_apply_field Draft.json (OptionGroup.flag? .json) (fun _ => true)
    (by rintro d (_ | _ | _ | _ | _) <;> rfl) (fun _ _ _ => rfl) {} c.parts
  have hparallel := foldl_apply_field Draft.parallel (OptionGroup.flag? .parallel) (fun _ => true)
    (by rintro d (_ | _ | _ | _ | _) <;> rfl) (fun _ _ _ => rfl) {} c.parts
  have honly := foldl_apply_field Draft.only OptionGroup.names? (fun names => some (nameList names))
    (by rintro d (_ | _ | _ | _ | _) <;> rfl) (fun _ _ _ => rfl) {} c.parts
  have hcapacity := foldl_apply_field (fun d => d.budget.capacity) OptionGroup.capacity?
    (fun n => n)
    (by rintro d (_ | _ | _ | _ | _) <;> rfl) (fun _ _ _ => rfl) {} c.parts
  have hmaxClears := foldl_apply_field (fun d => d.budget.maxClears) OptionGroup.maxClears?
    (fun n => some n)
    (by rintro d (_ | _ | _ | _ | _) <;> rfl) (fun _ _ _ => rfl) {} c.parts
  rw [getLast?_flag] at hjson hparallel
  rw [getD_map_some] at honly
  rw [Option.map_id'] at hcapacity
  replace hmaxClears := hmaxClears.trans (getD_map_some (fun n => n) _)
  rw [Option.map_id'] at hmaxClears
  generalize c.parts.foldl Part.apply {} = d at *
  obtain ⟨positional, json, parallel, only, capacity, maxClears⟩ := d
  subst hpositional hjson hparallel honly hcapacity hmaxClears
  rfl

theorem read_arguments (c : CommandLine) : Draft.read {} c.arguments = .ok (some c.draft) := by
  rw [arguments, read_parts, ← foldl_apply_addPositional]
  cases c.behind with
  | none =>
    rw [Draft.read, Draft.addPositional, Option.getD_none, List.append_nil]
  | some behind =>
    rw [Draft.read, ofBytes_ofString]
    rfl

/-- What a command line asks for. Of the values of an option the last one counts. -/
structure AsksFor (c : CommandLine) (o : Options) : Prop where
  json : o.json = true ↔ .json ∈ c.groups
  parallel : o.parallel = true ↔ .parallel ∈ c.groups
  only_of_names : ∀ s, (c.groups.filterMap OptionGroup.names?).getLast? = some s →
    ∃ names, o.only = some names ∧ AreNames names s
  only_of_none : (c.groups.filterMap OptionGroup.names?).getLast? = none → o.only = none
  capacity : o.budget.capacity =
    (c.groups.filterMap OptionGroup.capacity?).getLast?.getD 2097152
  maxClears : o.budget.maxClears = (c.groups.filterMap OptionGroup.maxClears?).getLast?

/-- Two command lines with the same positional arguments in the same order, and of each option the
same groups in the same order. Groups of different options may stand in any order, and anywhere
between the positional arguments. -/
def Rearranged (c c' : CommandLine) : Prop :=
  c'.positionals = c.positionals ∧
    ∀ option, c'.groups.filter (·.option = option) = c.groups.filter (·.option = option)

/-- Groups that are about something all have the same option. -/
theorem filterMap_eq_of_rearranged {γ : Type} {c c' : CommandLine} (h : c.Rearranged c')
    (about : OptionGroup → Option γ) (option : String)
    (habout : ∀ g, g.option ≠ option → about g = none) :
    c'.groups.filterMap about = c.groups.filterMap about := by
  have hfilter (groups : List OptionGroup) :
      groups.filterMap about = (groups.filter (·.option = option)).filterMap about := by
    rw [List.filterMap_filter]
    congr 1
    funext g
    by_cases hg : g.option = option
    · rw [if_pos (by simpa using hg)]
    · rw [if_neg (by simpa using hg), habout g hg]
  rw [hfilter, hfilter c.groups, h.2 option]

theorem flag_mem_iff_of_rearranged {c c' : CommandLine} (h : c.Rearranged c')
    {flag : OptionGroup} : flag ∈ c'.groups ↔ flag ∈ c.groups := by
  have hfilter (groups : List OptionGroup) :
      flag ∈ groups ↔ flag ∈ groups.filter (·.option = flag.option) := by
    simp only [List.mem_filter, decide_true, and_true]
  rw [hfilter, hfilter c.groups, h.2]

theorem draft_eq_of_rearranged {c c' : CommandLine} (h : c.Rearranged c') :
    c'.draft = c.draft := by
  have hnames := filterMap_eq_of_rearranged h OptionGroup.names? "--only"
    (by rintro (_ | _ | _ | _ | _) hg <;> first | rfl | exact absurd rfl hg)
  have hcapacity := filterMap_eq_of_rearranged h OptionGroup.capacity? "--cache-capacity"
    (by rintro (_ | _ | _ | _ | _) hg <;> first | rfl | exact absurd rfl hg)
  have hmaxClears := filterMap_eq_of_rearranged h OptionGroup.maxClears? "--max-cache-clears"
    (by rintro (_ | _ | _ | _ | _) hg <;> first | rfl | exact absurd rfl hg)
  rw [draft, draft, h.1, hnames, hcapacity, hmaxClears]
  simp only [flag_mem_iff_of_rearranged h]

/-- The options of a command line with a pattern and an input file. -/
def options (c : CommandLine) (pattern : Pattern) (input : Bytes) : Options :=
  ⟨pattern, input, c.draft.json, c.draft.parallel, c.draft.only, c.draft.budget⟩

theorem parse_arguments {c : CommandLine} {pattern : Pattern} {input : Bytes}
    (hpositionals : c.positionals = [pattern.bytes, input]) :
    parse c.arguments = .ok (.run (c.options pattern input)) := by
  have hdraft : c.draft.positional = [pattern.bytes, input] := hpositionals
  have hfinish : c.draft.finish = .ok (c.options pattern input) := by
    rw [Draft.finish, hdraft]
    simp only [Pattern.ofBytes?, dif_pos pattern.bytes_ne_nil]
    rfl
  rw [parse, read_arguments]
  simp only [hfinish]
  rfl

theorem asksFor_options (c : CommandLine) (pattern : Pattern) (input : Bytes) :
    c.AsksFor (c.options pattern input) where
  json := decide_eq_true_iff
  parallel := decide_eq_true_iff
  only_of_names s hs := ⟨nameList s, by rw [options, draft, hs]; rfl, areNames_nameList s⟩
  only_of_none hnone := by rw [options, draft, hnone]; rfl
  capacity := rfl
  maxClears := rfl

end CommandLine

/-- A command line with two positional arguments, the first one not empty, is read as a pattern, an
input file and what the groups of options ask for. It is read alike if it is rearranged. -/
theorem parse_commandLine (c : CommandLine) (pattern input : Bytes)
    (hpositionals : c.positionals = [pattern, input]) (hpattern : pattern ≠ []) :
    (∃ o, parse c.arguments = .ok (.run o) ∧ o.pattern.bytes = pattern ∧ o.input = input ∧
      c.AsksFor o) ∧
    ∀ c', c.Rearranged c' → parse c'.arguments = parse c.arguments := by
  constructor
  · have hpositionals' : c.positionals = [(⟨pattern, hpattern⟩ : Pattern).bytes, input] :=
      hpositionals
    have hparse := CommandLine.parse_arguments hpositionals'
    exact ⟨_, hparse, rfl, rfl, c.asksFor_options _ _⟩
  · intro c' h
    rw [parse, parse, c.read_arguments, c'.read_arguments, CommandLine.draft_eq_of_rearranged h]

/-- A command line whose parts are far apart: a hyphen alone is the pattern, a list of names looks
like an option, the capacity is given twice, and a help option behind the separator is the input. -/
def scatteredLine : CommandLine where
  parts :=
    [.group .parallel, .group (.cacheCapacity ⟨false, [7], by decide, by decide⟩),
      .positional [0x2D] (.inr (.inr rfl)), .group (.only "--json"),
      .group (.cacheCapacity ⟨true, [0, 4, 2], by decide, by decide⟩)]
  behind := some [Bytes.ofString "-h"]

/-- The options of the scattered line in another order. -/
def gatheredLine : CommandLine where
  parts :=
    [.positional [0x2D] (.inr (.inr rfl)), .group (.only "--json"),
      .group (.cacheCapacity ⟨false, [7], by decide, by decide⟩),
      .group (.cacheCapacity ⟨true, [0, 4, 2], by decide, by decide⟩), .group .parallel]
  behind := some [Bytes.ofString "-h"]

theorem rearranged_scatteredLine : scatteredLine.Rearranged gatheredLine := by
  refine ⟨rfl, fun option => ?_⟩
  by_cases hparallel : "--parallel" = option
  · subst hparallel
    rfl
  · simp only [scatteredLine, gatheredLine, CommandLine.groups, List.filterMap_cons, Part.group?,
      List.filterMap_nil, List.filter_cons, List.filter_nil, OptionGroup.option, hparallel,
      decide_false]
    by_cases honly : "--only" = option
    · subst honly
      rfl
    · simp [honly]

theorem parse_commandLine_scattered :
    scatteredLine.positionals = [[0x2D], Bytes.ofString "-h"] ∧ ([0x2D] : Bytes) ≠ [] ∧
    (∃ o, parse scatteredLine.arguments = .ok (.run o) ∧ o.pattern.bytes = [0x2D] ∧
      o.input = Bytes.ofString "-h" ∧ scatteredLine.AsksFor o) ∧
    parse gatheredLine.arguments = parse scatteredLine.arguments := by
  have hall := parse_commandLine scatteredLine [0x2D] (Bytes.ofString "-h") rfl (by decide)
  exact ⟨rfl, by decide, hall.1, hall.2 gatheredLine rearranged_scatteredLine⟩

end ByteSearch.Cli
