import ByteSearch.Proofs.Sessions
import Mathlib.Data.List.TakeWhile

/-!
# Strategies asked for by name

A list of names on the command line selects strategies (`AsksByName`). What the names are is said by
`AreNames`, and a list has no other names than those (`AreNames.eq_nameList`). A selection keeps the
strategies in their usual order (`Selects`), so it depends on the set of the names alone, and the
report on a selection is the part of the report on all strategies that has these names
(`Yields.untimed_results_retain`).

Main statement: `registry_byName`.
-/

namespace ByteSearch.Bench

open ByteSearch.Search (Pattern Sink)

variable {σ : Type} [Sink σ] {r : Registry} {h : Buffer} {p : Pattern} {rep all : Report}

/-- The strategies that are kept have the results that they have among all strategies. -/
theorem Yields.untimed_results_retain {keep : String → Bool}
    (hrep : Yields σ (r.retain keep) h p rep) (hall : Yields σ r h p all) :
    rep.untimed.results = all.untimed.results.filter (keep ·.name) := by
  rw [hrep.untimed_eq, hall.untimed_eq, List.filter_map]
  rfl

/-- Two reports of a registry differ in the measured times at most. -/
theorem Yields.untimed_unique {rep' : Report} (hrep : Yields σ r h p rep)
    (hrep' : Yields σ r h p rep') : rep'.untimed = rep.untimed :=
  hrep'.untimed_eq.trans hrep.untimed_eq.symm

end ByteSearch.Bench

namespace ByteSearch.Cli

open ByteSearch.Bench (Registry Report Yields)
open ByteSearch.Search (Counter)
open ByteSearch.Search (Pattern)

/-! ## The names in a list -/

/-- Only one text is left when the blanks are gone. -/
theorem Trimmed.eq_trim {s t : List Char} (h : Trimmed s t) : t = Text.trim s := by
  obtain ⟨⟨front, back, rfl, hblank⟩, hends⟩ := h
  have hfront : ∀ c ∈ front, Text.isBlank c = true := fun c hc =>
    hblank c (List.mem_append_left _ hc)
  have hback : ∀ c ∈ back.reverse, Text.isBlank c = true := fun c hc =>
    hblank c (List.mem_append_right _ (List.mem_reverse.1 hc))
  rw [Text.trim, List.append_assoc, List.dropWhile_append_of_pos hfront]
  by_cases ht : t = []
  · have hnil : back.dropWhile Text.isBlank = [] :=
      List.dropWhile_eq_nil_iff.2 fun c hc => hback c (List.mem_reverse.2 hc)
    rw [ht, List.nil_append, hnil]
    rfl
  · have hfirst : (t ++ back).dropWhile Text.isBlank = t ++ back := by
      refine Text.dropWhile_of_head? fun c hc => hends c (.inl ?_)
      rwa [List.head?_append_of_ne_nil _ ht] at hc
    have hlast : t.reverse.dropWhile Text.isBlank = t.reverse := by
      refine Text.dropWhile_of_head? fun c hc => hends c (.inr ?_)
      rwa [List.head?_reverse] at hc
    rw [hfirst, List.reverse_append, List.dropWhile_append_of_pos hback, hlast,
      List.reverse_reverse]

/-- A list has one sequence of names. -/
theorem AreNames.eq_nameList {names : List String} {s : String} (h : AreNames names s) :
    names = nameList s := by
  obtain ⟨parts, trimmed, hparts, hne, hcomma, htrimmed, rfl⟩ := h
  have hsplit : s.toList.splitOn ',' = parts := by
    rw [hparts]
    exact List.splitOn_intercalate ',' hcomma hne
  have htrim : trimmed = parts.map Text.trim := by
    rw [← List.forall₂_eq_eq_eq, List.forall₂_map_right_iff]
    exact htrimmed.flip.imp fun _ _ ht => Trimmed.eq_trim ht
  rw [nameList, hsplit, htrim]
  congr 2
  funext part
  cases part <;> rfl

/-- The options of a command line, and the names in the last list of names on it. -/
def AsksByName (o : Options) (names : List String) : Prop :=
  ∃ (c : CommandLine) (s : String), parse c.arguments = .ok (.run o) ∧
    (c.groups.filterMap OptionGroup.names?).getLast? = some s ∧ AreNames names s

theorem only_of_finish {d : Draft} {o : Options} (h : d.finish = .ok o) : o.only = d.only := by
  unfold Draft.finish at h
  split at h
  · cases h
  · cases h
  · cases h
  · split at h
    · cases h
    · cases h
      rfl

theorem AsksByName.only_eq {o : Options} {names : List String} (h : AsksByName o names) :
    o.only = some names := by
  obtain ⟨c, s, hparse, hlast, hnames⟩ := h
  rw [parse, c.read_arguments] at hparse
  cases hfinish : c.draft.finish with
  | error fault =>
    simp only [hfinish] at hparse
    cases hparse
  | ok o' =>
    simp only [hfinish] at hparse
    cases hparse
    rw [only_of_finish hfinish, CommandLine.draft, hlast, hnames.eq_nameList, Option.map_some]

/-! ## Selections -/

/-- The strategies with some names: each of them once, in their usual order and with this budget. -/
structure Selects (budget : Regex.Budget) (names : List String) (r : Registry) : Prop where
  sublist : r.entries.Sublist (Registry.standard budget).entries
  nodup : r.names.Nodup
  mem_names : ∀ name, name ∈ r.names ↔ name ∈ names

variable {o : Options} {names : List String}

theorem known_iff (honly : o.only = some names) :
    o.Known ↔ ∀ name ∈ names, name ∈ strategyNames := by
  rw [Options.Known, honly]
  refine ⟨fun h => h names rfl, fun h names' hnames => ?_⟩
  rwa [← Option.some.inj hnames]

theorem selected_eq (honly : o.only = some names) :
    o.selected = (Registry.standard o.budget).retain names.contains := by
  simp only [Options.selected, honly, Option.all_some]

theorem selects_selected (honly : o.only = some names) (hknown : o.Known) :
    Selects o.budget names o.selected := by
  have hnames : o.selected.names = strategyNames.filter names.contains := by
    rw [selected_eq honly, Registry.names_retain]
    rfl
  refine ⟨?_, ?_, fun name => ?_⟩
  · rw [selected_eq honly]
    exact List.filter_sublist
  · rw [hnames]
    exact List.filter_sublist.nodup (by decide)
  · rw [hnames, List.mem_filter, List.contains_iff_mem]
    exact ⟨fun h => h.2, fun h => ⟨(known_iff honly).1 hknown name h, h⟩⟩

/-- The order of the names does not matter, nor how often they occur. -/
theorem selected_congr {o' : Options} {names' : List String} (honly : o.only = some names)
    (honly' : o'.only = some names') (hbudget : o'.budget = o.budget)
    (hsame : ∀ name, name ∈ names' ↔ name ∈ names) : o'.selected = o.selected := by
  have hcontains : names'.contains = names.contains := by
    funext name
    rw [Bool.eq_iff_iff, List.contains_iff_mem, List.contains_iff_mem, hsame]
  rw [selected_eq honly, selected_eq honly', hbudget, hcontains]

theorem eq_selected_of_registry {r : Registry} (hregistry : o.registry = .ok r) :
    o.Known ∧ r = o.selected := by
  rcases o.known_or_firstUnknown with hknown | ⟨name, hname⟩
  · rw [Options.registry_of_known hknown] at hregistry
    exact ⟨hknown, (Except.ok.inj hregistry).symm⟩
  · rw [Options.registry_of_firstUnknown hname] at hregistry
    cases hregistry

theorem firstUnknown_of_registry {fault : OptionFault} (hregistry : o.registry = .error fault) :
    ∃ name, o.FirstUnknown name ∧ fault = .unknownStrategy name := by
  rcases o.known_or_firstUnknown with hknown | ⟨name, hname⟩
  · rw [Options.registry_of_known hknown] at hregistry
    cases hregistry
  · rw [Options.registry_of_firstUnknown hname] at hregistry
    exact ⟨name, hname, (Except.error.inj hregistry).symm⟩

/-- **Strategies asked for by name.** They are selected if all names are names of strategies, and
then just these are run; otherwise the first unknown name is reported. Lists with the same set of
names select the same strategies and lead to the same reports. Each strategy of a selection has the
result that it has when all strategies are run. -/
theorem registry_byName (hask : AsksByName o names) :
    ((∃ r, o.registry = .ok r) ↔ ∀ name ∈ names, name ∈ strategyNames) ∧
      (∀ fault, o.registry = .error fault → ∃ before name after,
        names = before ++ name :: after ∧ (∀ known ∈ before, known ∈ strategyNames) ∧
          name ∉ strategyNames ∧ fault = .unknownStrategy name) ∧
      ∀ r, o.registry = .ok r →
        Selects o.budget names r ∧
        (∀ o' names' r', AsksByName o' names' → o'.registry = .ok r' → o'.budget = o.budget →
          (∀ name, name ∈ names' ↔ name ∈ names) →
          r' = r ∧ ∀ h p rep rep', Yields Counter r h p rep → Yields Counter r' h p rep' →
            rep'.untimed = rep.untimed) ∧
        ∀ h p rep all, Yields Counter r h p rep →
          Yields Counter (Registry.standard o.budget) h p all →
          rep.untimed.results = all.untimed.results.filter (·.name ∈ names) := by
  have honly := hask.only_eq
  refine ⟨⟨?_, ?_⟩, ?_, ?_⟩
  · rintro ⟨r, hregistry⟩
    exact (known_iff honly).1 (eq_selected_of_registry hregistry).1
  · intro hknown
    exact ⟨_, Options.registry_of_known ((known_iff honly).2 hknown)⟩
  · intro fault hfault
    obtain ⟨name, ⟨before, after, hsplit, hbefore, hunknown⟩, rfl⟩ :=
      firstUnknown_of_registry hfault
    rw [honly] at hsplit
    exact ⟨before, name, after, Option.some.inj hsplit, hbefore, hunknown, rfl⟩
  · intro r hregistry
    obtain ⟨hknown, rfl⟩ := eq_selected_of_registry hregistry
    refine ⟨selects_selected honly hknown, ?_, ?_⟩
    · intro o' names' r' hask' hregistry' hbudget hsame
      obtain ⟨-, rfl⟩ := eq_selected_of_registry hregistry'
      have hselected := selected_congr honly hask'.only_eq hbudget hsame
      refine ⟨hselected, fun h p rep rep' hrep hrep' => ?_⟩
      rw [hselected] at hrep'
      exact hrep.untimed_unique hrep'
    · intro h p rep all hrep hall
      rw [selected_eq honly] at hrep
      rw [hrep.untimed_results_retain hall]
      simp only [List.contains_eq_mem]

/-- A command line with a list of names. -/
def listedLine (s : String) : CommandLine where
  parts :=
    [.group (.only s), .positional (Bytes.ofString "a") (.inr (.inl (by decide))),
      .positional (Bytes.ofString "log") (.inr (.inl (by decide)))]
  behind := none

def listedOptions (s : String) : Options :=
  (listedLine s).options ⟨Bytes.ofString "a", by decide⟩ (Bytes.ofString "log")

theorem asksByName_listedOptions (s : String) : AsksByName (listedOptions s) (nameList s) :=
  ⟨listedLine s, s, CommandLine.parse_arguments rfl, rfl, areNames_nameList s⟩

/-- Two lists of the same two names, one of them with blanks, an empty name and a name that occurs
twice, and a list with two unknown names. -/
theorem registry_byName_padded :
    let o := listedOptions "null-scan,naive-scan"
    let o' := listedOptions " naive-scan,, null-scan ,naive-scan"
    let o'' := listedOptions "naive-scan, kmp,sunday"
    AsksByName o ["null-scan", "naive-scan"] ∧
    AsksByName o' ["naive-scan", "null-scan", "naive-scan"] ∧
    AsksByName o'' ["naive-scan", "kmp", "sunday"] ∧
    (∃ r, o.registry = .ok r ∧ o'.registry = .ok r ∧
      ∀ name, name ∈ r.names ↔ name ∈ ["null-scan", "naive-scan"]) ∧
    o''.registry = .error (.unknownStrategy "kmp") := by
  intro o o' o''
  have hask : AsksByName o ["null-scan", "naive-scan"] := by
    have hnames : nameList "null-scan,naive-scan" = ["null-scan", "naive-scan"] := by
      decide +kernel
    exact hnames ▸ asksByName_listedOptions _
  have hask' : AsksByName o' ["naive-scan", "null-scan", "naive-scan"] := by
    have hnames : nameList " naive-scan,, null-scan ,naive-scan" =
        ["naive-scan", "null-scan", "naive-scan"] := by decide +kernel
    exact hnames ▸ asksByName_listedOptions _
  have hask'' : AsksByName o'' ["naive-scan", "kmp", "sunday"] := by
    have hnames : nameList "naive-scan, kmp,sunday" = ["naive-scan", "kmp", "sunday"] := by
      decide +kernel
    exact hnames ▸ asksByName_listedOptions _
  refine ⟨hask, hask', hask'', ?_, ?_⟩
  · obtain ⟨hknown, -, hselects⟩ := registry_byName hask
    obtain ⟨r, hr⟩ := hknown.2 (by decide)
    obtain ⟨r', hr'⟩ := (registry_byName hask').1.2 (by decide)
    have hsame := (hselects r hr).2.1 o' _ r' hask' hr' rfl (by simp [or_comm])
    exact ⟨r, hr, hsame.1 ▸ hr', (hselects r hr).1.mem_names⟩
  · obtain ⟨hknown, hunknown, -⟩ := registry_byName hask''
    cases hregistry : o''.registry with
    | ok r => exact absurd (hknown.1 ⟨r, hregistry⟩) (by decide)
    | error fault =>
      obtain ⟨before, name, after, hsplit, hbefore, hname, rfl⟩ := hunknown fault hregistry
      -- The first name is known and the second is not, so the unknown one is the second.
      match before, hsplit, hbefore with
      | [], hsplit, _ =>
        cases hsplit
        exact absurd hname (by decide)
      | [_], hsplit, _ =>
        cases hsplit
        rfl
      | _ :: second :: _, hsplit, hbefore =>
        obtain ⟨rfl, -⟩ := List.cons.inj (List.cons.inj hsplit).2
        exact absurd (hbefore "kmp" (by simp)) (by decide)

end ByteSearch.Cli
