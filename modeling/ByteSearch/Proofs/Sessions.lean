import ByteSearch.Cli.Session
import ByteSearch.Proofs.CommandLines
import ByteSearch.Proofs.Reports

/-!
# How sessions end

A session is refused, gives help, fails for an unknown strategy or a file that cannot be loaded, or
is completed (`Ending`). `EndsAs` says which of these it is by what the command line and the system
say, `Ending.code` and `Ending.Prints` what it leaves. That a strategy fails is no ending: it is
part of the report.

The flag for strategies that run at the same time does not change the ending. It is read like any
other option (`read_insertParallel`), and the reports are the same because a registry yields one
report only, up to the measured times.

Main statement: `sessions_end`.
-/

namespace ByteSearch.Cli

open ByteSearch.Bench (Registry Report Yields)
open ByteSearch.Search (Counter)

/-! ## Strategies to run -/

def strategyNames : List String :=
  ["byte-scan", "engine-scan", "naive-scan", "vectorized-scan", "null-scan"]

theorem contains_standard (budget : Regex.Budget) (name : String) :
    (Registry.standard budget).contains name = true ↔ name ∈ strategyNames := by
  rw [Registry.contains, List.contains_iff_mem]
  rfl

namespace Options

/-- All names that are asked for are names of strategies. -/
def Known (o : Options) : Prop :=
  ∀ names, o.only = some names → ∀ name ∈ names, name ∈ strategyNames

/-- The first unknown name that is asked for. -/
def FirstUnknown (o : Options) (name : String) : Prop :=
  ∃ before after, o.only = some (before ++ name :: after) ∧
    (∀ known ∈ before, known ∈ strategyNames) ∧ name ∉ strategyNames

/-- The strategies that are asked for, in their usual order. -/
def selected (o : Options) : Registry :=
  (Registry.standard o.budget).retain fun name => o.only.all (·.contains name)

theorem registry_of_known {o : Options} (h : o.Known) : o.registry = .ok o.selected := by
  cases honly : o.only with
  | none =>
    simp only [registry, selected, honly, Registry.retain, Option.all_none, List.filter_true]
  | some names =>
    have hfind : names.find? (!(Registry.standard o.budget).contains ·) = none := by
      refine List.find?_eq_none.2 fun name hname => ?_
      rw [(contains_standard _ _).2 (h names honly name hname)]
      decide
    simp only [registry, selected, honly, hfind, Option.all_some]

theorem registry_of_firstUnknown {o : Options} {name : String} (h : o.FirstUnknown name) :
    o.registry = .error (.unknownStrategy name) := by
  obtain ⟨before, after, honly, hbefore, hname⟩ := h
  have hfind : (before ++ name :: after).find? (!(Registry.standard o.budget).contains ·) =
      some name := by
    refine List.find?_eq_some_iff_append.2 ⟨?_, before, after, rfl, fun known hknown => ?_⟩
    · rw [Bool.not_eq_true', Bool.eq_false_iff, ne_eq, contains_standard]
      exact hname
    · rw [(contains_standard _ _).2 (hbefore known hknown)]
      rfl
  simp only [registry, honly, hfind]

theorem known_or_firstUnknown (o : Options) : o.Known ∨ ∃ name, o.FirstUnknown name := by
  cases honly : o.only with
  | none =>
    refine .inl fun names hnames => ?_
    rw [honly] at hnames
    cases hnames
  | some names =>
    cases hfind : names.find? (· ∉ strategyNames) with
    | none =>
      refine .inl fun names' hnames name hname => ?_
      rw [honly, Option.some.injEq] at hnames
      rw [← hnames] at hname
      simpa using List.find?_eq_none.1 hfind name hname
    | some name =>
      obtain ⟨hname, before, after, rfl, hbefore⟩ := List.find?_eq_some_iff_append.1 hfind
      exact .inr ⟨name, before, after, honly, by simpa using hbefore, by simpa using hname⟩

end Options

/-! ## Endings -/

/-- How a session can end. -/
inductive Ending where
  | refused (fault : OptionFault)
  | helped
  | unknownStrategy (name : String)
  | notLoaded (location : Bytes) (failure : InputFailure)
  | completed (plan : Plan)

/-- How the session of a command line ends. -/
inductive EndsAs (system : System) (arguments : List Bytes) : Ending → Prop where
  | refused {fault : OptionFault} (hparse : parse arguments = .error fault) :
    EndsAs system arguments (.refused fault)
  | helped (hparse : parse arguments = .ok .help) : EndsAs system arguments .helped
  | unknownStrategy {o : Options} {name : String} (hparse : parse arguments = .ok (.run o))
      (hname : o.FirstUnknown name) : EndsAs system arguments (.unknownStrategy name)
  | notLoaded {o : Options} {failure : InputFailure} (hparse : parse arguments = .ok (.run o))
      (hknown : o.Known) (hload : InputFile.loadBy system o.input = .error failure) :
    EndsAs system arguments (.notLoaded o.input failure)
  | completed {o : Options} {input : InputFile} (hparse : parse arguments = .ok (.run o))
      (hknown : o.Known) (hload : InputFile.loadBy system o.input = .ok input) :
    EndsAs system arguments (.completed ⟨o, o.selected, input⟩)

namespace Ending

def code : Ending → Nat
  | refused _ => 2
  | unknownStrategy _ | notLoaded .. => 1
  | helped | completed _ => 0

/-- A text is what a session prints that ends so. A completed one prints some report that the
strategies yield. -/
def Prints : Ending → String → Prop
  | refused _, s | unknownStrategy _, s | notLoaded .., s => s = ""
  | helped, s => s = usage ++ "\n"
  | completed plan, s =>
    ∃ rep, Yields Counter plan.registry plan.input.content plan.options.pattern rep ∧
      if plan.options.json then s = rep.toJsonWithVerdict.text .indented ++ "\n"
      else s = "Scanning " ++ toString plan.input.content.size ++ " bytes\n" ++ rep.text

theorem eq_empty_iff_of_prints {e : Ending} {s : String} (h : e.Prints s) :
    s = "" ↔ e.code ≠ 0 := by
  cases e with
  | refused | unknownStrategy | notLoaded =>
    subst h
    simp [code]
  | helped =>
    subst h
    simp [code]
  | completed plan =>
    obtain ⟨rep, -, h⟩ := h
    split at h
    · subst h
      simp [code]
    · subst h
      simp [code]

end Ending

variable {system : System} {arguments : List Bytes}

theorem EndsAs.exists_ending (system : System) (arguments : List Bytes) :
    ∃ e, EndsAs system arguments e := by
  cases hparse : parse arguments with
  | error fault => exact ⟨_, .refused hparse⟩
  | ok command =>
    cases command with
    | help => exact ⟨_, .helped hparse⟩
    | run o =>
      rcases o.known_or_firstUnknown with hknown | ⟨name, hname⟩
      · cases hload : InputFile.loadBy system o.input with
        | error failure => exact ⟨_, .notLoaded hparse hknown hload⟩
        | ok input => exact ⟨_, .completed hparse hknown hload⟩
      · exact ⟨_, .unknownStrategy hparse hname⟩

/-- The ending that is found by asking for the strategies first and for the input file then. -/
def Ending.find (system : System) : Except OptionFault Command → Ending
  | .error fault => .refused fault
  | .ok .help => .helped
  | .ok (.run o) =>
    match o.registry, InputFile.loadBy system o.input with
    | .error (.unknownStrategy name), _ => .unknownStrategy name
    | .error fault, _ => .refused fault
    | .ok _, .error failure => .notLoaded o.input failure
    | .ok registry, .ok input => .completed ⟨o, registry, input⟩

theorem EndsAs.eq_find {e : Ending} (h : EndsAs system arguments e) :
    e = .find system (parse arguments) := by
  cases h with
  | refused hparse => rw [hparse, Ending.find]
  | helped hparse => rw [hparse, Ending.find]
  | unknownStrategy hparse hname =>
    rw [hparse, Ending.find, Options.registry_of_firstUnknown hname]
  | notLoaded hparse hknown hload =>
    rw [hparse, Ending.find, Options.registry_of_known hknown, hload]
  | completed hparse hknown hload =>
    rw [hparse, Ending.find, Options.registry_of_known hknown, hload]

/-- No session ends in two ways. -/
theorem EndsAs.eq {e e' : Ending} (h : EndsAs system arguments e)
    (h' : EndsAs system arguments e') : e' = e :=
  h'.eq_find.trans h.eq_find.symm

/-! ## What a session leaves -/

variable {w : Surroundings}

/-- Every strategy finishes, and each of them once. -/
def Surroundings.AllFinish (w : Surroundings) : Prop :=
  ∀ n, (w.finishing n).Perm (List.range n)

theorem Plan.yields_outcome (hw : w.AllFinish) (plan : Plan) :
    Yields Counter plan.registry plan.input.content plan.options.pattern
      (plan.outcome w).report := by
  rw [outcome]
  split
  · exact .atOnce w.elapsed w.threads (hw plan.registry.size)
  · exact .inSequence w.elapsed

/-- What a session leaves that ends so. -/
def Ending.exit (w : Surroundings) : Ending → Exit
  | refused fault => ⟨2, "", linesOf ("error: " ++ fault.message) ++ "" :: linesOf usage⟩
  | helped => ⟨0, usage ++ "\n", []⟩
  | unknownStrategy name => (SessionFailure.options (.unknownStrategy name)).exit
  | notLoaded location failure => (SessionFailure.input location failure).exit
  | completed plan => plan.finish w.filter (plan.outcome w)

theorem EndsAs.run_eq {e : Ending} (h : EndsAs w.system arguments e) :
    run w arguments = e.exit w := by
  cases h with
  | refused hparse => simp only [run, runWith, prepare, hparse, Ending.exit]
  | helped hparse => simp only [run, runWith, prepare, hparse, Ending.exit]
  | unknownStrategy hparse hname =>
    simp only [run, runWith, prepare, hparse, plan, Options.registry_of_firstUnknown hname,
      Ending.exit]
  | notLoaded hparse hknown hload =>
    simp only [run, runWith, prepare, hparse, plan, Options.registry_of_known hknown, hload,
      Ending.exit]
  | completed hparse hknown hload =>
    simp only [run, runWith, prepare, hparse, plan, Options.registry_of_known hknown, hload,
      Ending.exit, id]

theorem Ending.code_exit (e : Ending) : (e.exit w).code = e.code := by
  cases e <;> rfl

/-- The exit code does not depend on the strategies that run, nor on what comes of them. -/
theorem code_runWith (exchange : Registry → Registry) (w : Surroundings) (arguments : List Bytes) :
    (runWith exchange w arguments).code = (run w arguments).code := by
  rw [run, runWith, runWith]
  cases prepare w.system arguments <;> rfl

theorem code_run_of_prepare {plan : Plan} (h : prepare w.system arguments = .ok plan) :
    (run w arguments).code = 0 := by
  rw [run, runWith, h]
  rfl

/-- What a completed session prints for a report. -/
def Plan.printed (plan : Plan) (rep : Report) : String :=
  (if plan.options.json then "" else "Scanning " ++ toString plan.input.length ++ " bytes\n") ++
    rep.render plan.options.json

theorem Ending.prints_completed_iff {plan : Plan} {s : String} :
    (completed plan).Prints s ↔
      ∃ rep, Yields Counter plan.registry plan.input.content plan.options.pattern rep ∧
        s = plan.printed rep := by
  have hprinted (rep : Report) :
      s = plan.printed rep ↔
        if plan.options.json then s = rep.toJsonWithVerdict.text .indented ++ "\n"
        else s = "Scanning " ++ toString plan.input.content.size ++ " bytes\n" ++ rep.text := by
    rw [Plan.printed, Report.render]
    cases plan.options.json with
    | true => exact Iff.of_eq (congrArg (s = ·) (String.empty_append))
    | false => exact Iff.rfl
  simp only [Prints, hprinted]

theorem Ending.prints_exit (hw : w.AllFinish) (e : Ending) : e.Prints (e.exit w).stdout := by
  cases e with
  | completed plan => exact prints_completed_iff.2 ⟨_, plan.yields_outcome hw, rfl⟩
  | _ => rfl

/-! ## The flag for strategies that run at the same time -/

def Draft.inParallel (d : Draft) : Draft :=
  { d with parallel := true }

def Options.inParallel (o : Options) : Options :=
  { o with parallel := true }

/-- The flag does not matter for help. -/
def Command.inParallel : Command → Command
  | run o => .run o.inParallel
  | help => .help

theorem setValue_inParallel (d : Draft) (option : Valued) (value : Bytes) :
    d.inParallel.setValue option value = (d.setValue option value).map Draft.inParallel := by
  unfold Draft.setValue
  cases Utf8.decode? value with
  | none => rfl
  | some s =>
    cases option with
    | only => rfl
    | cacheCapacity | maxCacheClears =>
      cases hnumber : number s <;> simp only [hnumber] <;> rfl

/-- The flag on the way is the flag in the end. -/
theorem read_inParallel (d : Draft) (arguments : List Bytes) :
    d.inParallel.read arguments = (d.read arguments).map (Option.map Draft.inParallel) := by
  fun_induction Draft.read d arguments with
  | case1 d => rfl
  | case2 d argument rest h => rw [Draft.read, h]; rfl
  | case3 d argument rest h ih => rw [Draft.read, h]; exact ih
  | case4 d argument rest h ih => rw [Draft.read, h]; exact ih
  | case5 d argument option h => rw [Draft.read, h]; rfl
  | case6 d argument option h value rest d' hset ih =>
    rw [Draft.read, h]
    simp only [setValue_inParallel, hset]
    exact ih
  | case7 d argument option h value rest fault hset =>
    rw [Draft.read, h]
    simp only [setValue_inParallel, hset]
    rfl
  | case8 d argument rest h => rw [Draft.read, h]; rfl
  | case9 d argument rest option h => rw [Draft.read, h]; rfl
  | case10 d argument rest h ih => rw [Draft.read, h]; exact ih

/-- Behind these arguments stands what may be an option: no value is due, and there was no
separator. -/
def atOption : List Bytes → Bool
  | [] => true
  | argument :: rest =>
    match Argument.ofBytes argument with
    | .separator => false
    | .valued _ =>
      match rest with
      | [] => false
      | _ :: rest => atOption rest
    | _ => atOption rest

/-- The flag is read where an option may stand, and nothing else is read differently. -/
theorem read_insertParallel (d : Draft) {front : List Bytes} (h : atOption front = true)
    (back : List Bytes) :
    d.read (front ++ Bytes.ofString "--parallel" :: back) =
      (d.read (front ++ back)).map (Option.map Draft.inParallel) := by
  fun_induction atOption front generalizing d with
  | case1 =>
    rw [List.nil_append, List.nil_append, Draft.read, ofBytes_ofString]
    exact read_inParallel d back
  | case2 argument rest hargument => cases h
  | case3 argument option hargument => cases h
  | case4 argument option hargument value rest ih =>
    simp only [List.cons_append, Draft.read, hargument]
    cases d.setValue option value with
    | error fault => rfl
    | ok d' => exact ih d' h
  | case5 argument rest hseparator hvalued ih =>
    -- help or an unknown option ends the reading before it comes to the flag
    simp only [List.cons_append, Draft.read]
    cases hargument : Argument.ofBytes argument with
    | separator => exact (hseparator hargument).elim
    | valued option => exact (hvalued option hargument).elim
    | help | unknown => rfl
    | json | parallel | positional => exact ih _ h

theorem finish_inParallel (d : Draft) :
    d.inParallel.finish = d.finish.map Options.inParallel := by
  simp only [Draft.finish, Draft.inParallel]
  split
  · rfl
  · rfl
  · rfl
  · split <;> rfl

theorem parse_insertParallel {front : List Bytes} (h : atOption front = true) (back : List Bytes) :
    parse (front ++ Bytes.ofString "--parallel" :: back) =
      (parse (front ++ back)).map Command.inParallel := by
  rw [parse, parse, read_insertParallel _ h]
  cases Draft.read {} (front ++ back) with
  | error fault => rfl
  | ok draft =>
    cases draft with
    | none => rfl
    | some d =>
      change (d.inParallel.finish.map Command.run) = (d.finish.map Command.run).map _
      rw [finish_inParallel]
      cases d.finish <;> rfl

def Ending.inParallel : Ending → Ending
  | completed plan => completed { plan with options := plan.options.inParallel }
  | e => e

theorem EndsAs.insertParallel {front back : List Bytes} {e : Ending}
    (h : EndsAs system (front ++ back) e) (hfront : atOption front = true) :
    EndsAs system (front ++ Bytes.ofString "--parallel" :: back) e.inParallel := by
  have hinsert := parse_insertParallel hfront back
  cases h with
  | refused hparse => exact .refused (by rw [hinsert, hparse]; rfl)
  | helped hparse => exact .helped (by rw [hinsert, hparse]; rfl)
  | unknownStrategy hparse hname =>
    rename_i o name
    exact .unknownStrategy (o := o.inParallel) (by rw [hinsert, hparse]; rfl) hname
  | notLoaded hparse hknown hload =>
    rename_i o failure
    exact .notLoaded (o := o.inParallel) (by rw [hinsert, hparse]; rfl) hknown hload
  | completed hparse hknown hload =>
    rename_i o input
    exact .completed (o := o.inParallel) (by rw [hinsert, hparse]; rfl) hknown hload

/-- The texts are the same, or they show reports that are the same but for the measured times. -/
inductive SameButTimes : String → String → Prop where
  | same (s : String) : SameButTimes s s
  | reports (front : String) (json : Bool) {rep rep' : Report}
      (huntimed : rep.untimed = rep'.untimed) :
    SameButTimes (front ++ rep.render json) (front ++ rep'.render json)

theorem Ending.sameButTimes {e : Ending} {s s' : String} (h : e.Prints s)
    (h' : e.inParallel.Prints s') : SameButTimes s' s := by
  cases e with
  | refused | helped | unknownStrategy | notLoaded =>
    rw [show s' = s from h'.trans h.symm]
    exact .same s
  | completed plan =>
    obtain ⟨rep, hrep, rfl⟩ := prints_completed_iff.1 h
    obtain ⟨rep', hrep', rfl⟩ := prints_completed_iff.1 h'
    exact .reports _ _ (hrep'.untimed_eq.trans hrep.untimed_eq.symm)

theorem Ending.code_inParallel (e : Ending) : e.inParallel.code = e.code := by
  cases e <;> rfl

/-! ## Sessions -/

/-- A session ends in exactly one way, which determines the exit code and what is printed. Nothing
is printed exactly if the code is not 0. The code is the same whatever strategies run in place of
those that are asked for, so it does not depend on which of them fail, and it is 0 if there is a
plan for them. The flag for strategies that run at the same time may be added where an option may
stand, or taken away there, and only the measured times change. -/
theorem sessions_end (w : Surroundings) (arguments : List Bytes) (hw : w.AllFinish) :
    (∃ e, EndsAs w.system arguments e ∧ (∀ e', EndsAs w.system arguments e' → e' = e) ∧
      (run w arguments).code = e.code ∧ e.Prints (run w arguments).stdout) ∧
    ((run w arguments).stdout = "" ↔ (run w arguments).code ≠ 0) ∧
    (∀ exchange, (runWith exchange w arguments).code = (run w arguments).code) ∧
    (∀ plan, prepare w.system arguments = .ok plan → (run w arguments).code = 0) ∧
    ∀ front back, arguments = front ++ back → atOption front = true →
      ∀ w' : Surroundings, w'.system = w.system → w'.AllFinish →
        (run w' (front ++ Bytes.ofString "--parallel" :: back)).code = (run w arguments).code ∧
        SameButTimes (run w' (front ++ Bytes.ofString "--parallel" :: back)).stdout
          (run w arguments).stdout := by
  obtain ⟨e, he⟩ := EndsAs.exists_ending w.system arguments
  have hcode : (run w arguments).code = e.code := by rw [he.run_eq, e.code_exit]
  have hprints : e.Prints (run w arguments).stdout := by
    rw [he.run_eq]
    exact e.prints_exit hw
  refine ⟨⟨e, he, fun e' => he.eq, hcode, hprints⟩, ?_, fun exchange => code_runWith exchange w _,
    fun plan => code_run_of_prepare, ?_⟩
  · rw [hcode]
    exact Ending.eq_empty_iff_of_prints hprints
  · rintro front back rfl hfront w' hsystem hw'
    have he' := hsystem ▸ he.insertParallel hfront
    rw [he'.run_eq, Ending.code_exit, e.code_inParallel]
    exact ⟨hcode.symm, Ending.sameButTimes hprints (e.inParallel.prints_exit hw')⟩

/-- Two bytes are searched for in a file of three, and the engine has no room at all. The strategies
finish in reverse order if they run at the same time. -/
theorem sessions_end_without_room :
    let w : Surroundings :=
      { system := FileSystem.system fun path =>
          if path = Bytes.ofString "log" then .ok (.file #[0x61, 0x61, 0x61]) else .error .notFound
        filter := []
        elapsed := fun i => ⟨i⟩
        threads := 2
        finishing := fun n => (List.range n).reverse }
    let front := [Bytes.ofString "--cache-capacity", Bytes.ofString "0"]
    let back := [Bytes.ofString "aa", Bytes.ofString "log"]
    w.AllFinish ∧ atOption front = true ∧
      (run w (front ++ back)).code = 0 ∧ (run w (front ++ back)).stdout ≠ "" ∧
      (run w (front ++ Bytes.ofString "--parallel" :: back)).code = 0 ∧
      SameButTimes (run w (front ++ Bytes.ofString "--parallel" :: back)).stdout
        (run w (front ++ back)).stdout := by
  intro w front back
  have hw : w.AllFinish := fun n => List.reverse_perm _
  have hfront : atOption front = true := by
    simp only [front, atOption, ofBytes_ofString]
    rfl
  obtain ⟨⟨e, -, hunique, hcode, -⟩, hempty, -, -, hparallel⟩ := sessions_end w (front ++ back) hw
  have hpositional (s : String) (hs : (Bytes.ofString s).head? ≠ some 0x2D) :
      IsPositional (Bytes.ofString s) := .inr (.inl hs)
  let c : CommandLine :=
    ⟨[.group (.cacheCapacity ⟨false, [0], by decide, by decide⟩),
      .positional (Bytes.ofString "aa") (hpositional "aa" (by decide)),
      .positional (Bytes.ofString "log") (hpositional "log" (by decide))], none⟩
  have hparse : parse (front ++ back) =
      .ok (.run (c.options ⟨Bytes.ofString "aa", by decide⟩ (Bytes.ofString "log"))) :=
    CommandLine.parse_arguments (c := c) rfl
  have hcompleted := hunique _ (.completed hparse (fun _ honly => nomatch honly) rfl)
  have hzero : (run w (front ++ back)).code = 0 := by
    rw [hcode, ← hcompleted]
    rfl
  obtain ⟨hsame, hreports⟩ := hparallel front back rfl hfront w rfl hw
  exact ⟨hw, hfront, hzero, fun h => hempty.1 h hzero, hsame.trans hzero, hreports⟩

end ByteSearch.Cli
