import ByteSearch.Bench.Registry
import ByteSearch.Proofs.Handlers
import ByteSearch.Proofs.StepTotals
import ByteSearch.Search.Scanning

/-!
# Sinks that already hold something

`Sends` says of a program with a sink which steps it tells the sink and how it ends, whatever the
sink holds. It goes along the program: the steps of one part come in front of those of the next one.
Every strategy of this library sends the steps of its run (`BuiltIn.sends_scan`), and there is no
reset among them (`BuiltIn.reset_not_mem_steps`). So it adds to what a sink holds and does nothing
else to it, and strategies that use one sink do not disturb each other.

Main statement: `scans_extend`.
-/

namespace ByteSearch.Search

open ByteSearch.Regex (Budget Program Scratch)

/-! ## Programs -/

namespace Scanning

theorem run_bind {σ α β : Type} (x : Scanning σ α) (f : α → Scanning σ β) (s : σ) :
    (x >>= f).run s = ExceptT.bindCont f (x.run s).1 (x.run s).2 := rfl

section

variable {σ α β : Type} [Sink σ]

/-- Whatever the sink holds, the program tells it these steps in order, and ends in this way. -/
def Sends (x : Scanning σ α) (steps : List Step) (r : Except Failure α) : Prop :=
  ∀ s, x.run s = (r, Sink.run s steps)

theorem sends_pure (a : α) : Sends (pure a : Scanning σ α) [] (.ok a) :=
  fun _ => rfl

theorem sends_throw (f : Failure) : Sends (throw f : Scanning σ α) [] (.error f) :=
  fun _ => rfl

theorem sends_tell (x : Step) : Sends (tell x : Scanning σ Unit) [x] (.ok ()) :=
  fun _ => rfl

theorem sends_ofExcept (r : Except Failure α) :
    Sends (MonadExcept.ofExcept r : Scanning σ α) [] r := by
  cases r with
  | error f => exact sends_throw f
  | ok a => exact sends_pure a

theorem Sends.bind {x : Scanning σ α} {f : α → Scanning σ β} {xs ys : List Step} {a : α}
    {r : Except Failure β} (hx : Sends x xs (.ok a)) (hf : Sends (f a) ys r) :
    Sends (x >>= f) (xs ++ ys) r := by
  intro s
  rw [run_bind, hx s, Sink.run_append]
  exact hf (Sink.run s xs)

theorem Sends.bind_error {x : Scanning σ α} {xs : List Step} {failure : Failure}
    (hx : Sends x xs (.error failure)) (f : α → Scanning σ β) :
    Sends (x >>= f) xs (.error failure) := by
  intro s
  rw [run_bind, hx s]
  rfl

theorem sends_forM {f : α → Scanning σ Unit} {steps : α → List Step} {l : List α}
    (hf : ∀ a ∈ l, Sends (f a) (steps a) (.ok ())) :
    Sends (l.forM f) (l.flatMap steps) (.ok ()) := by
  induction l with
  | nil => exact sends_pure ()
  | cons a l ih =>
    rw [List.forall_mem_cons] at hf
    exact hf.1.bind (ih hf.2)

theorem Sends.sinkAfter {x : Scanning σ Unit} {steps : List Step} {r : Except Failure Unit}
    (hx : Sends x steps r) (s : σ) : x.sinkAfter s = Sink.run s steps := by
  rw [Scanning.sinkAfter, hx s]

theorem Sends.outcome {x : Scanning σ Unit} {steps : List Step} {r : Except Failure Unit}
    (hx : Sends x steps r) (s : σ) : x.outcome s = r := by
  rw [Scanning.outcome, hx s]

end

/-! ## The programs of the strategies -/

section

variable {σ : Type} [Sink σ] {h : Buffer}

theorem sends_firstByte (find : ByteFinder) (h : Buffer) (p : Pattern) :
    Sends (firstByte find h p : Scanning σ Unit) ((firstByteBy find).run h p).steps (.ok ()) := by
  have hsends := sends_forM (σ := σ) (l := find p.first h)
    (f := fun offset => tell (.record ⟨offset, Pattern.identifier⟩))
    fun offset _ => sends_tell (.record ⟨offset, Pattern.identifier⟩)
  rwa [← List.map_eq_flatMap] at hsends

/-- The inner loop from some place of the pattern on. A match is recorded at the last byte, and so
just if all bytes that are left agree. -/
theorem sends_compareFrom {last start j : Nat} {b : UInt8} {bytes : Bytes}
    (hlast : last = j + bytes.length) :
    Sends (compareFrom h last start j (b :: bytes) : Scanning σ Unit)
      (if agreesAt h (b :: bytes) (start + j) then [.record ⟨start, Pattern.identifier⟩] else [])
      (.ok ()) := by
  induction bytes generalizing j b with
  | nil =>
    -- the last place, where a match is recorded
    obtain rfl : last = j := hlast
    rw [compareFrom, agreesAt, agreesAt, Bool.and_true]
    by_cases hb : h[start + last]? = some b
    · rw [if_pos hb, if_pos rfl, if_pos (beq_iff_eq.2 hb)]
      exact (sends_tell _).bind (sends_pure ())
    · rw [if_neg hb, if_neg (by simpa using hb)]
      exact sends_pure ()
  | cons c bytes ih =>
    rw [List.length_cons] at hlast
    have hbefore : j ≠ last := by omega
    rw [compareFrom, agreesAt]
    by_cases hb : h[start + j]? = some b
    · rw [if_pos hb, if_neg hbefore, beq_iff_eq.2 hb, Bool.true_and, Nat.add_assoc]
      exact ih (j := j + 1) (b := c) (by omega)
    · rw [if_neg hb, if_neg (by simp [hb])]
      exact sends_pure ()

theorem flatMap_ite_singleton {α β : Type} (c : α → Bool) (f : α → β) (l : List α) :
    (l.flatMap fun a => if c a then [f a] else []) = (l.filter c).map f := by
  induction l with
  | nil => rfl
  | cons a l ih =>
    rw [List.flatMap_cons, ih]
    cases hc : c a <;> simp [hc]

theorem sends_bruteForce (h : Buffer) (p : Pattern) :
    Sends (bruteForce h p : Scanning σ Unit) (Search.bruteForce.run h p).steps (.ok ()) := by
  have hinner : ∀ start ∈ List.range (candidateStarts h.size p.length),
      Sends (compareFrom h (p.length - 1) start 0 p.bytes : Scanning σ Unit)
        (if agreesAt h p.bytes start then [.record ⟨start, Pattern.identifier⟩] else [])
        (.ok ()) := by
    intro start _
    obtain ⟨b, bytes, hbytes⟩ := List.exists_cons_of_ne_nil p.bytes_ne_nil
    have hlength : p.length = bytes.length + 1 := congrArg List.length hbytes
    rw [hbytes]
    exact sends_compareFrom (j := 0) (by omega)
  have hsends := sends_forM hinner
  rw [flatMap_ite_singleton (agreesAt h p.bytes)
    (fun start => Step.record ⟨start, Pattern.identifier⟩)] at hsends
  exact hsends

theorem sends_inLanes (h : Buffer) (p : Pattern) :
    Sends (inLanes h p : Scanning σ Unit) (Search.inLanes.run h p).steps (.ok ()) :=
  sends_tell _

end

/-! ### The engine -/

def recordOf (m : Engine.Match) : Step :=
  .record ⟨m.stop, m.pattern⟩

/-- The end of a scan as the outcome of a program. -/
def outcomeOf : Engine.Ending → Except Failure Unit
  | .failed failure => .error failure
  | _ => .ok ()

section

variable {σ : Type} [Sink σ] {budget : Budget}

/-- From some place on a match is recorded for each one that a handler would get which never
stops. -/
theorem sends_recordFrom (program : Program) (h : Buffer) (ends : List Nat) (place : Engine.Place)
    (sc : Scratch) (delivered : List Engine.Match) :
    ∃ found,
      (Engine.deliver budget program h ends (fun _ => false) place sc delivered).found =
        delivered ++ found ∧
      Sends (recordFrom budget program h ends place sc : Scanning σ Unit) (found.map recordOf)
        (outcomeOf
          (Engine.deliver budget program h ends (fun _ => false) place sc delivered).ending) := by
  -- with every match some symbol is left behind
  induction hleft : place.left h using Nat.strongRecOn generalizing place sc delivered with
  | ind left ih =>
    rw [recordFrom]
    split
    · rename_i hresume
      rw [Engine.deliver_eq, hresume]
      exact ⟨[], (List.append_nil _).symm, sends_throw _⟩
    · rename_i hresume
      rw [Engine.deliver_eq, hresume]
      exact ⟨[], (List.append_nil _).symm, sends_pure ()⟩
    · rename_i sc' stop place' hresume
      have hlt := Engine.left_lt_of_resume hresume
      obtain ⟨found, hfound, hsends⟩ :=
        ih _ (hleft ▸ hlt) place' sc' (delivered ++ [Engine.matchAt stop]) rfl
      rw [Engine.deliver_eq, hresume]
      refine ⟨Engine.matchAt stop :: found, ?_, ?_⟩
      · exact hfound.trans (List.append_assoc ..)
      · exact (sends_tell _).bind hsends

end

end Scanning

def Run.outcome (r : Run) : Except Failure Unit :=
  match r.failure with
  | none => .ok ()
  | some failure => .error failure

theorem engine_run_of_compile {budget : Budget} {p : Pattern} {c : Regex.Compiled}
    (hc : Engine.compile budget p = .ok c) (h : Buffer) :
    ((engine budget).run h p).steps =
        (Engine.scan budget c h none {}).found.map Scanning.recordOf ∧
      ((engine budget).run h p).outcome =
        Scanning.outcomeOf (Engine.scan budget c h none {}).ending := by
  simp only [engine, hc, Run.outcome]
  cases (Engine.scan budget c h none {}).ending <;> exact ⟨rfl, rfl⟩

theorem engine_run_of_error {budget : Budget} {p : Pattern} {failure : Failure}
    (hc : Engine.compile budget p = .error failure) (h : Buffer) :
    (engine budget).run h p = ⟨[], some failure, []⟩ := by
  simp only [engine, hc]

theorem Scanning.sends_engine {σ : Type} [Sink σ] (budget : Budget) (h : Buffer) (p : Pattern) :
    Sends (engine budget h p : Scanning σ Unit) ((Search.engine budget).run h p).steps
      ((Search.engine budget).run h p).outcome := by
  cases hc : Engine.compile budget p with
  | error failure =>
    rw [engine_run_of_error hc, engine, hc]
    exact (sends_ofExcept (.error failure)).bind_error _
  | ok c =>
    obtain ⟨hsteps, houtcome⟩ := engine_run_of_compile hc h
    have hhandler : Handler.StopsAt (fun _ => false) none := fun _ => rfl
    have hscan : Engine.deliver budget c.program h (c.expr.matchEnds h) (fun _ => false) .start {}
        [] = Engine.scan budget c h none {} :=
      Engine.scanWith_eq_scan c (by simp) hhandler {}
    obtain ⟨found, hfound, hsends⟩ : ∃ found, _ ∧
        Sends (recordFrom budget c.program h (c.expr.matchEnds h) .start {} : Scanning σ Unit) _
          _ :=
      sends_recordFrom c.program h (c.expr.matchEnds h) .start {} []
    rw [hscan] at hfound hsends
    rw [hsteps, houtcome, hfound, engine, hc]
    exact (sends_ofExcept (.ok c)).bind hsends

/-! ## The strategies of this library -/

namespace BuiltIn

theorem sends_scan {σ : Type} [Sink σ] (b : BuiltIn) (h : Buffer) (p : Pattern) :
    (b.scan h p : Scanning σ Unit).Sends (b.strategy.run h p).steps
      (b.strategy.run h p).outcome := by
  cases b with
  | firstByte find => exact Scanning.sends_firstByte find h p
  | engine budget => exact Scanning.sends_engine budget h p
  | bruteForce => exact Scanning.sends_bruteForce h p
  | inLanes => exact Scanning.sends_inLanes h p
  | nothing => exact Scanning.sends_pure ()

theorem reset_not_mem_map {α : Type} (f : α → Event) (l : List α) :
    Step.reset ∉ l.map fun a => .record (f a) := by
  simp

theorem reset_not_mem_steps (b : BuiltIn) (h : Buffer) (p : Pattern) :
    .reset ∉ (b.strategy.run h p).steps := by
  cases b with
  | firstByte find => exact reset_not_mem_map _ _
  | bruteForce => exact reset_not_mem_map _ _
  | inLanes => exact fun hmem => nomatch List.mem_singleton.1 hmem
  | nothing => exact List.not_mem_nil
  | engine budget =>
    simp only [strategy]
    cases hc : Engine.compile budget p with
    | error failure =>
      rw [engine_run_of_error hc]
      exact List.not_mem_nil
    | ok c =>
      rw [(engine_run_of_compile hc h).1]
      exact reset_not_mem_map _ _

end BuiltIn

/-! ## Steps without a reset -/

section

variable {steps : List Step} (hsteps : .reset ∉ steps)

include hsteps

theorem count_run_of_no_reset {σ : Type} [Sink σ] [LawfulSink σ] (s : σ) :
    Sink.count (Sink.run s steps) =
      Sink.count s + Sink.count (Sink.run (Sink.empty : σ) steps) := by
  rw [count_run, leftOf_of_not_mem hsteps, count_run_empty]

theorem Collector.events_run_of_no_reset (s : Collector) :
    (Sink.run s steps).events = s.events ++ (Sink.run (Sink.empty : Collector) steps).events := by
  rw [Collector.run_eq, Collector.run_eq Sink.empty, leftOf_of_not_mem hsteps, leftOf_empty]
  exact congrArg (s.events ++ ·) (Array.empty_append ..).symm

theorem numbers_run_of_no_reset {ω σ : Type} [Sink ω] [Sink σ] [LawfulSink σ] [WordSink ω σ]
    (s : ω) (hwords : Sink.count (WordSink.numbers s) +
      Sink.count (Sink.run (Sink.empty : σ) steps) < UInt64.size) :
    WordSink.numbers (Sink.run s steps) = Sink.run (WordSink.numbers s) steps := by
  -- without a reset the count only grows, so it fits all the time if it does so at the end
  refine WordSink.numbers_run s fun xs hxs => ?_
  obtain ⟨ys, rfl⟩ := hxs
  have hfront : .reset ∉ xs := fun hmem => hsteps (List.mem_append_left _ hmem)
  rw [count_run_of_no_reset hfront]
  rw [count_run_empty, sinceReset_eq_self hsteps, total_append] at hwords
  rw [count_run_empty, sinceReset_eq_self hfront]
  omega

end

/-! ## Jobs -/

namespace Job

variable (j : Job)

theorem sinkAfter_scan {σ : Type} [Sink σ] (s : σ) : j.scan.sinkAfter s = j.run.into s :=
  (j.strategy.sends_scan j.haystack j.pattern).sinkAfter s

theorem outcome_scan {σ : Type} [Sink σ] (s : σ) : j.scan.outcome s = j.run.outcome :=
  (j.strategy.sends_scan j.haystack j.pattern).outcome s

theorem reset_not_mem_steps : .reset ∉ j.run.steps :=
  j.strategy.reset_not_mem_steps j.haystack j.pattern

/-- What a strategy does to a sink that already holds something. -/
structure Extends (j : Job) : Prop where
  /-- The program tells the sink the steps of the run of the strategy. -/
  sinkAfter_eq : ∀ {σ : Type} [Sink σ] (s : σ), j.scan.sinkAfter s = j.run.into s
  /-- It ends in the same way whatever the sink holds, and whichever sink it is. -/
  outcome_eq : ∀ {σ τ : Type} [Sink σ] [Sink τ] (s : σ) (t : τ), j.scan.outcome s = j.scan.outcome t
  /-- The count is raised by what an empty sink would have counted. -/
  count_eq : ∀ {σ : Type} [Sink σ] [LawfulSink σ] (s : σ),
    Sink.count (j.scan.sinkAfter s) =
      Sink.count s + Sink.count (j.scan.sinkAfter (Sink.empty : σ))
  /-- The matches that an empty collector would hold come behind those that were there. -/
  events_eq : ∀ s : Collector,
    (j.scan.sinkAfter s).events = s.events ++ (j.scan.sinkAfter (Sink.empty : Collector)).events
  /-- With words it is the same, if the total fits into one. -/
  numbers_eq : ∀ {ω σ : Type} [Sink ω] [Sink σ] [LawfulSink σ] [WordSink ω σ] (s : ω),
    Sink.count (WordSink.numbers s) + Sink.count (j.scan.sinkAfter (Sink.empty : σ)) <
        UInt64.size →
      WordSink.numbers (j.scan.sinkAfter s) = j.scan.sinkAfter (WordSink.numbers s)

theorem extends_scan : j.Extends where
  sinkAfter_eq := j.sinkAfter_scan
  outcome_eq s t := by rw [outcome_scan, outcome_scan]
  count_eq s := by
    rw [sinkAfter_scan, sinkAfter_scan]
    exact count_run_of_no_reset j.reset_not_mem_steps s
  events_eq s := by
    rw [sinkAfter_scan, sinkAfter_scan]
    exact Collector.events_run_of_no_reset j.reset_not_mem_steps s
  numbers_eq s hwords := by
    rw [sinkAfter_scan] at hwords
    rw [sinkAfter_scan, sinkAfter_scan]
    exact numbers_run_of_no_reset j.reset_not_mem_steps s hwords

end Job

section

variable {σ : Type} [Sink σ]

theorem sinkAfterAll_cons (j : Job) (jobs : List Job) (s : σ) :
    sinkAfterAll (j :: jobs) s = sinkAfterAll jobs (j.scan.sinkAfter s) := rfl

theorem count_sinkAfterAll [LawfulSink σ] (jobs : List Job) (s : σ) :
    Sink.count (sinkAfterAll jobs s) =
      Sink.count s +
        (jobs.map fun j => Sink.count (j.scan.sinkAfter (Sink.empty : σ))).sum := by
  induction jobs generalizing s with
  | nil => rfl
  | cons j jobs ih =>
    rw [sinkAfterAll_cons, ih, j.extends_scan.count_eq, List.map_cons, List.sum_cons, Nat.add_assoc]

end

theorem events_sinkAfterAll (jobs : List Job) (s : Collector) :
    (sinkAfterAll jobs s).events.toList =
      s.events.toList ++
        jobs.flatMap fun j => (j.scan.sinkAfter (Sink.empty : Collector)).events.toList := by
  induction jobs generalizing s with
  | nil => exact (List.append_nil _).symm
  | cons j jobs ih =>
    rw [sinkAfterAll_cons, ih, j.extends_scan.events_eq, Array.toList_append, List.append_assoc,
      List.flatMap_cons]

theorem numbers_sinkAfterAll {ω σ : Type} [Sink ω] [Sink σ] [LawfulSink σ] [WordSink ω σ]
    (jobs : List Job) (s : ω)
    (hwords : Sink.count (WordSink.numbers s) +
      (jobs.map fun j => Sink.count (j.scan.sinkAfter (Sink.empty : σ))).sum < UInt64.size) :
    WordSink.numbers (sinkAfterAll jobs s) = sinkAfterAll jobs (WordSink.numbers s) := by
  induction jobs generalizing s with
  | nil => rfl
  | cons j jobs ih =>
    rw [List.map_cons, List.sum_cons] at hwords
    have hfirst : WordSink.numbers (j.scan.sinkAfter s) = j.scan.sinkAfter (WordSink.numbers s) :=
      j.extends_scan.numbers_eq s (by omega)
    rw [sinkAfterAll_cons, sinkAfterAll_cons, ← hfirst]
    refine ih _ ?_
    rw [hfirst, j.extends_scan.count_eq]
    omega

/-- The strategies of the standard registry are those of this library. -/
theorem exists_builtIn {budget : Budget} {e : Bench.Entry}
    (he : e ∈ (Bench.Registry.standard budget).entries) :
    ∃ b : BuiltIn, b.strategy = e.strategy := by
  have hall : (Bench.Registry.standard budget).entries.map (·.strategy) =
      [.firstByte positionsOf, .engine budget, .bruteForce, .inLanes, .nothing].map
        BuiltIn.strategy := rfl
  have hmem := List.mem_map_of_mem (f := fun e : Bench.Entry => e.strategy) he
  rw [hall] at hmem
  obtain ⟨b, -, hb⟩ := List.mem_map.1 hmem
  exact ⟨b, hb⟩

/-- **Sinks that already hold something.** Every strategy of the standard registry, on every
haystack and for every pattern, adds to a sink what it would have left in an empty one, behind what
is there, and ends in the same way whatever that is, whether it succeeds or fails. Strategies that
use one sink one after the other leave in it the matches of each, in order, and the sum of their
counts. -/
theorem scans_extend :
    (∀ budget, ∀ e ∈ (Bench.Registry.standard budget).entries,
      ∃ b : BuiltIn, b.strategy = e.strategy) ∧
      (∀ j : Job, j.Extends) ∧
      ∀ jobs : List Job,
        (∀ {σ : Type} [Sink σ] [LawfulSink σ] (s : σ),
          Sink.count (sinkAfterAll jobs s) =
            Sink.count s +
              (jobs.map fun j => Sink.count (j.scan.sinkAfter (Sink.empty : σ))).sum) ∧
        (∀ s : Collector,
          (sinkAfterAll jobs s).events.toList =
            s.events.toList ++
              jobs.flatMap fun j => (j.scan.sinkAfter (Sink.empty : Collector)).events.toList) ∧
        ∀ {ω σ : Type} [Sink ω] [Sink σ] [LawfulSink σ] [WordSink ω σ] (s : ω),
          Sink.count (WordSink.numbers s) +
              (jobs.map fun j => Sink.count (j.scan.sinkAfter (Sink.empty : σ))).sum <
              UInt64.size →
            WordSink.numbers (sinkAfterAll jobs s) = sinkAfterAll jobs (WordSink.numbers s) := by
  refine ⟨fun _ _ he => exists_builtIn he, fun j => j.extends_scan, fun jobs => ⟨?_, ?_, ?_⟩⟩
  · exact fun s => count_sinkAfterAll jobs s
  · exact fun s => events_sinkAfterAll jobs s
  · exact fun s hwords => numbers_sinkAfterAll jobs s hwords

/-- Two strategies that find the overlapping occurrences of `aba` in `ababa`, and one that finds the
byte `a`. They use a collector whose total comes close to the greatest word. -/
theorem scans_extend_close_to_overflow :
    let h : Buffer := #[0x61, 0x62, 0x61, 0x62, 0x61]
    let p : Pattern := ⟨[0x61, 0x62, 0x61], by decide⟩
    let jobs : List Job := [⟨.inLanes, h, p⟩, ⟨.bruteForce, h, p⟩, ⟨.firstByte positionsOf, h, p⟩]
    let s : WordCollector := ⟨#[⟨9, 0⟩], 18446744073709551606⟩
    WordSink.numbers (sinkAfterAll jobs s) =
      (⟨#[⟨9, 0⟩, ⟨0, 0⟩, ⟨2, 0⟩, ⟨0, 0⟩, ⟨2, 0⟩, ⟨4, 0⟩], 18446744073709551608⟩ : Collector) := by
  intro h p jobs s
  have hnumbers := (scans_extend.2.2 jobs).2.2 s (by decide +kernel)
  rw [hnumbers]
  decide +kernel

end ByteSearch.Search
