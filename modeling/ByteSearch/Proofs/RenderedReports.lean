import ByteSearch.Bench.Render
import ByteSearch.Proofs.JsonTexts
import ByteSearch.Proofs.Reports

/-!
# Reading JSON reports

A JSON report is one object, and what a reader of JSON finds in it is the report: its lengths and
its results in order, of each the name, the status with the message of a failure, the hits and the
claim to be exact, and the verdict on them. Names and messages may hold any characters. Only the
measured times are not asked for. Without its verdict it is the value of the compact form.

Main statement: `render_json`.
-/

namespace ByteSearch.Json.Value

/-! ## Parts of a value -/

/-- The value of the first member of a key. -/
def member? (v : Value) (key : String) : Option Value :=
  match v with
  | .object members => (members.find? (·.1 == key)).map (·.2)
  | _ => none

def string? : Value → Option String
  | .string s => some s
  | _ => none

def bool? : Value → Option Bool
  | .bool b => some b
  | _ => none

def nat? : Value → Option Nat
  | .number x => if x.den = 1 ∧ 0 ≤ x.num then some x.num.toNat else none
  | _ => none

def items? : Value → Option (List Value)
  | .array items => some items
  | _ => none

/-- An object without its members of a key. -/
def without (v : Value) (key : String) : Value :=
  match v with
  | .object members => .object (members.filter (·.1 != key))
  | v => v

/-- No object has a key twice, at any depth. -/
inductive KeysDistinct : Value → Prop
  | null : KeysDistinct .null
  | bool (b : Bool) : KeysDistinct (.bool b)
  | number (x : Rat) : KeysDistinct (.number x)
  | string (s : String) : KeysDistinct (.string s)
  | array {items : List Value} (hitems : ∀ v ∈ items, KeysDistinct v) : KeysDistinct (.array items)
  | object {members : List (String × Value)} (hkeys : (members.map (·.1)).Nodup)
      (hvalues : ∀ m ∈ members, KeysDistinct m.2) : KeysDistinct (.object members)

@[simp] theorem nat?_number_natCast (n : Nat) : nat? (.number n) = some n := by
  simp [nat?]

end ByteSearch.Json.Value

namespace ByteSearch.Bench

open ByteSearch.Json (Value Reads IsTextOf)

/-! ## Reports in a value -/

def Status.ofValue? (v : Value) : Option Status := do
  let state ← (← v.member? "state").string?
  if state = "done" then return .done
  else if state = "failed" then return .failed (← (← v.member? "message").string?)
  else none

/-- Reads a result but for its measured time. -/
def Result.ofValue? (v : Value) : Option Result := do
  let name ← (← v.member? "name").string?
  let status ← Status.ofValue? (← v.member? "status")
  let hits ← (← v.member? "hit_count").nat?
  let exact ← (← v.member? "exact").bool?
  return ⟨name, status, hits, ⟨0⟩, exact⟩

/-- Reads a name and its hits. -/
def countOfValue? (v : Value) : Option (String × Nat) := do
  match ← v.items? with
  | [name, hits] => return (← name.string?, ← hits.nat?)
  | _ => none

def Verdict.ofValue? (v : Value) : Option Verdict := do
  let verdict ← (← v.member? "verdict").string?
  if verdict = "agreed" then
    return .agreed (← (← v.member? "hit_count").nat?) (← (← v.member? "strategies").nat?)
  else if verdict = "divergent" then
    return .divergent (← (← (← v.member? "counts").items?).mapM countOfValue?)
  else if verdict = "unchecked" then return .unchecked
  else none

/-- Reads a report but for the measured times. -/
def Report.ofValue? (v : Value) : Option Report := do
  let haystackLength ← (← v.member? "haystack_len").nat?
  let patternLength ← (← v.member? "pattern_len").nat?
  let results ← (← (← v.member? "results").items?).mapM Result.ofValue?
  return ⟨haystackLength, patternLength, results⟩

theorem Status.ofValue?_toJson (s : Status) : Status.ofValue? s.toJson.value = some s := by
  cases s with
  | done => rfl
  | failed message => rfl

theorem Result.ofValue?_toJson (x : Result) :
    Result.ofValue? x.toJson.value = some { x with elapsed := ⟨0⟩ } := by
  have hstatus := Status.ofValue?_toJson x.status
  simp [Result.ofValue?, Result.toJson, Json.value, Json.memberValues, Value.member?,
    Value.string?, Value.bool?, hstatus]

theorem mapM_value_eq_some {α β : Type} {write : α → Json} {read : Value → Option β} {f : α → β}
    (h : ∀ x, read (write x).value = some (f x)) (l : List α) :
    (Json.values (l.map write)).mapM read = some (l.map f) := by
  rw [Json.values_eq_map, List.map_map, List.mapM_map]
  have hread : read ∘ Json.value ∘ write = fun x => pure (f x) := funext h
  rw [hread, List.mapM_pure]
  rfl

theorem countOfValue?_array (c : String × Nat) :
    countOfValue? (Json.array [.string c.1, .nat c.2]).value = some c := by
  simp [countOfValue?, Json.value, Json.values, Value.items?, Value.string?]

theorem Verdict.ofValue?_toJson (v : Verdict) : Verdict.ofValue? v.toJson.value = some v := by
  cases v with
  | agreed hits strategies =>
    simp [Verdict.ofValue?, Verdict.toJson, Json.value, Json.memberValues, Value.member?,
      Value.string?]
  | divergent counts =>
    have hcounts := mapM_value_eq_some (f := id) countOfValue?_array counts
    rw [List.map_id] at hcounts
    simp [Verdict.ofValue?, Verdict.toJson, Json.value, Json.memberValues, Value.member?,
      Value.string?, Value.items?, hcounts]
  | unchecked => rfl

/-- Members behind those of a report do not disturb its reading. -/
theorem Report.ofValue?_members (r : Report) (others : List (String × Json)) :
    Report.ofValue? (Json.object (r.members ++ others)).value = some r.untimed := by
  have hresults := mapM_value_eq_some Result.ofValue?_toJson r.results
  simp [Report.ofValue?, Report.members, Json.value, Json.memberValues, Value.member?,
    Value.items?, hresults, Report.untimed]

/-! ## Keys -/

theorem keysDistinct_object {members : List (String × Json)} (hkeys : (members.map (·.1)).Nodup)
    (hvalues : ∀ m ∈ members, m.2.value.KeysDistinct) :
    (Json.object members).value.KeysDistinct := by
  rw [Json.value, Json.memberValues_eq_map]
  refine .object ?_ ?_
  · rwa [List.map_map]
  · rw [List.forall_mem_map]
    exact hvalues

theorem keysDistinct_array {items : List Json} (hitems : ∀ v ∈ items, v.value.KeysDistinct) :
    (Json.array items).value.KeysDistinct := by
  rw [Json.value, Json.values_eq_map]
  refine .array ?_
  rw [List.forall_mem_map]
  exact hitems

theorem Status.keysDistinct (s : Status) : s.toJson.value.KeysDistinct := by
  cases s with
  | done =>
    refine keysDistinct_object (by simp) ?_
    rw [List.forall_mem_singleton]
    exact .string _
  | failed message =>
    refine keysDistinct_object (by simp) ?_
    simp only [List.forall_mem_cons]
    exact ⟨.string _, .string _, List.forall_mem_nil _⟩

theorem Result.keysDistinct (x : Result) : x.toJson.value.KeysDistinct := by
  refine keysDistinct_object (by simp) ?_
  simp only [List.forall_mem_cons]
  exact ⟨.string _, x.status.keysDistinct, .number _, .number _, .bool _, List.forall_mem_nil _⟩

theorem Verdict.keysDistinct (v : Verdict) : v.toJson.value.KeysDistinct := by
  cases v with
  | agreed hits strategies =>
    refine keysDistinct_object (by simp) ?_
    simp only [List.forall_mem_cons]
    exact ⟨.string _, .number _, .number _, List.forall_mem_nil _⟩
  | divergent counts =>
    have hcounts : (Json.array (counts.map fun c =>
        Json.array [.string c.1, .nat c.2])).value.KeysDistinct := by
      refine keysDistinct_array ?_
      rw [List.forall_mem_map]
      intro c _
      refine keysDistinct_array ?_
      simp only [List.forall_mem_cons]
      exact ⟨.string _, .number _, List.forall_mem_nil _⟩
    refine keysDistinct_object (by simp) ?_
    simp only [List.forall_mem_cons]
    exact ⟨.string _, hcounts, List.forall_mem_nil _⟩
  | unchecked =>
    refine keysDistinct_object (by simp) ?_
    rw [List.forall_mem_singleton]
    exact .string _

namespace Report

theorem keysDistinct_toJsonWithVerdict (r : Report) :
    r.toJsonWithVerdict.value.KeysDistinct := by
  have hresults : (Json.array (r.results.map (·.toJson))).value.KeysDistinct := by
    refine keysDistinct_array ?_
    rw [List.forall_mem_map]
    exact fun x _ => x.keysDistinct
  refine keysDistinct_object (by simp [members]) ?_
  simp only [members, List.cons_append, List.nil_append, List.forall_mem_cons]
  exact ⟨.number _, .number _, hresults, r.verdict.keysDistinct, List.forall_mem_nil _⟩

/-! ## What is rendered -/

theorem ofValue?_toJsonWithVerdict (r : Report) :
    Report.ofValue? r.toJsonWithVerdict.value = some r.untimed :=
  ofValue?_members r _

theorem member?_consistency (r : Report) :
    r.toJsonWithVerdict.value.member? "consistency" = some r.verdict.toJson.value := by
  simp [toJsonWithVerdict, members, Json.value, Json.memberValues, Value.member?]

theorem without_consistency (r : Report) :
    r.toJsonWithVerdict.value.without "consistency" = r.toJson.value := by
  simp [toJsonWithVerdict, toJson, members, Json.value, Json.memberValues, Value.without]

theorem isTextOf_render_iff (r : Report) (v : Value) :
    IsTextOf (r.render true) v ↔ v = r.toJsonWithVerdict.value :=
  Json.isTextOf_text_append_iff Json.Layout.readable_indented _ rfl v

/-- **JSON reports can be read.** A JSON report is one object and the end of its line. It says one
thing only. No key occurs twice at any depth, and what is read from it is the report but for the
measured times, and its verdict. Without the verdict it says what the compact form of the report
says. Two reports whose JSON says the same therefore differ in their measured times at most. -/
theorem render_json (r : Report) :
    ∃ body members,
      r.render true = body ++ "\n" ∧ Reads body.toList (.object members) [] ∧
        (Value.object members).KeysDistinct ∧
        (∀ v, IsTextOf (r.render true) v ↔ v = .object members) ∧
        Report.ofValue? (.object members) = some r.untimed ∧
        ((Value.object members).member? "consistency").bind Verdict.ofValue? = some r.verdict ∧
        (∀ v, IsTextOf (r.toJson.text .compact) v ↔
          v = (Value.object members).without "consistency") ∧
        ∀ (r' : Report) v, IsTextOf (r.render true) v → IsTextOf (r'.render true) v →
          r'.untimed = r.untimed := by
  obtain ⟨members, hmembers⟩ : ∃ members, r.toJsonWithVerdict.value = .object members := ⟨_, rfl⟩
  have hreads := Json.reads_text_append Json.Layout.readable_indented r.toJsonWithVerdict
    (s := "") rfl
  rw [String.append_empty, hmembers] at hreads
  refine ⟨r.toJsonWithVerdict.text .indented, members, rfl, hreads, ?_⟩
  rw [← hmembers]
  refine ⟨r.keysDistinct_toJsonWithVerdict, r.isTextOf_render_iff, r.ofValue?_toJsonWithVerdict,
    ?_, ?_, ?_⟩
  · rw [member?_consistency, Option.bind_some, Verdict.ofValue?_toJson]
  · intro v
    rw [without_consistency, ← String.append_empty (s := r.toJson.text .compact)]
    exact Json.isTextOf_text_append_iff Json.Layout.readable_compact _ rfl v
  · intro r' v hr hr'
    rw [isTextOf_render_iff] at hr hr'
    have hread : some r'.untimed = some r.untimed := by
      rw [← ofValue?_toJsonWithVerdict, ← ofValue?_toJsonWithVerdict, ← hr, ← hr']
    exact Option.some.inj hread

/-- Quotes, backslashes and control characters in the names, a greatest count, and two measured
times that are the same number of milliseconds. -/
theorem render_json_same_milliseconds :
    let counted (n : Nat) : Result := ⟨"\"a\\\"\n\x01é", .done, 18446744073709551615, ⟨n⟩, true⟩
    let failed : Result := ⟨"\",", .failed "\x00/\x7f\u2028", 2, ⟨0⟩, true⟩
    let r (n : Nat) : Report := ⟨18446744073709551615, 3, [counted n, failed]⟩
    ∃ v, IsTextOf ((r 1152921504606846976).render true) v ∧
      IsTextOf ((r 1152921504606846977).render true) v ∧
      (r 1152921504606846977).untimed = (r 1152921504606846976).untimed ∧
      Report.ofValue? v = some ⟨18446744073709551615, 3, [counted 0, failed]⟩ ∧
      (v.member? "consistency").bind Verdict.ofValue? = some (.agreed 18446744073709551615 1) := by
  intro counted failed r
  have hmilliseconds : (Elapsed.mk 1152921504606846977).milliseconds =
      (Elapsed.mk 1152921504606846976).milliseconds := by decide +kernel
  have hcounted : (counted 1152921504606846977).toJson = (counted 1152921504606846976).toJson := by
    simp only [Result.toJson, counted, hmilliseconds]
  have hverdict : (r 1152921504606846977).verdict = (r 1152921504606846976).verdict := rfl
  have hjson : (r 1152921504606846977).toJsonWithVerdict =
      (r 1152921504606846976).toJsonWithVerdict := by
    simp only [toJsonWithVerdict, members, hverdict, r, List.map_cons, hcounted]
  have hrender : (r 1152921504606846977).render true = (r 1152921504606846976).render true :=
    congrArg (fun j => Json.text .indented j ++ "\n") hjson
  obtain ⟨body, members, -, -, -, htext, hread, hagreed, -, hsame⟩ :=
    render_json (r 1152921504606846976)
  have hr := (htext _).2 rfl
  have hr' : IsTextOf ((r 1152921504606846977).render true) (.object members) := by
    rw [hrender]
    exact hr
  exact ⟨.object members, hr, hr', hsame _ _ hr hr', hread, hagreed⟩

end Report

end ByteSearch.Bench
