import ApigateBenchmark.LoadTests.CounterDeltas
import ApigateBenchmark.LoadTests.Entries

/-!
# What one container's failure does to the report

The script goes through the containers one after the other and writes its report at the end, so whatever
escapes from one of them takes the whole report along. A failure to reach cAdvisor is an `OSError` and
text that is no JSON a `JSONDecodeError` as a rule, and both are turned into a warning. A reply that is cut
short or is no UTF-8 raises something else, and so may a text that is no JSON where `json.loads` reads it
all the same: it takes `NaN` for a value, of which no samples can be made.
-/

namespace ApigateBenchmark.LoadTests

open Coroutine Python

variable (python : Interpreter)

/-! ### Effects and results -/

/-- The reports a run has written. -/
def written (log : List Effect) : List (String × Report) :=
  log.filterMap fun
    | .write path report => some (path, report)
    | _ => none

@[simp] theorem written_nil : written [] = [] := rfl

@[simp] theorem written_append (l m : List Effect) : written (l ++ m) = written l ++ written m := by
  simp only [written, List.filterMap_append]

def statusOf {α : Type} : Except Raised α → Status Empty Raised α
  | .ok value => .returned value
  | .error raised => .raised raised

/-- The script comes to the result without writing a report. -/
structure Computes {α : Type} (script : Script α) (result : Except Raised α) : Prop where
  written : written script.log = []
  status : script.status = statusOf result

section

variable {α β : Type}

theorem computes_pure (value : α) : Computes (pure value) (.ok value) := ⟨rfl, rfl⟩

theorem computes_raise (raised : Raised) : Computes (raise raised : Script α) (.error raised) := ⟨rfl, rfl⟩

theorem computes_orRaise (result : Except Exc α) : Computes (orRaise result) (result.mapError .other) := by
  cases result with
  | ok value => exact computes_pure value
  | error exc => exact computes_raise _

theorem Computes.prepend {script : Script α} {result : Except Raised α} (h : Computes script result)
    {log : List Effect} (hlog : LoadTests.written log = []) : Computes (script.prepend log) result where
  written := by rw [prepend_log, written_append, hlog, h.written, List.append_nil]
  status := h.status

/-- A script that has come to a value goes on from there. -/
theorem Computes.bind_ok {script : Script α} {value : α} (h : Computes script (.ok value))
    (next : α → Script β) : script >>= next = (next value).prepend script.log := by
  have hstatus : script.status = .returned value := h.status
  rw [bind_def, andThen, hstatus]

theorem Computes.bind_error {script : Script α} {raised : Raised} (h : Computes script (.error raised))
    (next : α → Script β) : Computes (script >>= next) (.error raised) := by
  have hstatus : script.status = .raised raised := h.status
  rw [bind_def, andThen, hstatus]
  exact ⟨h.written, rfl⟩

theorem Computes.bind {script : Script α} {result : Except Raised α} (h : Computes script result)
    {next : α → Script β} {after : α → Except Raised β} (hnext : ∀ value, Computes (next value) (after value)) :
    Computes (script >>= next) (result >>= after) := by
  cases result with
  | ok value =>
      rw [h.bind_ok]
      exact (hnext value).prepend h.written
  | error raised => exact h.bind_error next

end

/-! ### One container -/

/-- What `_collect_one` comes to. -/
def collected (args : Args) (answer : Answer) : Except Raised (List Sample) :=
  match resolveId answer.inspect with
  | .error exc => .error (.other exc)
  | .ok none => .ok []
  | .ok (some cid) =>
      match fetchRaw python (statsUrl args.cadvisor cid args.count) answer.http with
      | .error raised => if raised.isRuntimeError then .ok [] else .error raised
      | .ok raw => do
          let samples ← (toSamples python raw).mapError .other
          return samples.filter (inWindow args)

theorem collectOne_computes (args : Args) (name : String) (answer : Answer) :
    Computes (collectOne python args name answer) (collected python args answer) := by
  rw [collectOne, perform_bind, collected]
  refine Computes.prepend ?_ rfl
  cases resolveId answer.inspect with
  | error exc => exact (computes_orRaise (.error exc)).bind_error _
  | ok id =>
      rw [(computes_orRaise (.ok id)).bind_ok]
      refine Computes.prepend ?_ rfl
      cases id with
      | none => exact (computes_pure []).prepend rfl
      | some cid =>
          refine Computes.prepend ?_ rfl
          dsimp only
          cases fetchRaw python (statsUrl args.cadvisor cid args.count) answer.http with
          | error raised =>
              dsimp only
              cases raised.isRuntimeError with
              | true => exact Computes.prepend (computes_pure []) rfl
              | false => exact computes_raise _
          | ok raw =>
              exact (computes_orRaise (toSamples python raw)).bind fun samples =>
                computes_pure (samples.filter (inWindow args))

/-! ### All containers -/

def collectedAll (args : Args) (world : Nat → Answer) :
    List String → Nat → Dict String (List Sample) → Except Raised (Dict String (List Sample))
  | [], _, perContainer => .ok perContainer
  | name :: rest, position, perContainer => do
      let samples ← collected python args (world position)
      collectedAll args world rest (position + 1) (perContainer.set name samples)

theorem collectAll_computes (args : Args) (world : Nat → Answer) (names : List String) (position : Nat)
    (perContainer : Dict String (List Sample)) :
    Computes (collectAll python args world names position perContainer)
      (collectedAll python args world names position perContainer) := by
  induction names generalizing position perContainer with
  | nil => exact computes_pure perContainer
  | cons name rest ih =>
      rw [collectAll, collectedAll]
      exact (collectOne_computes python args name (world position)).bind fun samples =>
        ih (position + 1) (perContainer.set name samples)

section

variable {python} {args : Args} {world : Nat → Answer} {names : List String} {position : Nat}
  {perContainer dict : Dict String (List Sample)}

/-- The comprehension goes through exactly if no container raises. -/
theorem collectedAll_isOk_iff :
    (∃ dict, collectedAll python args world names position perContainer = .ok dict) ↔
      ∀ i < names.length, ∃ samples, collected python args (world (position + i)) = .ok samples := by
  induction names generalizing position perContainer with
  | nil => exact iff_of_true ⟨perContainer, rfl⟩ fun i hi => absurd hi (Nat.not_lt_zero i)
  | cons name rest ih =>
      simp only [collectedAll, bind_eq_ok]
      constructor
      · rintro ⟨dict, samples, hsamples, hrest⟩ i hi
        cases i with
        | zero => exact ⟨samples, hsamples⟩
        | succ i =>
            have hlater := ih.mp ⟨dict, hrest⟩ i (Nat.lt_of_succ_lt_succ hi)
            rwa [Nat.add_assoc, Nat.add_comm 1] at hlater
      · intro h
        obtain ⟨samples, hsamples⟩ := h 0 (Nat.succ_pos _)
        have hlater : ∀ i < rest.length, ∃ samples,
            collected python args (world (position + 1 + i)) = .ok samples := by
          intro i hi
          rw [Nat.add_assoc, Nat.add_comm 1]
          exact h (i + 1) (Nat.succ_lt_succ hi)
        obtain ⟨dict, hdict⟩ := ih.mpr hlater
        exact ⟨dict, samples, hsamples, hdict⟩

theorem mem_keys_collectedAll (h : collectedAll python args world names position perContainer = .ok dict)
    (name : String) : name ∈ dict.keys ↔ name ∈ names ∨ name ∈ perContainer.keys := by
  induction names generalizing position perContainer with
  | nil =>
      cases h
      exact (or_iff_right List.not_mem_nil).symm
  | cons first rest ih =>
      obtain ⟨samples, -, hrest⟩ := bind_eq_ok.mp h
      rw [ih hrest, Dict.mem_keys_set, List.mem_cons, ← or_assoc, or_comm (a := name ∈ rest)]

theorem get?_collectedAll_of_not_mem
    (h : collectedAll python args world names position perContainer = .ok dict) {name : String}
    (hname : name ∉ names) : dict.get? name = perContainer.get? name := by
  induction names generalizing position perContainer with
  | nil =>
      cases h
      rfl
  | cons first rest ih =>
      obtain ⟨samples, -, hrest⟩ := bind_eq_ok.mp h
      rw [List.mem_cons, not_or] at hname
      rw [ih hrest hname.2, Dict.get?_set, if_neg hname.1]

/-- Of several answers under one name the last is kept. -/
theorem get?_collectedAll_last
    (h : collectedAll python args world names position perContainer = .ok dict) {i : Nat} {name : String}
    (hname : names[i]? = some name) (hlast : ∀ j, i < j → names[j]? ≠ some name) {samples : List Sample}
    (hsamples : collected python args (world (position + i)) = .ok samples) :
    dict.get? name = some samples := by
  induction names generalizing position perContainer i with
  | nil => cases hname
  | cons first rest ih =>
      obtain ⟨found, hfound, hrest⟩ := bind_eq_ok.mp h
      cases i with
      | zero =>
          obtain rfl := Option.some.inj hname
          have habsent : first ∉ rest := by
            intro hmem
            obtain ⟨j, hj⟩ := List.mem_iff_getElem?.mp hmem
            exact hlast (j + 1) (Nat.succ_pos j) hj
          rw [get?_collectedAll_of_not_mem hrest habsent, Dict.get?_set, if_pos rfl]
          exact congrArg some (Except.ok.inj (hfound.symm.trans hsamples))
      | succ i =>
          refine ih hrest hname (fun j hj => hlast (j + 1) (Nat.succ_lt_succ hj)) ?_
          rwa [Nat.add_assoc, Nat.add_comm 1]

end

/-! ### The report -/

/-- Aggregation raises nothing, and each container gets the figures of its own samples. -/
theorem aggregateAll_spec (args : Args) {items : List (String × List Sample)}
    (hnodup : (items.map Prod.fst).Nodup) (containers : Dict String Aggregate) :
    ∃ all, aggregateAll args items containers = .ok all ∧
      (∀ name, name ∈ all.keys ↔ name ∈ items.map Prod.fst ∨ name ∈ containers.keys) ∧
      (∀ name, name ∉ items.map Prod.fst → all.get? name = containers.get? name) ∧
      ∀ item ∈ items, ∃ entry, all.get? item.1 = some entry ∧
        aggregate (keptSamples args item.2) = .ok entry := by
  induction items generalizing containers with
  | nil =>
      exact ⟨containers, rfl, fun name => (or_iff_right List.not_mem_nil).symm, fun _ _ => rfl,
        fun item hitem => absurd hitem List.not_mem_nil⟩
  | cons first rest ih =>
      obtain ⟨name, samples⟩ := first
      rw [List.map_cons, List.nodup_cons] at hnodup
      obtain ⟨entry, hentry, -⟩ := aggregate_spec (keptSamples args samples)
      obtain ⟨all, hall, hkeys, hothers, hitems⟩ := ih hnodup.2 (containers.set name entry)
      refine ⟨all, ?_, ?_, ?_, ?_⟩
      · rw [aggregateAll, hentry, ok_bind, hall]
      · intro other
        rw [hkeys, Dict.mem_keys_set, List.map_cons, List.mem_cons, ← or_assoc,
          or_comm (a := other ∈ rest.map Prod.fst)]
      · intro other hother
        rw [List.map_cons, List.mem_cons, not_or] at hother
        rw [hothers other hother.2, Dict.get?_set, if_neg hother.1]
      · intro item hitem
        obtain rfl | hlater := List.mem_cons.mp hitem
        · exact ⟨entry, by rw [hothers name hnodup.1, Dict.get?_set, if_pos rfl], hentry⟩
        · exact hitems item hlater

section

variable {python} {args : Args} {world : Nat → Answer} {perContainer : Dict String (List Sample)}

theorem main_written (h : collectedAll python args world args.containers 0 Dict.empty = .ok perContainer) :
    ∃ report, (main python args world).status = .returned 0 ∧
      written (main python args world).log = [(args.json, report)] ∧
      aggregateAll args perContainer.items Dict.empty = .ok report.containers := by
  have hcomputes := collectAll_computes python args world args.containers 0 Dict.empty
  rw [h] at hcomputes
  obtain ⟨all, hall, -⟩ := aggregateAll_spec args perContainer.nodup Dict.empty
  refine ⟨{
    windowS := round3 (max (args.endTs - args.start) 0)
    warmupS := args.warmup
    sampleCount := (all.items.map fun item => item.2.samples).sum
    containers := all
  }, ?_⟩
  rw [main, hcomputes.bind_ok, hall]
  dsimp only [orRaise]
  rw [pure_bind, perform_bind]
  cases args.quiet with
  | true =>
      refine ⟨rfl, ?_, rfl⟩
      rw [prepend_log, written_append, hcomputes.written]
      rfl
  | false =>
      refine ⟨rfl, ?_, rfl⟩
      rw [prepend_log, written_append, hcomputes.written]
      rfl

/-- Nothing is written once an exception has escaped from a container. -/
theorem main_raised {raised : Raised}
    (h : collectedAll python args world args.containers 0 Dict.empty = .error raised) :
    Computes (main python args world) (.error raised) := by
  have hcomputes := collectAll_computes python args world args.containers 0 Dict.empty
  rw [h] at hcomputes
  exact hcomputes.bind_error _

theorem main_returned (h : (main python args world).status = .returned 0) :
    ∃ perContainer, collectedAll python args world args.containers 0 Dict.empty = .ok perContainer := by
  cases hresult : collectedAll python args world args.containers 0 Dict.empty with
  | ok perContainer => exact ⟨perContainer, rfl⟩
  | error raised => cases h.symm.trans (main_raised hresult).status

end

/-! ### What may happen to a container -/

/-- The reply is cut short of its Content-Length. -/
def Http.CutShort (http : Http) : Prop :=
  ∃ contentLength received, http = .reply (some contentLength) received ∧ received.length < contentLength

def Http.NotUtf8 (http : Http) : Prop := ∃ body, http.read = .ok body ∧ decode body = .error .unicodeDecodeError

def Http.NotJson (http : Http) : Prop :=
  ∃ body text, http.read = .ok body ∧ decode body = .ok text ∧ Json.parse (Bytes.utf8 text) = none

/-- `json.loads` meets an integer of too many digits. -/
def Http.TooLong (http : Http) : Prop := loadReply python http = .error .valueError

/-- `json.loads` takes the reply, but `_to_samples` does not take what it reads. -/
def Http.NotSamples (http : Http) : Prop :=
  ∃ data exc, loadReply python http = .ok data ∧ toSamples python (rawSamples data) = .error exc

/-- A JSON text within the limits of `json.loads`, with entries as cAdvisor writes them in any of the
shapes. -/
structure Http.WellFormed (http : Http) (raw : List Value) : Prop where
  json : ∃ body text tree, http.read = .ok body ∧ decode body = .ok text ∧
    Json.parse (Bytes.utf8 text) = some tree ∧ rawSamples (ofJson tree) = .list raw
  loads : ∃ data, loadReply python http = .ok data
  entries : ∀ entry ∈ raw, IsEntry python entry
  counters : ∀ entry ∈ raw, CountersFit entry

def Answer.Resolved (answer : Answer) : Prop := ∃ cid, resolveId answer.inspect = .ok (some cid)

/-- The outcomes for one container. A connection refused, an HTTP error and a timeout are `OSError`s. -/
inductive Outcome (answer : Answer) : Prop where
  | notFound (h : resolveId answer.inspect = .ok none)
  | unreachable (hid : answer.Resolved) (exc : Exc) (hhttp : answer.http = .failed exc) (hexc : exc.isOSError)
  | cutShort (hid : answer.Resolved) (hhttp : answer.http.CutShort)
  | notUtf8 (hid : answer.Resolved) (hhttp : answer.http.NotUtf8)
  | notJson (hid : answer.Resolved) (hhttp : answer.http.NotJson)
  | wellFormed (hid : answer.Resolved) (raw : List Value) (hhttp : answer.http.WellFormed python raw)

/-- The outcomes that are not turned into a warning. -/
def Answer.Spoils (answer : Answer) : Prop :=
  answer.Resolved ∧ (answer.http.CutShort ∨ answer.http.NotUtf8 ∨
    answer.http.NotJson ∧ (answer.http.TooLong python ∨ answer.http.NotSamples python))

/-- The exceptions of a fetch that are. -/
def isWarned (exc : Exc) : Bool := exc.isOSError || exc == .jsonDecodeError || exc.isRuntimeError

section

variable {python} {args : Args} {answer : Answer} {http : Http} {raw : List Value}

theorem Http.CutShort.read_eq (h : http.CutShort) : http.read = .error .incompleteRead := by
  obtain ⟨contentLength, received, rfl, hlength⟩ := h
  rw [Http.read, if_pos hlength]

/-- What becomes of a container that is found: what escapes from `_fetch_raw` escapes from `_collect_one`,
unless it is the `RuntimeError`. -/
theorem collected_resolved (hid : answer.Resolved) :
    collected python args answer =
      match loadReply python answer.http with
      | .ok data => do
          let samples ← (toSamples python (rawSamples data)).mapError .other
          return samples.filter (inWindow args)
      | .error exc => if isWarned exc then .ok [] else .error (.other exc) := by
  obtain ⟨cid, hid⟩ := hid
  rw [collected, hid]
  dsimp only
  rw [fetchRaw]
  cases loadReply python answer.http with
  | ok data => rfl
  | error exc =>
      dsimp only
      rw [isWarned]
      by_cases hcaught : exc.isOSError ∨ exc = .jsonDecodeError
      · have hwarned : (exc.isOSError || exc == .jsonDecodeError) = true := by
          rwa [Bool.or_eq_true, beq_iff_eq]
        rw [if_pos hcaught, hwarned, Bool.true_or]
        rfl
      · have hpassed : (exc.isOSError || exc == .jsonDecodeError) = false := by
          rwa [← Bool.not_eq_true, Bool.or_eq_true, beq_iff_eq]
        rw [if_neg hcaught, hpassed, Bool.false_or]
        rfl

/-- `json.loads` reads a text that is JSON as its tree. -/
theorem Http.WellFormed.load_eq (h : http.WellFormed python raw) :
    ∃ data, loadReply python http = .ok data ∧ rawSamples data = .list raw := by
  obtain ⟨body, text, tree, hread, hdecode, hparse, hraw⟩ := h.json
  have hload : loadReply python http = Python.loads python text := by
    rw [loadReply, hread, ok_bind, hdecode, ok_bind]
  obtain ⟨data, hdata⟩ := h.loads
  refine ⟨ofJson tree, ?_, hraw⟩
  obtain hloads | ⟨exc, hraised, -⟩ := loads_of_parse python hparse
  · exact hload.trans hloads
  · cases hdata.symm.trans (hload.trans hraised)

theorem collected_wellFormed (hid : answer.Resolved) (h : answer.http.WellFormed python raw) :
    collected python args answer = .ok ((samplesOf python raw).filter (inWindow args)) := by
  obtain ⟨data, hload, hraw⟩ := h.load_eq
  rw [collected_resolved hid, hload]
  dsimp only
  rw [hraw, toSamples_eq h.entries]
  rfl

theorem Http.CutShort.load_eq (h : http.CutShort) : loadReply python http = .error .incompleteRead := by
  rw [loadReply, h.read_eq]
  rfl

theorem Http.NotUtf8.load_eq (h : http.NotUtf8) : loadReply python http = .error .unicodeDecodeError := by
  obtain ⟨body, hread, hdecode⟩ := h
  rw [loadReply, hread, ok_bind, hdecode, error_bind]

/-- Unless it trips the script, a reply that is no JSON is reported without samples or with those that
`json.loads` has found in it. -/
theorem collected_notJson (hid : answer.Resolved) (h : answer.http.NotJson)
    (hsmooth : ¬ (answer.http.TooLong python ∨ answer.http.NotSamples python)) :
    ∃ samples, collected python args answer = .ok samples := by
  obtain ⟨body, text, hread, hdecode, -⟩ := h
  have hload : loadReply python answer.http = loads python text := by
    rw [loadReply, hread, ok_bind, hdecode, ok_bind]
  rw [collected_resolved hid, hload]
  cases hloads : loads python text with
  | ok data =>
      dsimp only
      cases hsamples : toSamples python (rawSamples data) with
      | ok samples => exact ⟨samples.filter (inWindow args), rfl⟩
      | error exc => exact absurd (.inr ⟨data, exc, hload.trans hloads, hsamples⟩) hsmooth
  | error exc =>
      obtain rfl | rfl | rfl := loads_error python hloads
      · exact ⟨[], rfl⟩
      · exact ⟨[], rfl⟩
      · exact absurd (.inl (hload.trans hloads)) hsmooth

theorem Answer.Spoils.collected_error (h : answer.Spoils python) :
    ∃ raised, collected python args answer = .error raised := by
  obtain ⟨hid, hcut | hutf8 | ⟨-, hlong | ⟨data, exc, hload, hsamples⟩⟩⟩ := h
  · refine ⟨.other .incompleteRead, ?_⟩
    rw [collected_resolved hid, hcut.load_eq]
    rfl
  · refine ⟨.other .unicodeDecodeError, ?_⟩
    rw [collected_resolved hid, hutf8.load_eq]
    rfl
  · have hload : loadReply python answer.http = .error .valueError := hlong
    refine ⟨.other .valueError, ?_⟩
    rw [collected_resolved hid, hload]
    rfl
  · refine ⟨.other exc, ?_⟩
    rw [collected_resolved hid, hload]
    dsimp only
    rw [hsamples]
    rfl

theorem not_spoils_of_failed {exc : Exc} (h : answer.http = .failed exc) : ¬ answer.Spoils python := by
  have hread : answer.http.read = .error exc := by
    rw [h]
    rfl
  rintro ⟨-, ⟨contentLength, received, hreply, -⟩ | ⟨body, hbody, -⟩ | ⟨⟨body, text, hbody, -⟩, -⟩⟩
  · cases h.symm.trans hreply
  · cases hread.symm.trans hbody
  · cases hread.symm.trans hbody

theorem not_spoils_of_wellFormed (h : answer.http.WellFormed python raw) : ¬ answer.Spoils python := by
  obtain ⟨data, hload, -⟩ := h.load_eq
  obtain ⟨body, text, tree, hread, hdecode, hparse, -⟩ := h.json
  rintro ⟨-, hcut | hutf8 | ⟨⟨other, otherText, hother, hotherText, hnot⟩, -⟩⟩
  · cases hload.symm.trans hcut.load_eq
  · cases hload.symm.trans hutf8.load_eq
  · obtain rfl := Except.ok.inj (hread.symm.trans hother)
    obtain rfl := Except.ok.inj (hdecode.symm.trans hotherText)
    cases hparse.symm.trans hnot

theorem Outcome.collected_isOk_iff (h : Outcome python answer) :
    (∃ samples, collected python args answer = .ok samples) ↔ ¬ answer.Spoils python := by
  constructor
  · rintro ⟨samples, hsamples⟩ hspoils
    obtain ⟨raised, hraised⟩ := hspoils.collected_error
    cases hsamples.symm.trans hraised
  · intro hspoils
    cases h with
    | notFound h =>
        refine ⟨[], ?_⟩
        rw [collected, h]
    | unreachable hid exc hhttp hexc =>
        refine ⟨[], ?_⟩
        rw [collected_resolved hid, loadReply, hhttp]
        have hwarned : isWarned exc = true := by rw [isWarned, hexc, Bool.true_or, Bool.true_or]
        exact if_pos hwarned
    | cutShort hid hhttp => exact absurd ⟨hid, .inl hhttp⟩ hspoils
    | notUtf8 hid hhttp => exact absurd ⟨hid, .inr (.inl hhttp)⟩ hspoils
    | notJson hid hhttp =>
        exact collected_notJson hid hhttp fun htrips => hspoils ⟨hid, .inr (.inr ⟨hhttp, htrips⟩)⟩
    | wellFormed hid raw hhttp => exact ⟨_, collected_wellFormed hid hhttp⟩

end

/-! ### Isolation -/

/-- The entry for a container, from its reply alone. -/
def reportEntry (start endTs warmup : ℚ) (raw : List Value) : Except Exc Aggregate :=
  let samples := (samplesOf python raw).filter fun s => start ≤ s.ts && s.ts ≤ endTs
  let kept := samples.filter fun s => start + warmup ≤ s.ts
  aggregate (if kept = [] then samples else kept)

/-- A name given several times is asked for several times; its last answer is the one reported. -/
structure Report.IsFull (args : Args) (world : Nat → Answer) (report : Report) : Prop where
  keys : ∀ name, name ∈ report.containers.keys ↔ name ∈ args.containers
  entries : ∀ i name raw, args.containers[i]? = some name →
    (∀ j, i < j → args.containers[j]? ≠ some name) → (world i).Resolved →
    (world i).http.WellFormed python raw → ∃ entry, report.containers.get? name = some entry ∧
      reportEntry python args.start args.endTs args.warmup raw = .ok entry

def Isolated (args : Args) (world : Nat → Answer) : Prop :=
  ∃ report, (main python args world).status = .returned 0 ∧
    written (main python args world).log = [(args.json, report)] ∧ report.IsFull python args world

section

variable {python} {args : Args} {world : Nat → Answer} {perContainer : Dict String (List Sample)}

theorem isolated_of_collectedAll
    (h : collectedAll python args world args.containers 0 Dict.empty = .ok perContainer) :
    Isolated python args world := by
  obtain ⟨report, hstatus, hwritten, hreport⟩ := main_written h
  obtain ⟨all, hall, hkeys, -, hitems⟩ := aggregateAll_spec args perContainer.nodup Dict.empty
  obtain rfl := Except.ok.inj (hall.symm.trans hreport)
  refine ⟨report, hstatus, hwritten, ?_, ?_⟩
  · intro name
    have hcollected : name ∈ perContainer.keys ↔ name ∈ args.containers ∨ name ∈ [] :=
      mem_keys_collectedAll h name
    rw [hkeys]
    exact (or_iff_left List.not_mem_nil).trans (hcollected.trans (or_iff_left List.not_mem_nil))
  · intro i name raw hname hlast hid hraw
    have hsamples : collected python args (world (0 + i)) =
        .ok ((samplesOf python raw).filter (inWindow args)) := by
      rw [Nat.zero_add]
      exact collected_wellFormed hid hraw
    have hget := get?_collectedAll_last h hname hlast hsamples
    exact hitems _ (Dict.mem_items_of_get? hget)

end

/-! ### Runs -/

def runArgs (containers : List String) : Args where
  cadvisor := "http://localhost:8099"
  start := 1704067200
  endTs := 1704067230
  warmup := 3
  count := 1800
  json := "results/python_search_steady_resources.json"
  quiet := true
  containers := containers

/-- The containers are answered as listed, and those after them are not found. -/
def answersFrom (answers : List Answer) (position : Nat) : Answer :=
  answers.getD position ⟨.error .calledProcessError, .failed .urlError⟩

theorem forall_answersFrom {P : Answer → Prop} {answers : List Answer} (h : ∀ answer ∈ answers, P answer) :
    ∀ i < answers.length, P (answersFrom answers i) := by
  intro i hi
  rw [answersFrom, List.getD_eq_getElem _ _ hi]
  exact h _ (List.getElem_mem hi)

/-- cAdvisor has buffered nothing about the container. -/
def emptyReply : Http := .reply none (Bytes.utf8 "[]")

theorem wellFormed_emptyReply : emptyReply.WellFormed newYearInterpreter [] where
  json := ⟨_, _, _, rfl, rfl, rfl, rfl⟩
  loads := ⟨_, rfl⟩
  entries := fun _ h => absurd h List.not_mem_nil
  counters := fun _ h => absurd h List.not_mem_nil

def failures : List Answer :=
  [⟨.error .calledProcessError, .failed .urlError⟩, ⟨.ok "a1", .failed .urlError⟩,
    ⟨.ok "b2", .failed (.httpError 500)⟩, ⟨.ok "c3", .failed .timeoutError⟩, ⟨.ok "d4", emptyReply⟩]

def interruption : List Answer := [⟨.ok "a1", emptyReply⟩, ⟨.ok "b2", .reply (some 2) (Bytes.utf8 "[")⟩]

theorem outcome_failures : ∀ answer ∈ failures, Outcome newYearInterpreter answer := by
  simp only [failures, List.forall_mem_cons, List.not_mem_nil, false_implies, implies_true, and_true]
  refine ⟨.notFound rfl, ?_, ?_, ?_, ?_⟩
  · exact .unreachable ⟨"a1", by decide +kernel⟩ .urlError rfl rfl
  · exact .unreachable ⟨"b2", by decide +kernel⟩ (.httpError 500) rfl rfl
  · exact .unreachable ⟨"c3", by decide +kernel⟩ .timeoutError rfl rfl
  · exact .wellFormed ⟨"d4", by decide +kernel⟩ [] wellFormed_emptyReply

theorem not_spoils_failures : ∀ answer ∈ failures, ¬ answer.Spoils newYearInterpreter := by
  simp only [failures, List.forall_mem_cons, List.not_mem_nil, false_implies, implies_true, and_true]
  exact ⟨not_spoils_of_failed rfl, not_spoils_of_failed rfl, not_spoils_of_failed rfl,
    not_spoils_of_failed rfl, not_spoils_of_wellFormed wellFormed_emptyReply⟩

/-- No JSON, and no warning either. -/
example : (main newYearInterpreter (runArgs ["auth"])
    (answersFrom [⟨.ok "a1", .reply none (Bytes.utf8 "[NaN]")⟩])).status = .raised (.other .typeError) := rfl

end ApigateBenchmark.LoadTests
