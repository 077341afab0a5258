import ApigateBenchmark.AuthService.Registration

/-!
# No request waits for another

A task never waits: whatever the other requests did, its next step is enabled until it has its
response, and it takes at most four steps. The lock of the store is held inside one step only. What a
task was answered, it stays answered.
-/

namespace ApigateBenchmark.AuthService

open Transition

variable {jwt : Jwt} {bcrypt : Bcrypt} {issuer : Issuer}

/-- The label is a step of the task. -/
def Label.stepOf (id : Nat) : Label → Bool
  | .advance other => other == id
  | _ => false

/-- The steps that the request may still take. -/
def Service.remaining (s : Service) (id : Nat) : Nat :=
  ((s.tasks[id]?).map fun task => task.progress.remaining).getD 0

theorem Service.remaining_of_task {s : Service} {id : Nat} {task : Task}
    (h : s.tasks[id]? = some task) : s.remaining id = task.progress.remaining := by
  rw [Service.remaining, h, Option.map_some, Option.getD_some]

/-! ### A step of a task brings its response nearer -/

theorem Op.Steps.remaining_lt {store store' : Store} {op : Op} {state state' : CallState}
    (h : op.Steps bcrypt store state store' state') : state'.remaining < state.remaining := by
  cases h with
  | hashes hhash => exact Nat.one_lt_two
  | finds hptr => exact Nat.one_lt_two
  | hashFails hhash => exact Nat.zero_lt_two
  | unknown hptr => exact Nat.zero_lt_two
  | taken hptr => exact Nat.zero_lt_one
  | inserts hptr => exact Nat.zero_lt_one
  | accepts huser haccept => exact Nat.zero_lt_one
  | rejects huser hreject => exact Nat.zero_lt_one

theorem Task.Steps.remaining_lt {now : Time} {store store' : Store} {request : Request}
    {progress progress' : Progress}
    (h : Task.Steps jwt bcrypt issuer now store request progress store' progress') :
    progress'.remaining < progress.remaining := by
  cases h with
  | enters =>
      obtain ⟨op, -, henter⟩ | ⟨response, henter⟩ := request.enter_cases jwt issuer now
      · rw [henter]
        exact Nat.lt_succ_self 3
      · rw [henter]
        exact Nat.zero_lt_succ 3
  | works hsteps => exact Nat.succ_lt_succ hsteps.remaining_lt
  | leaves hleave => exact Nat.zero_lt_one

theorem Service.Steps.remaining_le {s s' : Service} {label : Label} {id : Nat}
    (hid : id < s.tasks.length) (h : Service.Steps jwt bcrypt issuer s label s') :
    id < s'.tasks.length ∧
      s'.remaining id + (if label.stepOf id then 1 else 0) ≤ s.remaining id := by
  cases h with
  | arrives request =>
      refine ⟨?_, ?_⟩
      · rw [List.length_append]
        omega
      · simp only [Service.remaining, Label.stepOf, List.getElem?_append_left hid]
        exact Nat.le_refl _
  | ticks now => exact ⟨hid, Nat.le_refl _⟩
  | @advances other request before after store htask hsteps =>
      refine ⟨by rw [List.length_set]; exact hid, ?_⟩
      by_cases hsame : other = id
      · subst hsame
        have hless := hsteps.remaining_lt
        have hset := List.getElem?_set_self (a := (⟨request, after⟩ : Task)) hid
        rw [s.remaining_of_task htask, Service.remaining_of_task hset, Label.stepOf, beq_self_eq_true,
          if_pos rfl]
        exact hless
      · simp only [Service.remaining, Label.stepOf, List.getElem?_set_ne hsame, beq_eq_false_iff_ne.mpr hsame]
        exact Nat.le_refl _

/-! ### An answer stays -/

theorem Service.Steps.answer {s s' : Service} {label : Label} {id : Nat}
    {answer : Response × Option Claims} (h : Service.Steps jwt bcrypt issuer s label s')
    (hanswer : s.answer id = some answer) : s'.answer id = some answer := by
  obtain ⟨task, htask, hprogress⟩ := Option.bind_eq_some_iff.mp hanswer
  have hid := (List.getElem?_eq_some_iff.mp htask).1
  cases h with
  | arrives request => rw [← hanswer, Service.answer, Service.answer, List.getElem?_append_left hid]
  | ticks now => exact hanswer
  | @advances other request before after store hother hsteps =>
      by_cases hsame : other = id
      · subst hsame
        rw [htask] at hother
        cases hother
        cases hsteps <;> cases hprogress
      · rw [← hanswer, Service.answer, Service.answer, List.getElem?_set_ne hsame]

/-- A task keeps its request. -/
theorem Service.Steps.request {s s' : Service} {label : Label} {id : Nat} {request : Request}
    (h : Service.Steps jwt bcrypt issuer s label s')
    (htask : ∃ progress, s.tasks[id]? = some ⟨request, progress⟩) :
    ∃ progress, s'.tasks[id]? = some ⟨request, progress⟩ := by
  obtain ⟨progress, htask⟩ := htask
  have hid := (List.getElem?_eq_some_iff.mp htask).1
  cases h with
  | arrives request => exact ⟨progress, by rw [List.getElem?_append_left hid, htask]⟩
  | ticks now => exact ⟨progress, htask⟩
  | @advances other request' before after store hother hsteps =>
      by_cases hsame : other = id
      · subst hsame
        rw [htask] at hother
        cases hother
        exact ⟨after, List.getElem?_set_self hid⟩
      · exact ⟨progress, by rw [List.getElem?_set_ne hsame, htask]⟩

theorem Service.remaining_eq_zero {s : Service} {id : Nat} (hid : id < s.tasks.length) :
    s.remaining id = 0 ↔ s.answer id ≠ none := by
  obtain ⟨⟨request, progress⟩, htask⟩ : ∃ task, s.tasks[id]? = some task :=
    ⟨_, List.getElem?_eq_getElem hid⟩
  rw [s.remaining_of_task htask, Service.answer, htask, Option.bind_some]
  cases progress with
  | arrived => simp [Progress.remaining]
  | inStore op state => simp [Progress.remaining]
  | responded response signed => simp [Progress.remaining]

/-- An unanswered task can take its step. -/
theorem Service.Sound.enabled {s : Service} (hsound : s.Sound jwt bcrypt issuer) {id : Nat}
    (hid : id < s.tasks.length) (h : s.answer id = none) :
    ∃ s', s.step jwt bcrypt issuer (.advance id) = some s' := by
  obtain ⟨task, htask⟩ : ∃ task, s.tasks[id]? = some task := ⟨_, List.getElem?_eq_getElem hid⟩
  have hwaiting : 0 < task.progress.remaining := by
    rw [← s.remaining_of_task htask]
    exact Nat.pos_of_ne_zero fun hzero => (Service.remaining_eq_zero hid).mp hzero h
  obtain ⟨store, progress, hadvance, -⟩ :=
    (hsound task (List.mem_of_getElem? htask)).advance s.now hwaiting
  exact ⟨_, by rw [Service.step, htask, Option.bind_some, hadvance, Option.map_some]⟩

theorem Progress.remaining_le (progress : Progress) : progress.remaining ≤ 4 := by
  cases progress with
  | arrived => exact Nat.le_refl 4
  | responded response signed => exact Nat.zero_le 4
  | inStore op state => cases state <;> simp [Progress.remaining, CallState.remaining]

theorem Service.remaining_le_four (s : Service) (id : Nat) : s.remaining id ≤ 4 := by
  rw [Service.remaining]
  cases s.tasks[id]? with
  | none => exact Nat.zero_le 4
  | some task => exact Progress.remaining_le task.progress

/-- However the requests are interleaved, none is ever blocked: until it has its response its next step
is enabled, it has it after at most four of its own steps, and keeps it. -/
theorem requests_wait_free {before labels : List Label} {s s' : Service} {id : Nat}
    (hbefore : run (Service.step jwt bcrypt issuer) Service.start before = some s)
    (hid : id < s.tasks.length)
    (hrun : run (Service.step jwt bcrypt issuer) s labels = some s') :
    labels.countP (Label.stepOf id) ≤ 4 ∧
      (labels.countP (Label.stepOf id) = 4 → s'.answer id ≠ none) ∧
      (s'.answer id = none → ∃ t, s'.step jwt bcrypt issuer (.advance id) = some t) ∧
      ∀ answer, s.answer id = some answer → s'.answer id = some answer := by
  have hbound : s'.remaining id + labels.countP (Label.stepOf id) ≤ s.remaining id :=
    run_countP_le (Service.step jwt bcrypt issuer) (I := fun t => id < t.tasks.length)
      (fun t label t' ht hstep => (Service.step_spec hstep).remaining_le ht) hid hrun
  have hfour := s.remaining_le_four id
  have hid' : id < s'.tasks.length :=
    run_invariant (Service.step jwt bcrypt issuer) (I := fun t => id < t.tasks.length)
      (fun t label t' ht hstep => ((Service.step_spec hstep).remaining_le ht).1) hid hrun
  refine ⟨by omega, fun hcount => ?_, fun hnone => ?_, fun answer hanswer => ?_⟩
  · exact (Service.remaining_eq_zero hid').mp (by omega)
  · exact (Service.run_sound (run_trans _ hbefore hrun)).enabled hid' hnone
  · exact run_invariant (Service.step jwt bcrypt issuer) (I := fun t => t.answer id = some answer)
      (fun t label t' ht hstep => (Service.step_spec hstep).answer ht) hanswer hrun

/-- Of the visit, the `Login`: it arrived in the seventh step, and took four of the rest. -/
theorem requests_wait_free_visit :
    (visitLabels.drop 7).countP (Label.stepOf 1) = 4 ∧ visitEnd.answer 1 ≠ none := by
  obtain ⟨s, hbefore, hrun⟩ : ∃ s,
      run (Service.step (oneTokenJwt visitClaims) keyBcrypt visitIssuer) Service.start
        (visitLabels.take 7) = some s ∧
      run (Service.step (oneTokenJwt visitClaims) keyBcrypt visitIssuer) s (visitLabels.drop 7) =
        some visitEnd := by
    rw [← Option.bind_eq_some_iff, ← run_append, List.take_append_drop]
    exact visitRun_eq
  have hid : 1 < s.tasks.length := by
    have hlength : (run (Service.step (oneTokenJwt visitClaims) keyBcrypt visitIssuer) Service.start
        (visitLabels.take 7)).all (fun t => decide (1 < t.tasks.length)) = true := by decide +kernel
    rw [hbefore] at hlength
    exact of_decide_eq_true hlength
  exact ⟨rfl, (requests_wait_free hbefore hid hrun).2.1 rfl⟩

end ApigateBenchmark.AuthService
