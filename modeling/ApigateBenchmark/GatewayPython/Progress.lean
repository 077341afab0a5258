import ApigateBenchmark.GatewayPython.BodyReading
import ApigateBenchmark.GatewayPython.Process
import ApigateBenchmark.GatewayPython.ResponseProtocol

/-!
# Every request of the gateway comes to its end

A request goes through its stages one way: the verification or the body, the call of data-service, the
relay. The loops of `read_body` and `_relay_response` stay where they are for one part of a body after the
other; any other answer, a fault as much as a reply, takes the request a stage further.
-/

namespace ApigateBenchmark.GatewayPython

open Coroutine

variable (settings : Settings) (decoders : Decoders)

/-! ### Stages -/

/-- The stages from this one on. -/
def Question.stage : Question → Nat
  | .verifyHead => 4
  | .receive | .verifyBody => 3
  | .dataHead => 2
  | .dataChunk => 1

def Task.stagesLeft (task : Task) : Nat :=
  match (task.run settings decoders).status with
  | .suspended question => question.stage
  | _ => 0

/-- A part of one of the two bodies, after which another may follow; `read_body` skips a message of another
type as it would an empty part. -/
def Answer.isPart : Answer → Bool
  | .message .disconnect => false
  | .message part => !part.endsBody
  | .dataChunk _ => true
  | _ => false

theorem Question.stage_pos (question : Question) : 0 < question.stage := by
  cases question <;> decide

theorem Question.stage_le (question : Question) : question.stage ≤ 4 := by
  cases question <;> decide

theorem Task.stagesLeft_of_suspended {task : Task} {question : Question}
    (h : (task.run settings decoders).status = .suspended question) :
    task.stagesLeft settings decoders = question.stage := by
  rw [Task.stagesLeft, h]

/-- A run is over, or it waits for something. -/
theorem Task.stagesLeft_cases (task : Task) :
    (task.stagesLeft settings decoders = 0 ∧
        ∀ question, (task.run settings decoders).status ≠ .suspended question) ∨
      ∃ question, (task.run settings decoders).status = .suspended question ∧
        task.stagesLeft settings decoders = question.stage := by
  cases hstatus : (task.run settings decoders).status with
  | returned value => exact .inl ⟨by rw [Task.stagesLeft, hstatus], nofun⟩
  | raised exc => exact .inl ⟨by rw [Task.stagesLeft, hstatus], nofun⟩
  | suspended question => exact .inr ⟨question, rfl, Task.stagesLeft_of_suspended settings decoders hstatus⟩

theorem Task.stagesLeft_eq_zero {task : Task} : task.stagesLeft settings decoders = 0 ↔
    ∀ question, (task.run settings decoders).status ≠ .suspended question := by
  obtain ⟨hzero, hover⟩ | ⟨question, hstatus, hstage⟩ := Task.stagesLeft_cases settings decoders task
  · exact iff_of_true hzero hover
  · have hpos := question.stage_pos
    exact iff_of_false (by omega) fun hover => hover question hstatus

theorem Task.stagesLeft_le_four (task : Task) : task.stagesLeft settings decoders ≤ 4 := by
  obtain ⟨hzero, -⟩ | ⟨question, -, hstage⟩ := Task.stagesLeft_cases settings decoders task
  · rw [hzero]
    exact Nat.zero_le 4
  · rw [hstage]
    exact question.stage_le

/-! ### What a decision depends on -/

def Verdict.decision (scope : Scope) : Verdict → Decision
  | .waiting question => .wait question
  | .rejected detail => .answer 401 detail
  | .escaped exc => .escape exc
  | .verified user => .forward (myItemsRequest settings scope user)

def Delivery.decision {α : Type} (decode : Bytes → Except DecodeExc α)
    (request : Bytes → α → UpstreamRequest) : Delivery → Decision
  | .pending => .wait .receive
  | .gone => .hangUp
  | .complete body _ => decodedDecision (request body) (decode body)

/-- On every route the decision depends on one thing at most: on the reply of auth-service, or on the
messages received. -/
inductive RouteCases (scope : Scope) : Prop where
  | fixed (made : Decision) (hdecided : ∀ question, made ≠ .wait question) (hstays : made ≠ .hangUp)
      (hdecision : ∀ world, decision settings decoders scope world = made)
  | verified (authorization : String)
      (hcalls : authCalls settings scope = [.post (verifyRequest settings authorization)])
      (hdecision : ∀ world,
        decision settings decoders scope world = (verdict decoders world).decision settings scope)
  | body (α : Type) (decode : Bytes → Except DecodeExc α) (request : Bytes → α → UpstreamRequest)
      (hdecision : ∀ world,
        decision settings decoders scope world = (delivery world.inbox).decision decode request)

theorem bodyDecision_eq {α : Type} (world : World) (decode : Bytes → Except DecodeExc α)
    (request : Bytes → α → UpstreamRequest) :
    bodyDecision world decode request = (delivery world.inbox).decision decode request := by
  rw [bodyDecision, readBody_eq]
  cases delivery world.inbox <;> rfl

theorem route_cases (scope : Scope) : RouteCases settings decoders scope := by
  by_cases hitems : scope.method = "GET" ∧ scope.path = "/items"
  · refine .fixed (.forward (itemsRequest settings scope)) (fun _ => Decision.noConfusion)
      Decision.noConfusion fun world => ?_
    rw [decision, if_pos hitems]
  by_cases hmine : scope.method = "GET" ∧ scope.path = "/my-items"
  · cases hvalue : extractAuthorization scope with
    | none =>
        refine .fixed (.answer 401 "missing authorization") (fun _ => Decision.noConfusion)
          Decision.noConfusion fun world => ?_
        rw [decision, if_neg hitems, if_pos hmine, myItemsDecision, if_pos hvalue]
    | some authorization =>
        refine .verified authorization ?_ fun world => ?_
        · rw [authCalls, if_pos hmine, hvalue]
          rfl
        · have hpresent : extractAuthorization scope ≠ none := by
            rw [hvalue]
            exact Option.some_ne_none authorization
          rw [decision, if_neg hitems, if_pos hmine, myItemsDecision, if_neg hpresent]
          cases verdict decoders world <;> rfl
  by_cases hsearch : scope.method = "POST" ∧ scope.path = "/items/search"
  · refine .body _ decoders.search (fun body _ => searchRequest settings scope body) fun world => ?_
    rw [decision, if_neg hitems, if_neg hmine, if_pos hsearch, bodyDecision_eq]
  by_cases hlookup : scope.method = "POST" ∧ scope.path = "/items/lookup"
  · refine .body _ decoders.lookup (fun _ payload => lookupRequest settings scope payload) fun world => ?_
    rw [decision, if_neg hitems, if_neg hmine, if_neg hsearch, if_pos hlookup, bodyDecision_eq]
  · refine .fixed (.answer 404 ("unknown route: " ++ scope.method ++ " " ++ scope.path))
      (fun _ => Decision.noConfusion) Decision.noConfusion fun world => ?_
    rw [decision, if_neg hitems, if_neg hmine, if_neg hsearch, if_neg hlookup]

/-- A message after a pending body: the body goes on, is complete, or its client is gone. -/
theorem delivery_snoc {inbox : List AsgiMessage} (hpending : delivery inbox = .pending)
    (message : AsgiMessage) :
    delivery (inbox ++ [message]) = (delivery [message]).after (inbox.flatMap AsgiMessage.bytes) := by
  have hsuspended : readBody inbox = suspend .receive := by
    rw [readBody_eq, hpending]
    rfl
  exact delivery_append ((readBody_eq_suspend_iff inbox).mp hsuspended) [message]

theorem pending_of_wait {α : Type} {decode : Bytes → Except DecodeExc α}
    {request : Bytes → α → UpstreamRequest}
    {arrived : Delivery} {question : Question} (h : arrived.decision decode request = .wait question) :
    arrived = .pending ∧ question = .receive := by
  cases arrived with
  | pending => exact ⟨rfl, (Decision.wait.inj h).symm⟩
  | gone => cases h
  | complete body rest => exact absurd h (decodedDecision_ne_wait _ _ question)

theorem waiting_of_wait {scope : Scope} {made : Verdict} {question : Question}
    (h : made.decision settings scope = .wait question) : made = .waiting question := by
  cases made with
  | waiting other => rw [Decision.wait.inj h]
  | _ => cases h

/-- The auth client reads the body of a 200 reply only. -/
theorem head_of_waiting_body {world : World} (h : verdict decoders world = .waiting .verifyBody) :
    ∃ head, world.verifyHead = some (.ok head) ∧ head.status = 200 ∧ world.verifyBody = none := by
  rw [verdict] at h
  split at h
  · cases h
  · exact absurd h (verdictOnFault_ne_waiting _ _)
  · rename_i head hhead
    by_cases hstatus : head.status = 200
    · refine ⟨head, hhead, hstatus, ?_⟩
      rw [if_neg (not_not.mpr hstatus)] at h
      split at h
      · assumption
      · exact absurd h (verdictOnFault_ne_waiting _ _)
      · exact absurd h (verdictOnBody_ne_waiting decoders _ _)
    · rw [if_pos hstatus] at h
      cases h

/-! ### The exchange with data-service -/

/-- A run that waits for a chunk has the head of the reply, and not the end of its body. -/
theorem Task.streaming {task : Task} (h : (task.run settings decoders).status = .suspended .dataChunk) :
    (∃ head, task.world.dataHead = some (.ok head)) ∧ task.world.dataEnd = none := by
  obtain hwait | ⟨⟨request, hforward⟩, -⟩ := Task.suspended settings decoders h
  · obtain h | ⟨h, -⟩ | h := decision_wait settings decoders hwait <;> cases h
  · rw [Task.run, asgiApp_eq, prepend_status, hforward, Decision.toPy, proxy_eq, prepend_handle,
      prepend_status, exchange] at h
    cases hhead : task.world.dataHead with
    | none =>
        rw [hhead] at h
        cases h
    | some reply =>
        rw [hhead] at h
        cases reply with
        | error fault => cases fault <;> cases h
        | ok head =>
            refine ⟨⟨head, rfl⟩, ?_⟩
            simp only [relayResponse_eq, prepend_handle, prepend_status] at h
            cases hend : task.world.dataEnd with
            | none => rfl
            | some bodyEnd =>
                rw [hend] at h
                cases bodyEnd with
                | complete => cases h
                | broken fault => cases fault <;> cases h

/-- What is left of a run that has decided otherwise than to wait. -/
theorem Task.stagesLeft_decided {task : Task}
    (hdecided : ∀ question, decision settings decoders task.scope task.world ≠ .wait question) :
    task.stagesLeft settings decoders = 0 ∨
      (task.world.dataHead = none ∧ task.stagesLeft settings decoders = 2) ∨
      ((∃ head, task.world.dataHead = some (.ok head)) ∧ task.world.dataEnd = none ∧
        task.stagesLeft settings decoders = 1) := by
  obtain ⟨hzero, -⟩ | ⟨question, hstatus, hstage⟩ := Task.stagesLeft_cases settings decoders task
  · exact .inl hzero
  · rw [hstage]
    obtain hwait | ⟨-, ⟨rfl, hnone⟩ | rfl⟩ := Task.suspended settings decoders hstatus
    · exact absurd hwait (hdecided question)
    · exact .inr (.inl ⟨hnone, rfl⟩)
    · obtain ⟨hhead, hend⟩ := Task.streaming settings decoders hstatus
      exact .inr (.inr ⟨hhead, hend, rfl⟩)

/-- A task that waits for auth-service has called it. -/
theorem Task.calls_of_waiting {task : Task} {question : Question}
    (h : (task.run settings decoders).status = .suspended question)
    (hquestion : question = .verifyHead ∨ question = .verifyBody) :
    (∃ authorization, authCalls settings task.scope = [.post (verifyRequest settings authorization)]) ∧
      verdict decoders task.world = .waiting question := by
  obtain hwait | ⟨-, hdata⟩ := Task.suspended settings decoders h
  · cases route_cases settings decoders task.scope with
    | fixed made hdecided hstays hdecision =>
        rw [hdecision] at hwait
        exact absurd hwait (hdecided question)
    | verified authorization hcalls hdecision =>
        rw [hdecision] at hwait
        exact ⟨⟨authorization, hcalls⟩, waiting_of_wait settings hwait⟩
    | body α decode request hdecision =>
        rw [hdecision] at hwait
        obtain rfl := (pending_of_wait hwait).2
        obtain h | h := hquestion <;> cases h
  · obtain rfl | rfl := hquestion <;> obtain ⟨h, -⟩ | h := hdata <;> cases h

/-! ### An answer takes a request a stage further -/

/-- Before the decision: the messages or the reply of auth-service get further. -/
theorem Task.resume_waiting {task : Task} {answer : Answer} {question : Question}
    (hwait : decision settings decoders task.scope task.world = .wait answer.question)
    (hnext : decision settings decoders task.scope (task.resume answer).world = .wait question) :
    question.stage + (if answer.isPart then 0 else 1) ≤ answer.question.stage := by
  cases route_cases settings decoders task.scope with
  | fixed made hdecided hstays hdecision =>
      rw [hdecision] at hwait
      exact absurd hwait (hdecided _)
  | verified authorization hcalls hdecision =>
      rw [hdecision] at hwait hnext
      have hbefore := waiting_of_wait settings hwait
      have hafter := verdict_waiting decoders (waiting_of_wait settings hnext)
      cases answer with
      | verifyHead reply =>
          obtain ⟨-, hnone⟩ | ⟨rfl, -⟩ := hafter
          · cases hnone
          · exact Nat.le_refl 4
      | verifyBody reply =>
          obtain ⟨head, hhead, -⟩ := head_of_waiting_body decoders hbefore
          obtain ⟨-, hnone⟩ | ⟨-, hnone⟩ := hafter
          · exact absurd (hhead.symm.trans hnone) (Option.some_ne_none _)
          · cases hnone
      | _ => obtain ⟨h, -⟩ | ⟨h, -⟩ := verdict_waiting decoders hbefore <;> cases h
  | body α decode request hdecision =>
      rw [hdecision] at hwait hnext
      obtain ⟨hpending, hquestion⟩ := pending_of_wait hwait
      obtain ⟨hafter, rfl⟩ := pending_of_wait hnext
      cases answer with
      | message message =>
          rw [Task.resume, World.feed, delivery_snoc hpending] at hafter
          cases message with
          | disconnect => cases hafter
          | other type => exact Nat.le_refl 3
          | request body moreBody =>
              cases hmore : moreBody.getD false with
              | true =>
                  have hpart : (Answer.message (.request body moreBody)).isPart = true := by
                    simp only [Answer.isPart, AsgiMessage.endsBody, hmore, Bool.not_true, Bool.not_false]
                  rw [hpart]
                  exact Nat.le_refl 3
              | false =>
                  simp only [delivery, hmore, Bool.false_eq_true, if_false] at hafter
                  cases hafter
      | _ => cases hquestion

/-- Whatever the answer is, a request that awaited it is a stage further, or it got a part of a body and is
where it was. -/
theorem Task.resume_stage {task : Task} {answer : Answer}
    (h : (task.run settings decoders).status = .suspended answer.question) :
    (task.resume answer).stagesLeft settings decoders + (if answer.isPart then 0 else 1) ≤
      answer.question.stage := by
  obtain ⟨hwait, -⟩ | ⟨⟨request, hbefore, hforward⟩, -, hdata⟩ := Task.resume_cases settings decoders h
  · obtain ⟨hzero, -⟩ | ⟨question, hstatus, hstage⟩ :=
      Task.stagesLeft_cases settings decoders (task.resume answer)
    · have hpos := answer.question.stage_pos
      rw [hzero]
      split <;> omega
    · rw [hstage]
      obtain hnext | ⟨-, hdata⟩ := Task.suspended settings decoders hstatus
      · exact Task.resume_waiting settings decoders hwait hnext
      · -- the decision is made, so what is left of the run is the exchange
        have hasked : 3 ≤ answer.question.stage := by
          obtain hquestion | ⟨hquestion, -⟩ | hquestion := decision_wait settings decoders hwait
          all_goals rw [hquestion]; decide
        have hleft : question.stage ≤ 2 := by
          obtain ⟨rfl, -⟩ | rfl := hdata <;> decide
        split <;> omega
  · have hdecided : ∀ question,
        decision settings decoders (task.resume answer).scope (task.resume answer).world ≠ .wait question := by
      intro question hwait
      exact Decision.noConfusion (hforward.symm.trans hwait)
    have hleft := Task.stagesLeft_decided settings decoders hdecided
    cases answer with
    | dataHead reply =>
        obtain hzero | ⟨hnone, -⟩ | ⟨-, -, hone⟩ := hleft
        · rw [hzero]
          show 0 + 1 ≤ 2
          omega
        · cases hnone
        · rw [hone]
          show 1 + 1 ≤ 2
          omega
    | dataChunk chunk =>
        obtain ⟨⟨head, hhead⟩, -⟩ := Task.streaming settings decoders h
        obtain hzero | ⟨hnone, -⟩ | ⟨-, -, hone⟩ := hleft
        · rw [hzero]
          show 0 + 0 ≤ 1
          omega
        · exact absurd (hhead.symm.trans hnone) (Option.some_ne_none _)
        · rw [hone]
          show 1 + 0 ≤ 1
          omega
    | dataEnd bodyEnd =>
        obtain ⟨⟨head, hhead⟩, -⟩ := Task.streaming settings decoders h
        obtain hzero | ⟨hnone, -⟩ | ⟨-, hnone, -⟩ := hleft
        · rw [hzero]
          show 0 + 1 ≤ 1
          omega
        · exact absurd (hhead.symm.trans hnone) (Option.some_ne_none _)
        · cases hnone
    | _ => obtain ⟨hquestion, -⟩ | hquestion := hdata <;> cases hquestion

/-! ### Whole runs -/

/-- The label brings the task an answer that is no part of a body. -/
def Label.answers (id : Nat) : Label → Bool
  | .deliver other answer => other == id && !answer.isPart
  | .arrive _ => false

/-- The stages still ahead of a task. -/
def Process.stagesLeft (process : Process) (id : Nat) : Nat :=
  ((process.tasks[id]?).map fun task => task.stagesLeft settings decoders).getD 0

theorem Process.stagesLeft_of_task {process : Process} {id : Nat} {task : Task}
    (htask : process.tasks[id]? = some task) :
    process.stagesLeft settings decoders id = task.stagesLeft settings decoders := by
  rw [Process.stagesLeft, htask, Option.map_some, Option.getD_some]

theorem Process.step_stages {process next : Process} {label : Label} {id : Nat}
    (hid : id < process.tasks.length) (h : process.step settings decoders label = some next) :
    id < next.tasks.length ∧
      next.stagesLeft settings decoders id + (if label.answers id then 1 else 0) ≤
        process.stagesLeft settings decoders id := by
  obtain ⟨scope, rfl, rfl⟩ | ⟨other, answer, task, rfl, htask, hstatus, rfl⟩ :=
    Process.step_cases settings decoders h
  · refine ⟨?_, ?_⟩
    · rw [dispatch_tasks, List.length_append]
      omega
    · simp only [Process.stagesLeft, dispatch_tasks, List.getElem?_append_left hid, Label.answers]
      exact Nat.le_refl _
  · refine ⟨by rw [dispatch_tasks, List.length_set]; exact hid, ?_⟩
    by_cases hsame : other = id
    · subst hsame
      have hset := List.getElem?_set_self (a := task.resume answer) hid
      rw [Process.stagesLeft_of_task settings decoders htask, Task.stagesLeft_of_suspended settings decoders hstatus,
        Process.stagesLeft_of_task settings decoders hset]
      have hstage := Task.resume_stage settings decoders hstatus
      cases hpart : answer.isPart with
      | true => simpa only [Label.answers, hpart, Bool.not_true, Bool.and_false, if_true, Bool.false_eq_true,
          if_false] using hstage
      | false => simpa only [Label.answers, hpart, Bool.not_false, Bool.and_true, beq_self_eq_true, if_true,
          Bool.false_eq_true, if_false] using hstage
    · simp only [Process.stagesLeft, dispatch_tasks, List.getElem?_set_ne hsame, Label.answers,
        beq_eq_false_iff_ne.mpr hsame, Bool.false_and]
      exact Nat.le_refl _

/-- A request that is over gets no answers, and is left as it is. -/
theorem Process.step_over {process next : Process} {label : Label} {id : Nat} {task : Task}
    (hover : task.stagesLeft settings decoders = 0) (htask : process.tasks[id]? = some task)
    (h : process.step settings decoders label = some next) : next.tasks[id]? = some task := by
  have hid := (List.getElem?_eq_some_iff.mp htask).1
  obtain ⟨scope, rfl, rfl⟩ | ⟨other, answer, told, rfl, htold, hstatus, rfl⟩ :=
    Process.step_cases settings decoders h
  · rw [dispatch_tasks, List.getElem?_append_left hid, htask]
  · have hne : other ≠ id := by
      rintro rfl
      obtain rfl := Option.some.inj (htask.symm.trans htold)
      have hpos := answer.question.stage_pos
      rw [Task.stagesLeft_of_suspended settings decoders hstatus] at hover
      omega
    rw [dispatch_tasks, List.getElem?_set_ne hne, htask]

/-- Whatever the other requests are at and whatever it is answered, a request is over after at most four
answers besides the parts of the two bodies; what it has done then is all it ever does. -/
theorem answers_bounded {labels : List Label} {process next : Process} {id : Nat}
    (hid : id < process.tasks.length)
    (hrun : Transition.run (Process.step settings decoders) process labels = some next) :
    labels.countP (Label.answers id) ≤ 4 ∧
      (labels.countP (Label.answers id) = 4 → ∃ task, next.tasks[id]? = some task ∧
        ∀ question, (task.run settings decoders).status ≠ .suspended question) ∧
      ∀ task, process.tasks[id]? = some task →
        (∀ question, (task.run settings decoders).status ≠ .suspended question) →
          next.tasks[id]? = some task := by
  have hbound : next.stagesLeft settings decoders id + labels.countP (Label.answers id) ≤
      process.stagesLeft settings decoders id :=
    Transition.run_countP_le (Process.step settings decoders) (I := fun p => id < p.tasks.length)
      (fun p label p' hp hstep => Process.step_stages settings decoders hp hstep) hid hrun
  have hfour : process.stagesLeft settings decoders id ≤ 4 := by
    rw [Process.stagesLeft_of_task settings decoders (List.getElem?_eq_getElem hid)]
    exact Task.stagesLeft_le_four settings decoders _
  have hid' : id < next.tasks.length :=
    Transition.run_invariant (Process.step settings decoders) (I := fun p => id < p.tasks.length)
      (fun p label p' hp hstep => (Process.step_stages settings decoders hp hstep).1) hid hrun
  refine ⟨by omega, fun hcount => ⟨_, List.getElem?_eq_getElem hid', ?_⟩, fun task htask hover => ?_⟩
  · have hzero : next.stagesLeft settings decoders id = 0 := by omega
    rw [Process.stagesLeft_of_task settings decoders (List.getElem?_eq_getElem hid')] at hzero
    exact (Task.stagesLeft_eq_zero settings decoders).mp hzero
  · have hzero := (Task.stagesLeft_eq_zero settings decoders).mpr hover
    exact Transition.run_invariant (Process.step settings decoders) (I := fun p => p.tasks[id]? = some task)
      (fun p label p' hp hstep => Process.step_over settings decoders hzero hp hstep) htask hrun

/-- A listing that comes in two chunks, another request between them. -/
def slowLabels : List Label :=
  [.deliver 0 (.verifyHead (.ok ⟨200, []⟩)), .deliver 0 (.verifyBody (.ok [])),
    .deliver 0 (.dataHead (.ok ⟨200, []⟩)), .deliver 0 (.dataChunk (Bytes.utf8 "[")),
    .arrive ⟨"GET", "/items", []⟩, .deliver 1 (.dataHead (.error .timeoutError)),
    .deliver 0 (.dataChunk (Bytes.utf8 "]")), .deliver 0 (.dataEnd .complete)]

def slowDecoders : Decoders := { noDecoders with verify := fun _ => .ok ⟨"u1", "ann"⟩ }

def slowProcess : Process := (Process.run composeSettings slowDecoders [.arrive
  ⟨"GET", "/my-items", [(Bytes.utf8 "authorization", Bytes.utf8 "Bearer token")]⟩]).getD {}

def slowRun : Option Process :=
  Transition.run (Process.step composeSettings slowDecoders) slowProcess slowLabels

theorem answers_bounded_slow : ∃ task, (slowRun.getD {}).tasks[0]? = some task ∧
    ∀ question, (task.run composeSettings slowDecoders).status ≠ .suspended question := by
  have hreached : slowRun.isSome = true ∧ 0 < slowProcess.tasks.length := by decide +kernel
  have hrun : slowRun = some (slowRun.getD {}) := by
    obtain ⟨next, hnext⟩ := Option.isSome_iff_exists.mp hreached.1
    rw [hnext]
    rfl
  exact (answers_bounded composeSettings slowDecoders hreached.2 hrun).2.1 rfl

/-! ### Requests that nothing has gone wrong with -/

/-- No exchange has failed, and the client is there. -/
structure Task.Intact (task : Task) : Prop where
  unbroken : ∀ fault, ¬ task.world.Raises fault
  stays : decision settings decoders task.scope task.world ≠ .hangUp

/-- An answer that breaks nothing. -/
def Answer.Good : Answer → Prop
  | .message received => received ≠ .disconnect
  | .verifyHead reply => ∃ head, reply = .ok head
  | .verifyBody reply => ∃ raw, reply = .ok raw
  | .dataHead reply => ∃ head, reply = .ok head
  | .dataChunk _ => True
  | .dataEnd bodyEnd => bodyEnd = .complete

theorem World.unbroken_feed {world : World} (h : ∀ fault, ¬ world.Raises fault) {answer : Answer}
    (hgood : answer.Good) (fault : Fault) : ¬ (world.feed answer).Raises fault := by
  intro hraises
  apply h fault
  cases answer with
  | message message => exact hraises
  | dataChunk chunk => exact hraises
  | verifyHead reply =>
      obtain ⟨head, rfl⟩ := hgood
      obtain hhead | hothers := hraises
      · cases hhead
      · exact .inr hothers
  | verifyBody reply =>
      obtain ⟨raw, rfl⟩ := hgood
      obtain hhead | hbody | hothers := hraises
      · exact .inl hhead
      · cases hbody
      · exact .inr (.inr hothers)
  | dataHead reply =>
      obtain ⟨head, rfl⟩ := hgood
      obtain hhead | hbody | hdata | hend := hraises
      · exact .inl hhead
      · exact .inr (.inl hbody)
      · cases hdata
      · exact .inr (.inr (.inr hend))
  | dataEnd bodyEnd =>
      obtain rfl := hgood
      obtain hhead | hbody | hdata | hend := hraises
      · exact .inl hhead
      · exact .inr (.inl hbody)
      · exact .inr (.inr (.inl hdata))
      · cases hend

theorem Task.resume_stays {task : Task} {answer : Answer}
    (h : (task.run settings decoders).status = .suspended answer.question)
    (hgood : answer ≠ .message .disconnect) :
    decision settings decoders task.scope (task.resume answer).world ≠ .hangUp := by
  obtain ⟨hwait, -⟩ | ⟨⟨request, -, hforward⟩, -⟩ := Task.resume_cases settings decoders h
  · cases route_cases settings decoders task.scope with
    | fixed made hdecided hstays hdecision =>
        rw [hdecision]
        exact hstays
    | verified authorization hcalls hdecision =>
        rw [hdecision]
        cases verdict decoders (task.resume answer).world <;> exact Decision.noConfusion
    | body α decode request hdecision =>
        rw [hdecision] at hwait ⊢
        obtain ⟨hpending, hquestion⟩ := pending_of_wait hwait
        cases answer with
        | message message =>
            rw [Task.resume, World.feed, delivery_snoc hpending]
            intro hgone
            cases message with
            | disconnect => exact hgood rfl
            | other type => cases hgone
            | request body moreBody =>
                simp only [delivery] at hgone
                split at hgone
                · cases hgone
                · exact absurd hgone (decodedDecision_ne_hangUp _ _)
        | _ => cases hquestion
  · rw [hforward]
    exact Decision.noConfusion

theorem Task.Intact.resume {task : Task} (h : task.Intact settings decoders) {answer : Answer}
    (hstatus : (task.run settings decoders).status = .suspended answer.question) (hgood : answer.Good) :
    (task.resume answer).Intact settings decoders := by
  refine ⟨World.unbroken_feed h.unbroken hgood, Task.resume_stays settings decoders hstatus ?_⟩
  rintro rfl
  exact hgood rfl

/-- A run that neither waits nor forwards is over. -/
theorem Task.over_of_decision {task : Task} {made : Decision}
    (h : decision settings decoders task.scope task.world = made) (hwait : ∀ question, made ≠ .wait question)
    (hforward : ∀ request, made ≠ .forward request) : task.stagesLeft settings decoders = 0 := by
  obtain ⟨hzero, -⟩ | ⟨question, hstatus, -⟩ := Task.stagesLeft_cases settings decoders task
  · exact hzero
  · obtain hsuspended | ⟨⟨request, hsuspended⟩, -⟩ := Task.suspended settings decoders hstatus
    · exact absurd (h.symm.trans hsuspended) (hwait question)
    · exact absurd (h.symm.trans hsuspended) (hforward request)

theorem Task.over_of_fault {task : Task} {fault : Fault}
    (h : decision settings decoders task.scope task.world = (verdictOnFault fault).decision settings task.scope) :
    task.stagesLeft settings decoders = 0 := by
  apply Task.over_of_decision settings decoders h
  · intro question hwait
    exact verdictOnFault_ne_waiting fault question (waiting_of_wait settings hwait)
  · intro request hforward
    cases fault <;> cases hforward

/-- Any other answer ends the wait: whatever the task does about it, it awaits nothing more. -/
theorem Task.resume_bad {task : Task} {answer : Answer}
    (h : (task.run settings decoders).status = .suspended answer.question) (hbad : ¬ answer.Good) :
    (task.resume answer).stagesLeft settings decoders = 0 := by
  obtain ⟨hwait, -⟩ | ⟨⟨request, hbefore, hforward⟩, -, hdata⟩ := Task.resume_cases settings decoders h
  · cases route_cases settings decoders task.scope with
    | fixed made hdecided hstays hdecision =>
        rw [hdecision] at hwait
        exact absurd hwait (hdecided _)
    | verified authorization hcalls hdecision =>
        rw [hdecision] at hwait
        have hbefore := waiting_of_wait settings hwait
        have hnext := hdecision (task.resume answer).world
        cases answer with
        | verifyHead reply =>
            cases reply with
            | ok head => exact absurd ⟨head, rfl⟩ hbad
            | error fault =>
                have hverdict : verdict decoders (task.resume (.verifyHead (.error fault))).world =
                    verdictOnFault fault := rfl
                rw [hverdict] at hnext
                exact Task.over_of_fault settings decoders hnext
        | verifyBody reply =>
            cases reply with
            | ok raw => exact absurd ⟨raw, rfl⟩ hbad
            | error fault =>
                obtain ⟨head, hhead, hstatus, -⟩ := head_of_waiting_body decoders hbefore
                have hverdict : verdict decoders (task.resume (.verifyBody (.error fault))).world =
                    verdictOnFault fault := by
                  simp only [verdict, Task.resume, World.feed, hhead, hstatus, ne_eq, not_true_eq_false,
                    if_false]
                rw [hverdict] at hnext
                exact Task.over_of_fault settings decoders hnext
        | _ => obtain ⟨hquestion, -⟩ | ⟨hquestion, -⟩ := verdict_waiting decoders hbefore <;> cases hquestion
    | body α decode request hdecision =>
        rw [hdecision] at hwait
        have hnext := hdecision (task.resume answer).world
        obtain ⟨hpending, hquestion⟩ := pending_of_wait hwait
        cases answer with
        | message message =>
            obtain rfl : message = .disconnect := by
              by_contra hne
              exact hbad hne
            rw [Task.resume, World.feed, delivery_snoc hpending] at hnext
            exact Task.over_of_decision settings decoders hnext (fun _ => Decision.noConfusion)
              fun _ => Decision.noConfusion
        | _ => cases hquestion
  · have hdecided : ∀ question,
        decision settings decoders (task.resume answer).scope (task.resume answer).world ≠ .wait question := by
      intro question hwait
      exact Decision.noConfusion (hforward.symm.trans hwait)
    obtain hzero | ⟨hnone, -⟩ | ⟨⟨head, hhead⟩, hnone, -⟩ := Task.stagesLeft_decided settings decoders hdecided
    · exact hzero
    · cases answer with
      | dataHead reply => cases hnone
      | dataEnd bodyEnd =>
          obtain ⟨⟨head, hhead⟩, -⟩ := Task.streaming settings decoders h
          exact absurd (hhead.symm.trans hnone) (Option.some_ne_none _)
      | dataChunk chunk => exact absurd trivial hbad
      | _ => obtain ⟨hquestion, -⟩ | hquestion := hdata <;> cases hquestion
    · cases answer with
      | dataHead reply =>
          obtain rfl := Option.some.inj hhead
          exact absurd ⟨head, rfl⟩ hbad
      | dataEnd bodyEnd => cases hnone
      | dataChunk chunk => exact absurd trivial hbad
      | _ => obtain ⟨hquestion, -⟩ | hquestion := hdata <;> cases hquestion

/-- A request that has just arrived. -/
theorem Task.intact_arrived (scope : Scope) : ({ scope := scope } : Task).Intact settings decoders := by
  refine ⟨fun fault hraises => ?_, ?_⟩
  · obtain hhead | hbody | hdata | hend := hraises
    · cases hhead
    · cases hbody
    · cases hdata
    · cases hend
  · cases route_cases settings decoders scope with
    | fixed made hdecided hstays hdecision =>
        rw [hdecision]
        exact hstays
    | verified authorization hcalls hdecision =>
        rw [hdecision]
        exact Decision.noConfusion
    | body α decode request hdecision =>
        rw [hdecision]
        exact Decision.noConfusion

/-- In every state a process reaches, nothing has gone wrong with the requests that still wait. -/
theorem Process.run_intact {labels : List Label} {process : Process}
    (hrun : Process.run settings decoders labels = some process) {id : Nat} {task : Task}
    (htask : process.tasks[id]? = some task) (hwaits : task.stagesLeft settings decoders ≠ 0) :
    task.Intact settings decoders := by
  have hall := Transition.run_invariant (Process.step settings decoders)
    (I := fun p => ∀ (id : Nat) (task : Task), p.tasks[id]? = some task → task.stagesLeft settings decoders ≠ 0 →
      task.Intact settings decoders)
    (fun p label p' hp hstep id task htask hwaits => by
      obtain ⟨scope, rfl, rfl⟩ | ⟨other, answer, told, rfl, htold, hstatus, rfl⟩ :=
        Process.step_cases settings decoders hstep
      · rw [dispatch_tasks] at htask
        by_cases hnew : id = p.tasks.length
        · subst hnew
          rw [List.getElem?_concat_length] at htask
          obtain rfl := Option.some.inj htask
          exact Task.intact_arrived settings decoders scope
        · rw [Transition.getElem?_snoc_of_ne hnew] at htask
          exact hp id task htask hwaits
      · rw [dispatch_tasks] at htask
        by_cases hsame : other = id
        · subst hsame
          rw [List.getElem?_set_self (List.getElem?_eq_some_iff.mp htold).1] at htask
          obtain rfl := Option.some.inj htask
          have hgood : answer.Good := by
            by_contra hbad
            exact hwaits (Task.resume_bad settings decoders hstatus hbad)
          have htold : told.stagesLeft settings decoders ≠ 0 := by
            rw [Task.stagesLeft_of_suspended settings decoders hstatus]
            exact Nat.ne_of_gt answer.question.stage_pos
          exact (hp other told ‹_› htold).resume settings decoders hstatus hgood
        · rw [List.getElem?_set_ne hsame] at htask
          exact hp id task htask hwaits)
    (fun id task htask _ => by cases htask) hrun
  exact hall id task htask hwaits

/-- Once it is over, a request that nothing has gone wrong with has an error of the gateway's own, or the
whole reply of data-service; unless its decoder raised an exception that the handlers do not name. -/
theorem Task.Intact.answered {task : Task} (h : task.Intact settings decoders)
    (hover : task.stagesLeft settings decoders = 0) :
    ((task.run settings decoders).status = .returned () ∧
      ((∃ status detail, sent (task.run settings decoders).log = errorEvents status detail) ∨
        ∃ head, task.world.dataHead = some (.ok head) ∧ task.world.dataEnd = some .complete ∧
          sent (task.run settings decoders).log = relayedEvents task.world head ++ [endBodyMessage])) ∨
      DecodingEscapes decoders task.scope task.world := by
  have hwaits := (Task.stagesLeft_eq_zero settings decoders).mp hover
  have hjustified := decision_justified settings decoders task.scope task.world
  have hstays := h.stays
  rw [Task.run, asgiApp_eq, prepend_status] at hwaits ⊢
  rw [prepend_log, sent_append, sent_authCalls, List.nil_append]
  cases hdecision : decision settings decoders task.scope task.world with
  | answer status detail => exact .inl ⟨rfl, .inl ⟨status, detail, rfl⟩⟩
  | wait question =>
      rw [hdecision] at hwaits
      exact absurd rfl (hwaits question)
  | hangUp => exact absurd hdecision hstays
  | escape exc =>
      rw [hdecision] at hjustified
      obtain ⟨fault, rfl, hescaped⟩ | ⟨raised, -, hunnamed, hraises⟩ := hjustified
      · obtain ⟨other, hfault, hraises, -⟩ | ⟨raised, head, raw, hfault, -⟩ :=
          verdict_escaped decoders hescaped
        · cases hfault
          exact absurd (hraises.imp_right .inl) (h.unbroken fault)
        · cases hfault
      · exact .inr ⟨raised, hunnamed, hraises⟩
  | forward request =>
      rw [hdecision] at hwaits
      rw [Decision.toPy, proxy_eq, prepend_handle, prepend_status, exchange] at hwaits ⊢
      rw [prepend_log, sent_append]
      cases hhead : task.world.dataHead with
      | none =>
          rw [hhead] at hwaits
          exact absurd rfl (hwaits .dataHead)
      | some reply =>
          cases reply with
          | error fault => exact absurd (.inr (.inr (.inl hhead))) (h.unbroken fault)
          | ok head =>
              rw [hhead] at hwaits
              simp only [relayResponse_eq, prepend_handle, prepend_status, prepend_log, sent_append,
                sent_map_send] at hwaits ⊢
              cases hend : task.world.dataEnd with
              | none =>
                  rw [hend] at hwaits
                  exact absurd rfl (hwaits .dataChunk)
              | some bodyEnd =>
                  cases bodyEnd with
                  | complete => exact .inl ⟨rfl, .inr ⟨head, rfl, rfl, rfl⟩⟩
                  | broken fault => exact absurd (.inr (.inr (.inr hend))) (h.unbroken fault)

end ApigateBenchmark.GatewayPython
