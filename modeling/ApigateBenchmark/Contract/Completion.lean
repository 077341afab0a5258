import ApigateBenchmark.Contract.LookupResults

/-!
# No request is ever stuck

Whatever state the three processes have come to together, a request of the gateway that still waits can be
brought to its end by steps of its own: the rest of its body, the way of its call to auth-service and what
`Verify` does with it, and the two replies, whole. It waits for no other request, and disturbs none.
-/

namespace ApigateBenchmark.Contract

open Coroutine GatewayPython Transition

variable {d : Deployment}

/-! ### Every call that is made is answered -/

/-- data-service answers whatever the gateway forwards. -/
theorem serve_forwarded (hbase : d.settings.originBaseUrl.path = "") (hempty : d.toLower [] = [])
    {scope : Scope} {world : World} {call : WireCall}
    (hforward : decision d.settings d.decoders scope world = .forward call.request) :
    ∃ reply, DataService.serve d.toLower d.catalogue call.request.method call.request.url.path
      (transmit call.onWire) = some reply := by
  have hjustified := decision_justified d.settings d.decoders scope world
  rw [hforward] at hjustified
  obtain hcall | ⟨user, -, hcall⟩ | ⟨body, payload, -, hcall⟩ | ⟨body, payload, -, hcall⟩ := hjustified
  · have hpath : (itemsRequest d.settings scope).url.path = "/items" := path_of_base hbase "/items"
    have hmethod : (itemsRequest d.settings scope).method = "GET" := rfl
    rw [hcall, hpath, hmethod, DataService.serve, if_pos ⟨rfl, rfl⟩]
    exact ⟨_, rfl⟩
  · have hpath : (myItemsRequest d.settings scope user).url.path = "/my-items" :=
      path_of_base hbase "/my-items"
    have hmethod : (myItemsRequest d.settings scope user).method = "GET" := rfl
    rw [hcall, hpath, hmethod, DataService.serve, if_neg (by decide), if_pos ⟨rfl, rfl⟩]
    exact ⟨_, rfl⟩
  · have hpath : (searchRequest d.settings scope body).url.path = "/items/search" :=
      path_of_base hbase "/items/search"
    have hmethod : (searchRequest d.settings scope body).method = "POST" := rfl
    rw [hcall, hpath, hmethod, DataService.serve, if_neg (by decide), if_neg (by decide), if_pos ⟨rfl, rfl⟩]
    exact ⟨_, rfl⟩
  · have hpath : (lookupRequest d.settings scope payload).url.path = "/items/lookup" :=
      path_of_base hbase "/items/lookup"
    have hmethod : (lookupRequest d.settings scope payload).method = "POST" := rfl
    have hdata : (transmit call.onWire).body = encodeLookup (lookupInternal payload) := by
      show call.request.data.getD [] = _
      rw [hcall, lookupRequest, Option.getD_some]
    rw [hcall, hpath, hmethod, DataService.serve, if_neg (by decide), if_neg (by decide), if_neg (by decide),
      if_pos ⟨rfl, rfl⟩]
    exact ⟨_, lookup_encoded hempty d.products payload hdata⟩

/-- A call a task has made is on the wire. -/
theorem exists_callTo {settings : Settings} {decoders : Decoders} {process : Process}
    (hconsistent : process.Consistent settings decoders) {id : Nat} {task : Task}
    (htask : process.tasks[id]? = some task) {service : GatewayPython.Service} {request : UpstreamRequest}
    (hcall : (service, request) ∈ task.calls settings decoders) :
    ∃ call, callTo process id service = some call := by
  rw [← hconsistent.calls id task htask] at hcall
  obtain ⟨call, hmem, hmade⟩ := List.mem_map.mp hcall
  apply Option.isSome_iff_exists.mp
  rw [callTo, List.find?_isSome]
  exact ⟨call, hmem, beq_iff_eq.mpr (congrArg Prod.fst hmade)⟩

/-! ### How far a request has come -/

/-- What the task awaits. -/
def System.awaits (d : Deployment) (s : System) (id : Nat) : Option Question :=
  (s.gateway.tasks[id]?).bind fun task =>
    match (task.run d.settings d.decoders).status with
    | .suspended question => some question
    | _ => none

/-- All that data-service replied has reached the task. -/
def System.allReceived (d : Deployment) (s : System) (id : Nat) : Bool :=
  (s.dataReply d id).any fun reply => s.received id == reply.payload.marshal

/-- The events that a request is still from its end, if nothing else happens. -/
def System.distance (d : Deployment) (s : System) (id : Nat) : Nat :=
  match s.awaits d id with
  | none => 0
  | some .verifyHead => ((s.connected id).map fun request => 5 + s.auth.remaining request).getD 10
  | some .dataChunk => if s.allReceived d id then 1 else 2
  | some question => question.stage + 1

theorem System.awaits_of_task {s : System} {id : Nat} {task : Task} (htask : s.gateway.tasks[id]? = some task)
    {question : Question} (hstatus : (task.run d.settings d.decoders).status = .suspended question) :
    s.awaits d id = some question := by
  rw [System.awaits, htask, Option.bind_some, hstatus]

theorem System.awaits_over {s : System} {id : Nat} {task : Task} (htask : s.gateway.tasks[id]? = some task)
    (hover : task.stagesLeft d.settings d.decoders = 0) : s.awaits d id = none := by
  rw [System.awaits, htask, Option.bind_some]
  split
  · rename_i question hstatus
    exact absurd hstatus ((Task.stagesLeft_eq_zero d.settings d.decoders).mp hover question)
  · rfl

theorem System.distance_over {s : System} {id : Nat} {task : Task} (htask : s.gateway.tasks[id]? = some task)
    (hover : task.stagesLeft d.settings d.decoders = 0) : s.distance d id = 0 := by
  rw [System.distance, System.awaits_over htask hover]

/-- Past the verification, the distance is about the number of stages left. -/
theorem System.distance_le {s : System} {id : Nat} {task : Task} (htask : s.gateway.tasks[id]? = some task)
    (hleft : task.stagesLeft d.settings d.decoders ≤ 3) :
    s.distance d id ≤ task.stagesLeft d.settings d.decoders + 1 := by
  obtain ⟨hover, -⟩ | ⟨question, hstatus, hstage⟩ := Task.stagesLeft_cases d.settings d.decoders task
  · rw [System.distance_over htask hover]
    exact Nat.zero_le _
  · rw [hstage] at hleft ⊢
    rw [System.distance, System.awaits_of_task htask hstatus]
    cases question with
    | verifyHead =>
        have hfour : Question.verifyHead.stage = 4 := rfl
        omega
    | dataChunk =>
        have hone : Question.dataChunk.stage = 1 := rfl
        dsimp only
        split <;> omega
    | _ => exact Nat.le_refl _

theorem System.le_distance {s : System} {id : Nat} {task : Task} (htask : s.gateway.tasks[id]? = some task)
    {question : Question} (hstatus : (task.run d.settings d.decoders).status = .suspended question) :
    question.stage ≤ s.distance d id ∧ (question ≠ .dataChunk → question.stage < s.distance d id) := by
  rw [System.distance, System.awaits_of_task htask hstatus]
  cases question with
  | verifyHead =>
      have hfour : Question.verifyHead.stage = 4 := rfl
      cases s.connected id with
      | none =>
          simp only [Option.map_none, Option.getD_none]
          omega
      | some request =>
          simp only [Option.map_some, Option.getD_some]
          omega
  | dataChunk =>
      have hone : Question.dataChunk.stage = 1 := rfl
      refine ⟨?_, fun h => absurd rfl h⟩
      dsimp only
      split <;> omega
  | _ => exact ⟨Nat.le_succ _, fun _ => Nat.lt_succ_self _⟩

/-! ### Steps of its own -/

/-- An event of the request itself, or of auth-service at work. Nothing breaks, except that aiohttp may find
the headers of a call impossible to write. -/
def Event.Own (id : Nat) : Event → Prop
  | .client _ => False
  | .deliver task answer => task = id ∧ (answer.Good ∨
      ∃ text, answer = .verifyHead (.error (.valueError text)) ∨ answer = .dataHead (.error (.valueError text)))
  | .connect task => task = id
  | .auth label => ∃ request, label = .advance request

/-- The other requests, at the gateway and at auth-service, are where they were. -/
structure System.Keeps (id : Nat) (s s' : System) : Prop where
  tasks : ∀ other, other ≠ id → s'.gateway.tasks[other]? = s.gateway.tasks[other]?
  requests : ∀ request, request < s.auth.tasks.length → s.connected id ≠ some request →
    s'.auth.tasks[request]? = s.auth.tasks[request]?
  grows : s.auth.tasks.length ≤ s'.auth.tasks.length
  connected : ∀ other, other ≠ id → s'.connected other = s.connected other
  fresh : ∀ request, s'.connected id = some request →
    s.connected id = some request ∨ s.auth.tasks.length ≤ request

theorem System.Keeps.refl (id : Nat) (s : System) : s.Keeps id s :=
  ⟨fun _ _ => rfl, fun _ _ _ => rfl, Nat.le_refl _, fun _ _ => rfl, fun _ h => .inl h⟩

theorem System.Keeps.trans {id : Nat} {s t u : System} (hst : s.Keeps id t) (htu : t.Keeps id u) :
    s.Keeps id u where
  tasks other hne := (htu.tasks other hne).trans (hst.tasks other hne)
  requests request hold hother := by
    have hstill : t.connected id ≠ some request := by
      intro hconnected
      obtain h | h := hst.fresh request hconnected
      · exact hother h
      · omega
    rw [htu.requests request (Nat.lt_of_lt_of_le hold hst.grows) hstill, hst.requests request hold hother]
  grows := Nat.le_trans hst.grows htu.grows
  connected other hne := (htu.connected other hne).trans (hst.connected other hne)
  fresh request hconnected := by
    obtain h | h := htu.fresh request hconnected
    · exact hst.fresh request h
    · exact .inr (Nat.le_trans hst.grows h)

/-- A call of the task has a header that cannot be written. -/
def Unwritable (writes : String → Bool) (process : Process) (id : Nat) : Prop :=
  ∃ call ∈ process.callsOf id, ¬ Serializable writes call.onWire

/-- One step of its own brings the request nearer. -/
structure System.Nearer (d : Deployment) (s : System) (id : Nat) (task : Task) (event : Event) (s' : System) :
    Prop where
  own : event.Own id
  step : s.step d event = some s'
  keeps : s.Keeps id s'
  nearer : s'.distance d id < s.distance d id
  goes : ∃ task', s'.gateway.tasks[id]? = some task' ∧ task'.scope = task.scope ∧
    (task'.Intact d.settings d.decoders ∨
      task'.stagesLeft d.settings d.decoders = 0 ∧ Unwritable d.writes s'.gateway id)

/-- A permitted answer is taken. -/
theorem System.deliver_eq {s : System} {id : Nat} {task : Task} (htask : s.gateway.tasks[id]? = some task)
    {answer : Answer} (hstatus : (task.run d.settings d.decoders).status = .suspended answer.question)
    (hpermits : s.permits d id answer = true) : ∃ gateway,
      s.step d (.deliver id answer) = some { s with gateway } ∧
      s.gateway.step d.settings d.decoders (.deliver id answer) = some gateway ∧
      gateway.tasks[id]? = some (task.resume answer) ∧ s.Keeps id { s with gateway } := by
  have hid := (List.getElem?_eq_some_iff.mp htask).1
  obtain ⟨gateway, hstep⟩ : ∃ gateway,
      s.gateway.step d.settings d.decoders (.deliver id answer) = some gateway := by
    rw [Process.step, htask]
    exact ⟨_, if_pos hstatus⟩
  refine ⟨gateway, by rw [System.step, if_pos hpermits, hstep, Option.map_some], hstep, ?_, ?_⟩
  all_goals
    obtain ⟨scope, hlabel, -⟩ | ⟨id', answer', told, hlabel, htold, -, rfl⟩ :=
      Process.step_cases d.settings d.decoders hstep
    · cases hlabel
    cases hlabel
    obtain rfl := Option.some.inj (htask.symm.trans htold)
  · exact List.getElem?_set_self hid
  · exact ⟨fun other hne => List.getElem?_set_ne (Ne.symm hne), fun _ _ _ => rfl, Nat.le_refl _,
      fun _ _ => rfl, fun _ h => .inl h⟩

/-- A good answer that is no part of a body. -/
theorem System.nearer_of_good {s : System} {id : Nat} {task : Task}
    (htask : s.gateway.tasks[id]? = some task) (hintact : task.Intact d.settings d.decoders) {answer : Answer}
    (hstatus : (task.run d.settings d.decoders).status = .suspended answer.question)
    (hpermits : s.permits d id answer = true) (hgood : answer.Good) (hpart : answer.isPart = false) :
    ∃ event s', s.Nearer d id task event s' := by
  obtain ⟨gateway, hstep, -, hresumed, hkeeps⟩ := System.deliver_eq htask hstatus hpermits
  have hresumed' : ({ s with gateway } : System).gateway.tasks[id]? = some (task.resume answer) := hresumed
  refine ⟨.deliver id answer, _, ⟨rfl, .inl hgood⟩, hstep, hkeeps, ?_, _, hresumed', rfl,
    .inl (hintact.resume d.settings d.decoders hstatus hgood)⟩
  have hstage := Task.resume_stage d.settings d.decoders hstatus
  rw [hpart, if_neg Bool.false_ne_true] at hstage
  obtain ⟨hfar, hfarther⟩ := System.le_distance htask hstatus
  by_cases hover : (task.resume answer).stagesLeft d.settings d.decoders = 0
  · rw [System.distance_over hresumed' hover]
    omega
  · have hchunk : answer.question ≠ .dataChunk := by
      intro hquestion
      have hone : answer.question.stage = 1 := by rw [hquestion]; rfl
      omega
    have hfour := answer.question.stage_le
    have hnear := System.distance_le (d := d) hresumed' (by omega)
    have hfarther := hfarther hchunk
    omega

/-- aiohttp finds that it cannot write the headers of the call. -/
theorem System.nearer_of_unwritable {s : System} {id : Nat} {task : Task}
    (htask : s.gateway.tasks[id]? = some task) {answer : Answer} {text : String}
    (hanswer : answer = .verifyHead (.error (.valueError text)) ∨
      answer = .dataHead (.error (.valueError text)))
    (hstatus : (task.run d.settings d.decoders).status = .suspended answer.question)
    {service : GatewayPython.Service} {call : WireCall} (hcall : callTo s.gateway id service = some call)
    (hwritten : ¬ Serializable d.writes call.onWire) : ∃ event s', s.Nearer d id task event s' := by
  have hpermits : s.permits d id answer = true := by
    obtain rfl | rfl := hanswer <;> rfl
  have hbad : ¬ answer.Good := by
    obtain rfl | rfl := hanswer <;> exact nofun
  obtain ⟨gateway, hstep, hgateway, hresumed, hkeeps⟩ := System.deliver_eq htask hstatus hpermits
  have hresumed' : ({ s with gateway } : System).gateway.tasks[id]? = some (task.resume answer) := hresumed
  have hover := Task.resume_bad d.settings d.decoders hstatus hbad
  have hstill := callTo_mem (callTo_step hgateway hcall)
  refine ⟨.deliver id answer, _, ⟨rfl, .inr ⟨text, hanswer⟩⟩, hstep, hkeeps, ?_, _, hresumed', rfl,
    .inr ⟨hover, call, hstill.1, hwritten⟩⟩
  obtain ⟨hfar, -⟩ := System.le_distance htask hstatus
  have hpos := answer.question.stage_pos
  rw [System.distance_over hresumed' hover]
  omega

/-! ### A step for each place to wait at -/

theorem System.nearer_of_receive {s : System} {id : Nat} {task : Task}
    (htask : s.gateway.tasks[id]? = some task) (hintact : task.Intact d.settings d.decoders)
    (hstatus : (task.run d.settings d.decoders).status = .suspended .receive) :
    ∃ event s', s.Nearer d id task event s' :=
  @System.nearer_of_good d s id task htask hintact (.message (.request none none)) hstatus rfl nofun rfl

/-- The call of a task that waits for `Verify`. -/
theorem System.Coherent.exists_verifyCall {s : System} (hcoherent : s.Coherent d) {id : Nat} {task : Task}
    (htask : s.gateway.tasks[id]? = some task)
    (hstatus : (task.run d.settings d.decoders).status = .suspended .verifyHead) :
    ∃ call, callTo s.gateway id .auth = some call := by
  obtain ⟨labels, hgateway⟩ := hcoherent.gateway
  obtain ⟨⟨authorization, hcalls⟩, -⟩ := Task.calls_of_waiting d.settings d.decoders hstatus (.inl rfl)
  have hmade : (GatewayPython.Service.auth, verifyRequest d.settings authorization) ∈
      task.calls d.settings d.decoders := by
    rw [Task.calls_eq, verifyCalls, hcalls]
    exact List.mem_cons_self
  exact exists_callTo (Process.run_consistent d.settings d.decoders hgateway) htask hmade

/-- The call reaches auth-service. -/
theorem System.nearer_of_connect {s : System} {id : Nat} {task : Task}
    (htask : s.gateway.tasks[id]? = some task) (hintact : task.Intact d.settings d.decoders)
    (hstatus : (task.run d.settings d.decoders).status = .suspended .verifyHead) {call : WireCall}
    (hcall : callTo s.gateway id .auth = some call) (hwritten : Serializable d.writes call.onWire)
    (hfree : s.connected id = none) : ∃ event s', s.Nearer d id task event s' := by
  have hawaits := System.awaits_of_task htask hstatus
  have hstep : s.step d (.connect id) = some
      { s with
        auth := { s.auth with tasks := s.auth.tasks ++ [⟨.verify (presented call), .arrived⟩] }
        connected := Function.update s.connected id (some s.auth.tasks.length) } := by
    rw [System.step, hcall, hfree]
    simp only [if_pos hwritten]
    rfl
  refine ⟨.connect id, _, rfl, hstep, ?_, ?_, task, htask, rfl, .inl hintact⟩
  · refine ⟨fun _ _ => rfl, fun request hold _ => List.getElem?_append_left hold, ?_, fun other hne =>
      Function.update_of_ne hne _ _, fun request hrequest => .inr ?_⟩
    · simp only [List.length_append, Nat.le_add_right]
    · simp only [Function.update_self, Option.some.injEq] at hrequest
      exact Nat.le_of_eq hrequest
  · have hafter : System.awaits d
        { s with
          auth := { s.auth with tasks := s.auth.tasks ++ [⟨.verify (presented call), .arrived⟩] }
          connected := Function.update s.connected id (some s.auth.tasks.length) } id =
        some .verifyHead := hawaits
    have hlast : (s.auth.tasks ++ [⟨.verify (presented call), .arrived⟩])[s.auth.tasks.length]? =
        some ⟨.verify (presented call), .arrived⟩ := List.getElem?_concat_length
    have harrived : AuthService.Service.remaining
        { s.auth with tasks := s.auth.tasks ++ [⟨.verify (presented call), .arrived⟩] } s.auth.tasks.length = 4 := by
      rw [AuthService.Service.remaining, hlast]
      rfl
    rw [System.distance, System.distance, hafter, hawaits]
    simp only [Function.update_self, Option.map_some, Option.getD_some, hfree, Option.map_none, Option.getD_none,
      harrived]
    omega

/-- auth-service takes a step for the request. -/
theorem System.Coherent.nearer_of_advance {s : System} (hcoherent : s.Coherent d) {id : Nat} {task : Task}
    (htask : s.gateway.tasks[id]? = some task) (hintact : task.Intact d.settings d.decoders)
    (hstatus : (task.run d.settings d.decoders).status = .suspended .verifyHead) {request : Nat}
    (hconnected : s.connected id = some request) (hopen : s.auth.answer request = none) :
    ∃ event s', s.Nearer d id task event s' := by
  have hawaits := System.awaits_of_task htask hstatus
  obtain ⟨call, progress, -, hrequest⟩ := hcoherent.connected id request hconnected
  have hid := (List.getElem?_eq_some_iff.mp hrequest).1
  obtain ⟨labels, hauth⟩ := hcoherent.auth
  obtain ⟨auth, hstep⟩ := (AuthService.Service.run_sound hauth).enabled hid hopen
  have hsteps := AuthService.Service.step_spec hstep
  have hless := (hsteps.remaining_le hid).2
  refine ⟨.auth (.advance request), { s with auth }, ⟨request, rfl⟩, ?_, ?_, ?_, task, htask, rfl,
    .inl hintact⟩
  · rw [System.step, hstep, Option.map_some]
  · cases hsteps with
    | @advances _ _ _ after store _ _ =>
        refine ⟨fun _ _ => rfl, fun other _ hother => ?_, Nat.le_of_eq (List.length_set).symm, fun _ _ => rfl,
          fun _ h => .inl h⟩
        apply List.getElem?_set_ne
        rintro rfl
        exact hother hconnected
  · have hafter : System.awaits d { s with auth } id = some .verifyHead := hawaits
    rw [System.distance, System.distance, hafter, hawaits]
    simp only [hconnected, Option.map_some, Option.getD_some]
    simp only [AuthService.Label.stepOf, beq_self_eq_true, if_true] at hless
    omega

theorem System.Coherent.nearer_of_verifyHead {s : System} (hcoherent : s.Coherent d) {id : Nat} {task : Task}
    (htask : s.gateway.tasks[id]? = some task) (hintact : task.Intact d.settings d.decoders)
    (hstatus : (task.run d.settings d.decoders).status = .suspended .verifyHead) :
    ∃ event s', s.Nearer d id task event s' := by
  obtain ⟨call, hcall⟩ := hcoherent.exists_verifyCall htask hstatus
  by_cases hwritten : Serializable d.writes call.onWire
  · cases hconnected : s.connected id with
    | none => exact System.nearer_of_connect htask hintact hstatus hcall hwritten hconnected
    | some request =>
        cases hanswer : s.auth.answer request with
        | none => exact hcoherent.nearer_of_advance htask hintact hstatus hconnected hanswer
        | some answer =>
            have hreply : s.verifyReply id = some answer.1 := by
              rw [System.verifyReply, hconnected, Option.bind_some, hanswer, Option.map_some]
            have hpermits : s.permits d id (.verifyHead (.ok ⟨answer.1.status, []⟩)) = true := by
              rw [System.permits, hreply, Option.any_some]
              exact beq_self_eq_true _
            exact @System.nearer_of_good d s id task htask hintact (.verifyHead (.ok ⟨answer.1.status, []⟩))
              hstatus hpermits ⟨_, rfl⟩ rfl
  · exact @System.nearer_of_unwritable d s id task htask (.verifyHead (.error (.valueError ""))) "" (.inl rfl)
      hstatus .auth call hcall hwritten

theorem System.Coherent.nearer_of_verifyBody {s : System} (hcoherent : s.Coherent d) {id : Nat} {task : Task}
    (htask : s.gateway.tasks[id]? = some task) (hintact : task.Intact d.settings d.decoders)
    (hstatus : (task.run d.settings d.decoders).status = .suspended .verifyBody) :
    ∃ event s', s.Nearer d id task event s' := by
  obtain ⟨-, hverdict⟩ := Task.calls_of_waiting d.settings d.decoders hstatus (.inr rfl)
  obtain ⟨head, hhead, -, -⟩ := head_of_waiting_body d.decoders hverdict
  obtain ⟨reply, hreply, -⟩ := (hcoherent.faithful id task htask).verifyHead head hhead
  have hpermits : s.permits d id (.verifyBody (.ok reply.payload.marshal)) = true := by
    rw [System.permits, hreply, Option.any_some]
    exact beq_self_eq_true _
  exact @System.nearer_of_good d s id task htask hintact (.verifyBody (.ok reply.payload.marshal))
    hstatus hpermits ⟨_, rfl⟩ rfl

/-- The call of a task that waits for data-service, and the reply to it. -/
theorem System.Coherent.exists_dataCall {s : System} (hcoherent : s.Coherent d)
    (hbase : d.settings.originBaseUrl.path = "") (hempty : d.toLower [] = []) {id : Nat} {task : Task}
    (htask : s.gateway.tasks[id]? = some task)
    (hstatus : (task.run d.settings d.decoders).status = .suspended .dataHead) :
    ∃ call, callTo s.gateway id .data = some call ∧
      (Serializable d.writes call.onWire → ∃ reply, s.dataReply d id = some reply) := by
  obtain ⟨labels, hgateway⟩ := hcoherent.gateway
  obtain hwait | ⟨⟨request, hforward⟩, -⟩ := Task.suspended d.settings d.decoders hstatus
  · obtain h | ⟨h, -⟩ | h := decision_wait d.settings d.decoders hwait <;> cases h
  · have hmade : (GatewayPython.Service.data, request) ∈ task.calls d.settings d.decoders := by
      rw [Task.calls_eq, hforward, List.mem_append]
      exact .inr List.mem_cons_self
    obtain ⟨call, hcall⟩ := exists_callTo (Process.run_consistent d.settings d.decoders hgateway) htask hmade
    refine ⟨call, hcall, fun hwritten => ?_⟩
    obtain ⟨reply, hserve⟩ := serve_forwarded hbase hempty (forward_of_callTo hgateway htask hcall)
    refine ⟨reply, ?_⟩
    rw [System.dataReply, hcall, Option.bind_some, if_pos hwritten, hserve]

theorem System.Coherent.nearer_of_dataHead {s : System} (hcoherent : s.Coherent d)
    (hbase : d.settings.originBaseUrl.path = "") (hempty : d.toLower [] = []) {id : Nat} {task : Task}
    (htask : s.gateway.tasks[id]? = some task) (hintact : task.Intact d.settings d.decoders)
    (hstatus : (task.run d.settings d.decoders).status = .suspended .dataHead) :
    ∃ event s', s.Nearer d id task event s' := by
  obtain ⟨call, hcall, hserved⟩ := hcoherent.exists_dataCall hbase hempty htask hstatus
  by_cases hwritten : Serializable d.writes call.onWire
  · obtain ⟨reply, hreply⟩ := hserved hwritten
    have hpermits : s.permits d id (.dataHead (.ok ⟨reply.status, []⟩)) = true := by
      rw [System.permits, hreply, Option.any_some]
      exact beq_self_eq_true _
    exact @System.nearer_of_good d s id task htask hintact (.dataHead (.ok ⟨reply.status, []⟩))
      hstatus hpermits ⟨_, rfl⟩ rfl
  · exact @System.nearer_of_unwritable d s id task htask (.dataHead (.error (.valueError ""))) "" (.inr rfl)
      hstatus .data call hcall hwritten

/-- data-service replies, or has replied, with the rest of the body and with its end. -/
theorem System.Coherent.nearer_of_dataChunk {s : System} (hcoherent : s.Coherent d) {id : Nat} {task : Task}
    (htask : s.gateway.tasks[id]? = some task) (hintact : task.Intact d.settings d.decoders)
    (hstatus : (task.run d.settings d.decoders).status = .suspended .dataChunk) :
    ∃ event s', s.Nearer d id task event s' := by
  have hfaithful := hcoherent.faithful id task htask
  have hawaits := System.awaits_of_task htask hstatus
  obtain ⟨⟨head, hhead⟩, -⟩ := Task.streaming d.settings d.decoders hstatus
  obtain ⟨reply, hreply, -⟩ := hfaithful.dataHead head hhead
  cases hall : s.allReceived d id with
  | true =>
      exact @System.nearer_of_good d s id task htask hintact (.dataEnd .complete) hstatus hall rfl rfl
  | false =>
      have hreceived : s.received id = task.world.dataChunks.flatten := by
        rw [System.received, htask, Option.map_some, Option.getD_some]
      obtain ⟨rest, hrest⟩ : s.received id <+: reply.payload.marshal := by
        rw [hreceived]
        by_cases hnil : task.world.dataChunks = []
        · rw [hnil]
          exact List.nil_prefix
        · obtain ⟨other, hother, hprefix⟩ := hfaithful.dataChunks hnil
          obtain rfl := Option.some.inj (hreply.symm.trans hother)
          exact hprefix
      have hpermits : s.permits d id (.dataChunk rest) = true := by
        rw [System.permits, hreply, Option.any_some, hrest]
        exact List.isPrefixOf_iff_prefix.mpr (List.prefix_refl _)
      have hwaits : (task.run d.settings d.decoders).status = .suspended (Answer.dataChunk rest).question :=
        hstatus
      obtain ⟨gateway, hstep, hgateway, hresumed, hkeeps⟩ := System.deliver_eq htask hwaits hpermits
      have hresumed' : ({ s with gateway } : System).gateway.tasks[id]? =
          some (task.resume (.dataChunk rest)) := hresumed
      refine ⟨.deliver id (.dataChunk rest), _, ⟨rfl, .inl trivial⟩, hstep, hkeeps, ?_, _, hresumed', rfl,
        .inl (hintact.resume d.settings d.decoders hwaits trivial)⟩
      have htwo : s.distance d id = 2 := by
        rw [System.distance, hawaits]
        simp only [hall, Bool.false_eq_true, if_false]
      have hstage : (task.resume (.dataChunk rest)).stagesLeft d.settings d.decoders ≤ 1 :=
        Task.resume_stage d.settings d.decoders hwaits
      rw [htwo]
      obtain ⟨hover, -⟩ | ⟨question, hnext, hleft⟩ :=
        Task.stagesLeft_cases d.settings d.decoders (task.resume (.dataChunk rest))
      · rw [System.distance_over hresumed' hover]
        exact Nat.zero_lt_two
      · -- it waits for the end of the body now
        obtain rfl : question = .dataChunk := by
          rw [hleft] at hstage
          cases question <;> first | rfl | exact absurd hstage (by decide)
        have hlater := (System.step_spec hstep).later
        have hnow : System.received { s with gateway } id = reply.payload.marshal := by
          rw [System.received, hresumed', Option.map_some, Option.getD_some, ← hrest, hreceived]
          show (task.world.dataChunks ++ [rest]).flatten = _
          rw [List.flatten_append, List.flatten_singleton]
        have hdone : System.allReceived d { s with gateway } id = true := by
          rw [System.allReceived, hlater.lists id reply hreply, Option.any_some, hnow]
          exact beq_self_eq_true _
        rw [System.distance, System.awaits_of_task hresumed' hnext]
        simp only [hdone, if_true]
        exact Nat.one_lt_two

/-! ### All the way -/

theorem System.Coherent.nearer {s : System} (hcoherent : s.Coherent d)
    (hbase : d.settings.originBaseUrl.path = "") (hempty : d.toLower [] = []) {id : Nat} {task : Task}
    (htask : s.gateway.tasks[id]? = some task) (hintact : task.Intact d.settings d.decoders)
    {question : Question} (hstatus : (task.run d.settings d.decoders).status = .suspended question) :
    ∃ event s', s.Nearer d id task event s' := by
  cases question with
  | receive => exact System.nearer_of_receive htask hintact hstatus
  | verifyHead => exact hcoherent.nearer_of_verifyHead htask hintact hstatus
  | verifyBody => exact hcoherent.nearer_of_verifyBody htask hintact hstatus
  | dataHead => exact hcoherent.nearer_of_dataHead hbase hempty htask hintact hstatus
  | dataChunk => exact hcoherent.nearer_of_dataChunk htask hintact hstatus

theorem System.distance_le_ten (s : System) (id : Nat) : s.distance d id ≤ 10 := by
  rw [System.distance]
  split
  · exact Nat.zero_le 10
  · cases s.connected id with
    | none => exact Nat.le_refl 10
    | some request =>
        have hfour := s.auth.remaining_le_four request
        simp only [Option.map_some, Option.getD_some]
        omega
  · split <;> omega
  · rename_i question hhead hchunk hawaits
    have hfour := question.stage_le
    omega

/-- The request in a state that steps of its own have led to. -/
structure System.OnTheWay (d : Deployment) (s : System) (id : Nat) (scope : Scope) (t : System) : Prop where
  coherent : t.Coherent d
  keeps : s.Keeps id t
  goes : ∃ task, t.gateway.tasks[id]? = some task ∧ task.scope = scope ∧
    (task.Intact d.settings d.decoders ∨
      task.stagesLeft d.settings d.decoders = 0 ∧ Unwritable d.writes t.gateway id)

theorem System.OnTheWay.nearer {s t : System} {id : Nat} {scope : Scope} (h : s.OnTheWay d id scope t)
    (hbase : d.settings.originBaseUrl.path = "") (hempty : d.toLower [] = []) (hopen : ¬ t.awaits d id = none) :
    ∃ event t', event.Own id ∧ t.step d event = some t' ∧ s.OnTheWay d id scope t' ∧
      t'.distance d id < t.distance d id := by
  obtain ⟨task, htask, rfl, hends⟩ := h.goes
  obtain ⟨hover, -⟩ | ⟨question, hstatus, hstage⟩ := Task.stagesLeft_cases d.settings d.decoders task
  · exact absurd (System.awaits_over htask hover) hopen
  · have hintact : task.Intact d.settings d.decoders := by
      obtain hintact | ⟨hover, -⟩ := hends
      · exact hintact
      · have hpos := question.stage_pos
        omega
    obtain ⟨event, t', hnearer⟩ := h.coherent.nearer hbase hempty htask hintact hstatus
    obtain ⟨task', htask', hscope, hends'⟩ := hnearer.goes
    refine ⟨event, t', hnearer.own, hnearer.step, ⟨?_, h.keeps.trans hnearer.keeps, task', htask', hscope,
      hends'⟩, hnearer.nearer⟩
    exact (System.step_spec hnearer.step).coherent h.coherent

/-- The client has been told all there is to tell: an error of the gateway's own, or the whole reply. -/
def System.Told (d : Deployment) (s : System) (id : Nat) (events : List AsgiEvent) : Prop :=
  (∃ status detail, events = errorEvents status detail) ∨
    ∃ reply headers, s.dataReply d id = some reply ∧ events.head? = some (.start reply.status headers) ∧
      relayedBody events = reply.payload.marshal

theorem System.Coherent.told {s : System} (hcoherent : s.Coherent d) {id : Nat} {task : Task}
    (htask : s.gateway.tasks[id]? = some task) (hintact : task.Intact d.settings d.decoders)
    (hover : task.stagesLeft d.settings d.decoders = 0) :
    ((task.run d.settings d.decoders).status = .returned () ∧
      CompleteResponse (sent (task.run d.settings d.decoders).log) ∧
      s.Told d id (sent (task.run d.settings d.decoders).log)) ∨
      DecodingEscapes d.decoders task.scope task.world := by
  obtain ⟨hreturned, ⟨status, detail, hevents⟩ | ⟨head, hhead, hend, hevents⟩⟩ | hescapes :=
    hintact.answered d.settings d.decoders hover
  · rw [hevents]
    exact .inl ⟨hreturned, errorEvents_complete status detail, .inl ⟨status, detail, rfl⟩⟩
  · have hfaithful := hcoherent.faithful id task htask
    obtain ⟨reply, hreply, hstatus⟩ := hfaithful.dataHead head hhead
    obtain ⟨other, hother, hwhole⟩ := hfaithful.dataEnd hend
    obtain rfl := Option.some.inj (hreply.symm.trans hother)
    rw [hevents]
    refine .inl ⟨hreturned, relayedEvents_complete task.world head,
      .inr ⟨reply, responseHeadersFromUpstream head.rawHeaders, hreply, ?_, ?_⟩⟩
    · rw [← hstatus]
      rfl
    · rw [relayedBody_append, relayedBody_relayedEvents, hwhole]
      exact List.append_nil _
  · exact .inr hescapes

/-- Of the pair, the lookup when its head has been relayed. -/
def halfRun : Option System := run (System.step catalogueDeployment) {} (pairEvents.take 5)

def halfEnd : System := halfRun.getD {}

def halfTask : Task := (halfEnd.gateway.tasks[0]?).getD { scope := ⟨"", "", []⟩ }

end ApigateBenchmark.Contract
