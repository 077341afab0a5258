import ApigateBenchmark.AuthService.Liveness
import ApigateBenchmark.Contract.ServedAccounts
import ApigateBenchmark.DataService.Server
import ApigateBenchmark.GatewayPython.Answers
import ApigateBenchmark.GatewayPython.Progress

/-!
# The gateway, auth-service and data-service together

One gateway process between its clients, a process of auth-service that others use as well, and
data-service, which keeps no state between requests. A call of the gateway's is on its way until it
reaches its service, a reply until its head and its body, chunk by chunk, are delivered; any exchange may
break at any point with any fault. A run is a list of events, so it is an interleaving of all of this,
and the headers of a reply may be any.

aiohttp raises for a request that it cannot serialise, so such a call reaches nobody.
-/

namespace ApigateBenchmark.Contract

open Coroutine GatewayPython Transition

/-- What the three processes are started with, and the libraries they use. -/
structure Deployment where
  settings : Settings
  decoders : Decoders
  /-- Whether aiohttp writes the text into a header. -/
  writes : String → Bool
  jwt : AuthService.Jwt
  bcrypt : AuthService.Bcrypt
  issuer : AuthService.Issuer
  toLower : Bytes → Bytes
  products : List DataService.Product

def Deployment.catalogue (d : Deployment) : DataService.Store := DataService.newStore d.toLower d.products

structure System where
  gateway : Process := {}
  auth : AuthService.Service := AuthService.Service.start
  /-- The request of auth-service that the call of a gateway task has become. -/
  connected : Nat → Option Nat := fun _ => none

inductive Event where
  /-- A request of a client arrives at the gateway. -/
  | client (scope : Scope)
  /-- A task of the gateway gets the answer it waits for. -/
  | deliver (task : Nat) (answer : Answer)
  /-- The call of a gateway task reaches auth-service. -/
  | connect (task : Nat)
  /-- A step of auth-service, or a request of somebody else. -/
  | auth (label : AuthService.Label)

def callTo (process : Process) (task : Nat) (service : GatewayPython.Service) : Option WireCall :=
  (process.callsOf task).find? fun call => call.service == service

/-- What `Verify` finds in the header block of the call. -/
def presented (call : WireCall) : Bytes := (transmit call.onWire).peek (Bytes.utf8 "Authorization")

/-- What auth-service has answered to the call of the task. -/
def System.verifyReply (s : System) (task : Nat) : Option AuthService.Response :=
  (s.connected task).bind fun id => (s.auth.answer id).map Prod.fst

/-- What data-service answers to the call of the task. -/
def System.dataReply (d : Deployment) (s : System) (task : Nat) : Option DataService.Response :=
  (callTo s.gateway task .data).bind fun call =>
    if Serializable d.writes call.onWire then
      DataService.serve d.toLower d.catalogue call.request.method call.request.url.path
        (transmit call.onWire)
    else none

/-- The bytes of the body that have reached the task. -/
def System.received (s : System) (task : Nat) : Bytes :=
  ((s.gateway.tasks[task]?).map fun t => t.world.dataChunks.flatten).getD []

/-- The answer is a fault or a message of the client, or it is what the service replied. -/
def System.permits (d : Deployment) (s : System) (task : Nat) : Answer → Bool
  | .verifyHead (.ok head) => (s.verifyReply task).any fun reply => head.status == reply.status
  | .verifyBody (.ok raw) => (s.verifyReply task).any fun reply => raw == reply.payload.marshal
  | .dataHead (.ok head) => (s.dataReply d task).any fun reply => head.status == reply.status
  | .dataChunk chunk =>
      (s.dataReply d task).any fun reply => (s.received task ++ chunk).isPrefixOf reply.payload.marshal
  | .dataEnd .complete =>
      (s.dataReply d task).any fun reply => s.received task == reply.payload.marshal
  | _ => true

def System.step (d : Deployment) (s : System) : Event → Option System
  | .client scope =>
      (s.gateway.step d.settings d.decoders (.arrive scope)).map fun gateway => { s with gateway }
  | .deliver task answer =>
      if s.permits d task answer then
        (s.gateway.step d.settings d.decoders (.deliver task answer)).map fun gateway => { s with gateway }
      else none
  | .connect task =>
      match callTo s.gateway task .auth, s.connected task with
      | some call, none =>
          if Serializable d.writes call.onWire then
            (s.auth.step d.jwt d.bcrypt d.issuer (.arrive (.verify (presented call)))).map fun auth =>
              { s with
                auth
                connected := Function.update s.connected task (some s.auth.tasks.length) }
          else none
      | _, _ => none
  | .auth label => (s.auth.step d.jwt d.bcrypt d.issuer label).map fun auth => { s with auth }

variable {d : Deployment}

/-! ### All that a step can do -/

inductive System.Steps (d : Deployment) (s : System) : Event → System → Prop where
  | arrives {scope : Scope} {gateway : Process}
      (hstep : s.gateway.step d.settings d.decoders (.arrive scope) = some gateway) :
      Steps d s (.client scope) { s with gateway }
  | delivers {task : Nat} {answer : Answer} {gateway : Process} (hpermits : s.permits d task answer = true)
      (hstep : s.gateway.step d.settings d.decoders (.deliver task answer) = some gateway) :
      Steps d s (.deliver task answer) { s with gateway }
  | connects {task : Nat} {call : WireCall} {auth : AuthService.Service}
      (hcall : callTo s.gateway task .auth = some call) (hfree : s.connected task = none)
      (hstep : s.auth.step d.jwt d.bcrypt d.issuer (.arrive (.verify (presented call))) = some auth) :
      Steps d s (.connect task)
        { s with auth, connected := Function.update s.connected task (some s.auth.tasks.length) }
  | works {label : AuthService.Label} {auth : AuthService.Service}
      (hstep : s.auth.step d.jwt d.bcrypt d.issuer label = some auth) :
      Steps d s (.auth label) { s with auth }

theorem System.step_spec {s s' : System} {event : Event} (h : s.step d event = some s') :
    System.Steps d s event s' := by
  cases event with
  | client scope =>
      rw [System.step] at h
      obtain ⟨gateway, hstep, rfl⟩ := Option.map_eq_some_iff.mp h
      exact .arrives hstep
  | deliver task answer =>
      simp only [System.step] at h
      split at h
      · obtain ⟨gateway, hstep, rfl⟩ := Option.map_eq_some_iff.mp h
        exact .delivers ‹_› hstep
      · cases h
  | connect task =>
      simp only [System.step] at h
      split at h
      · split at h
        · obtain ⟨auth, hstep, rfl⟩ := Option.map_eq_some_iff.mp h
          exact .connects ‹_› ‹_› hstep
        · cases h
      · cases h
  | auth label =>
      rw [System.step] at h
      obtain ⟨auth, hstep, rfl⟩ := Option.map_eq_some_iff.mp h
      exact .works hstep

/-! ### Replies stay -/

theorem callTo_step {process next : Process} {label : GatewayPython.Label}
    (h : process.step d.settings d.decoders label = some next) {task : Nat} {service : GatewayPython.Service}
    {call : WireCall} (hcall : callTo process task service = some call) :
    callTo next task service = some call := by
  have happend : ∃ more, next.callsOf task = process.callsOf task ++ more := by
    have hdispatch : ∀ (p : Process) (id : Nat) (calls : List (GatewayPython.Service × UpstreamRequest)),
        ∃ more, (p.dispatch id calls).callsOf task = p.callsOf task ++ more := fun p id calls =>
      ⟨_, List.filter_append _ _⟩
    obtain ⟨scope, -, rfl⟩ | ⟨id, answer, t, -, -, -, rfl⟩ := Process.step_cases d.settings d.decoders h
    · exact hdispatch _ _ _
    · exact hdispatch _ _ _
  obtain ⟨more, hmore⟩ := happend
  rw [callTo, hmore, List.find?_append]
  rw [callTo] at hcall
  rw [hcall, Option.some_or]

/-- Whatever the services have replied is still their reply. -/
structure System.Later (d : Deployment) (s s' : System) : Prop where
  calls : ∀ task service call, callTo s.gateway task service = some call →
    callTo s'.gateway task service = some call
  verifies : ∀ task reply, s.verifyReply task = some reply → s'.verifyReply task = some reply
  lists : ∀ task reply, s.dataReply d task = some reply → s'.dataReply d task = some reply

theorem System.later_of {s s' : System}
    (hcalls : ∀ task service call, callTo s.gateway task service = some call →
      callTo s'.gateway task service = some call)
    (hconnected : ∀ task id, s.connected task = some id → s'.connected task = some id)
    (hanswers : ∀ id answer, s.auth.answer id = some answer → s'.auth.answer id = some answer) :
    s.Later d s' where
  calls := hcalls
  verifies task reply hreply := by
    obtain ⟨id, hid, hmap⟩ := Option.bind_eq_some_iff.mp hreply
    obtain ⟨answer, hanswer, rfl⟩ := Option.map_eq_some_iff.mp hmap
    rw [System.verifyReply, hconnected task id hid, Option.bind_some, hanswers id answer hanswer,
      Option.map_some]
  lists task reply hreply := by
    obtain ⟨call, hcall, hserve⟩ := Option.bind_eq_some_iff.mp hreply
    rw [System.dataReply, hcalls task .data call hcall, Option.bind_some]
    exact hserve

theorem System.Steps.later {s s' : System} {event : Event} (h : System.Steps d s event s') :
    s.Later d s' := by
  cases h with
  | arrives hstep => exact System.later_of (fun _ _ _ => callTo_step hstep) (fun _ _ h => h) fun _ _ h => h
  | delivers hpermits hstep =>
      exact System.later_of (fun _ _ _ => callTo_step hstep) (fun _ _ h => h) fun _ _ h => h
  | works hstep =>
      exact System.later_of (fun _ _ _ h => h) (fun _ _ h => h) fun _ _ =>
        (AuthService.Service.step_spec hstep).answer
  | @connects task call auth hcall hfree hstep =>
      refine System.later_of (fun _ _ _ h => h) (fun other id hid => ?_) fun _ _ =>
        (AuthService.Service.step_spec hstep).answer
      have hne : other ≠ task := by
        rintro rfl
        rw [hfree] at hid
        cases hid
      exact (Function.update_of_ne hne _ _).trans hid

/-! ### What the gateway was told -/

/-- Everything the task was told is what the services replied, as far as no exchange broke. -/
structure System.Faithful (d : Deployment) (s : System) (task : Nat) (world : World) : Prop where
  verifyHead : ∀ head, world.verifyHead = some (.ok head) →
    ∃ reply, s.verifyReply task = some reply ∧ head.status = reply.status
  verifyBody : ∀ raw, world.verifyBody = some (.ok raw) →
    ∃ reply, s.verifyReply task = some reply ∧ raw = reply.payload.marshal
  dataHead : ∀ head, world.dataHead = some (.ok head) →
    ∃ reply, s.dataReply d task = some reply ∧ head.status = reply.status
  dataChunks : world.dataChunks ≠ [] →
    ∃ reply, s.dataReply d task = some reply ∧ world.dataChunks.flatten <+: reply.payload.marshal
  dataEnd : world.dataEnd = some .complete →
    ∃ reply, s.dataReply d task = some reply ∧ world.dataChunks.flatten = reply.payload.marshal

theorem System.Faithful.later {s s' : System} (hlater : s.Later d s') {task : Nat} {world : World}
    (h : s.Faithful d task world) : s'.Faithful d task world where
  verifyHead head hhead := (h.verifyHead head hhead).imp fun _ => .imp_left (hlater.verifies task _)
  verifyBody raw hraw := (h.verifyBody raw hraw).imp fun _ => .imp_left (hlater.verifies task _)
  dataHead head hhead := (h.dataHead head hhead).imp fun _ => .imp_left (hlater.lists task _)
  dataChunks hne := (h.dataChunks hne).imp fun _ => .imp_left (hlater.lists task _)
  dataEnd hend := (h.dataEnd hend).imp fun _ => .imp_left (hlater.lists task _)

theorem System.faithful_nil (s : System) (task : Nat) : s.Faithful d task {} where
  verifyHead _ h := nomatch h
  verifyBody _ h := nomatch h
  dataHead _ h := nomatch h
  dataChunks h := absurd rfl h
  dataEnd h := nomatch h

theorem exists_of_any {α : Type} {o : Option α} {p : α → Bool} (h : o.any p = true) :
    ∃ a, o = some a ∧ p a = true := by
  cases o with
  | none => cases h
  | some a => exact ⟨a, rfl, h⟩

/-- A permitted answer keeps what the task was told faithful. -/
theorem System.Faithful.feed {s : System} {id : Nat} {task : Task}
    (htask : s.gateway.tasks[id]? = some task) (h : s.Faithful d id task.world) {answer : Answer}
    (hwaits : (task.run d.settings d.decoders).status = .suspended answer.question)
    (hpermits : s.permits d id answer = true) : s.Faithful d id (task.world.feed answer) := by
  have hreceived : s.received id = task.world.dataChunks.flatten := by
    rw [System.received, htask, Option.map_some, Option.getD_some]
  cases answer with
  | message message => exact ⟨h.verifyHead, h.verifyBody, h.dataHead, h.dataChunks, h.dataEnd⟩
  | verifyHead reply =>
      refine ⟨fun head hhead => ?_, h.verifyBody, h.dataHead, h.dataChunks, h.dataEnd⟩
      obtain rfl := Option.some.inj hhead
      obtain ⟨reply, hreply, hstatus⟩ := exists_of_any hpermits
      exact ⟨reply, hreply, beq_iff_eq.mp hstatus⟩
  | verifyBody reply =>
      refine ⟨h.verifyHead, fun raw hraw => ?_, h.dataHead, h.dataChunks, h.dataEnd⟩
      obtain rfl := Option.some.inj hraw
      obtain ⟨reply, hreply, hbody⟩ := exists_of_any hpermits
      exact ⟨reply, hreply, beq_iff_eq.mp hbody⟩
  | dataHead reply =>
      refine ⟨h.verifyHead, h.verifyBody, fun head hhead => ?_, h.dataChunks, h.dataEnd⟩
      obtain rfl := Option.some.inj hhead
      obtain ⟨reply, hreply, hstatus⟩ := exists_of_any hpermits
      exact ⟨reply, hreply, beq_iff_eq.mp hstatus⟩
  | dataChunk chunk =>
      refine ⟨h.verifyHead, h.verifyBody, h.dataHead, fun _ => ?_, fun hend => ?_⟩
      · obtain ⟨reply, hreply, hprefix⟩ := exists_of_any hpermits
        refine ⟨reply, hreply, ?_⟩
        rw [hreceived, List.isPrefixOf_iff_prefix] at hprefix
        change (task.world.dataChunks ++ [chunk]).flatten <+: _
        rw [List.flatten_append, List.flatten_singleton]
        exact hprefix
      · have hopen := (Task.streaming d.settings d.decoders hwaits).2
        change task.world.dataEnd = some .complete at hend
        rw [hopen] at hend
        cases hend
  | dataEnd bodyEnd =>
      refine ⟨h.verifyHead, h.verifyBody, h.dataHead, h.dataChunks, fun hend => ?_⟩
      obtain rfl := Option.some.inj hend
      obtain ⟨reply, hreply, hbody⟩ := exists_of_any hpermits
      rw [hreceived] at hbody
      exact ⟨reply, hreply, beq_iff_eq.mp hbody⟩

/-! ### Every reachable state -/

/-- Each part has a run of its own, a connection leads to the request the call became, and every task was
told what the services replied. -/
structure System.Coherent (d : Deployment) (s : System) : Prop where
  gateway : ∃ labels, Process.run d.settings d.decoders labels = some s.gateway
  auth : ∃ labels, run (AuthService.Service.step d.jwt d.bcrypt d.issuer) AuthService.Service.start labels =
    some s.auth
  connected : ∀ task id, s.connected task = some id → ∃ call progress,
    callTo s.gateway task .auth = some call ∧ s.auth.tasks[id]? = some ⟨.verify (presented call), progress⟩
  faithful : ∀ id task, s.gateway.tasks[id]? = some task → s.Faithful d id task.world

theorem System.Steps.coherent {s s' : System} {event : Event} (h : System.Steps d s event s')
    (hcoherent : s.Coherent d) : s'.Coherent d := by
  have hlater := h.later
  cases h with
  | @arrives scope gateway hstep =>
      refine ⟨run_snoc _ hcoherent.gateway hstep, hcoherent.auth, fun task id hid => ?_, fun id task htask => ?_⟩
      · obtain ⟨call, progress, hcall, hrequest⟩ := hcoherent.connected task id hid
        exact ⟨call, progress, callTo_step hstep hcall, hrequest⟩
      · obtain rfl := Option.some.inj hstep
        change (s.gateway.tasks ++ [_])[id]? = some task at htask
        by_cases hnew : id = s.gateway.tasks.length
        · subst hnew
          rw [List.getElem?_concat_length] at htask
          obtain rfl := Option.some.inj htask
          exact System.faithful_nil _ _
        · rw [getElem?_snoc_of_ne hnew] at htask
          exact (hcoherent.faithful id task htask).later hlater
  | @delivers id answer gateway hpermits hstep =>
      refine ⟨run_snoc _ hcoherent.gateway hstep, hcoherent.auth, fun task other hid => ?_,
        fun other task htask => ?_⟩
      · obtain ⟨call, progress, hcall, hrequest⟩ := hcoherent.connected task other hid
        exact ⟨call, progress, callTo_step hstep hcall, hrequest⟩
      · obtain ⟨scope, hlabel, -⟩ | ⟨id', answer', told, hlabel, htold, hwaits, hnext⟩ :=
          Process.step_cases d.settings d.decoders hstep
        · cases hlabel
        cases hlabel
        change gateway.tasks[other]? = some task at htask
        rw [hnext] at htask
        change (s.gateway.tasks.set id (told.resume answer))[other]? = some task at htask
        by_cases hsame : id = other
        · subst hsame
          rw [List.getElem?_set_self (List.getElem?_eq_some_iff.mp htold).1] at htask
          obtain rfl := Option.some.inj htask
          exact ((hcoherent.faithful id told htold).feed htold hwaits hpermits).later hlater
        · rw [List.getElem?_set_ne hsame] at htask
          exact (hcoherent.faithful other task htask).later hlater
  | @connects task call auth hcall hfree hstep =>
      refine ⟨hcoherent.gateway, run_snoc _ hcoherent.auth hstep, fun other id hid => ?_,
        fun other t htask => (hcoherent.faithful other t htask).later hlater⟩
      change Function.update s.connected task (some s.auth.tasks.length) other = some id at hid
      by_cases hsame : other = task
      · subst hsame
        rw [Function.update_self, Option.some.injEq] at hid
        subst hid
        obtain rfl := Option.some.inj hstep
        exact ⟨call, .arrived, hcall, List.getElem?_concat_length⟩
      · rw [Function.update_of_ne hsame] at hid
        obtain ⟨call', progress, hcall', hrequest⟩ := hcoherent.connected other id hid
        obtain ⟨progress', hrequest'⟩ :=
          AuthService.Service.Steps.request (AuthService.Service.step_spec hstep) ⟨progress, hrequest⟩
        exact ⟨call', progress', hcall', hrequest'⟩
  | @works label auth hstep =>
      refine ⟨hcoherent.gateway, run_snoc _ hcoherent.auth hstep, fun task id hid => ?_,
        fun id task htask => (hcoherent.faithful id task htask).later hlater⟩
      obtain ⟨call, progress, hcall, hrequest⟩ := hcoherent.connected task id hid
      obtain ⟨progress', hrequest'⟩ :=
        AuthService.Service.Steps.request (AuthService.Service.step_spec hstep) ⟨progress, hrequest⟩
      exact ⟨call, progress', hcall, hrequest'⟩

theorem System.run_coherent {events : List Event} {s : System}
    (hrun : run (System.step d) {} events = some s) : s.Coherent d := by
  refine run_invariant (System.step d) (fun _ _ _ hs hstep => (System.step_spec hstep).coherent hs) ?_ hrun
  refine ⟨⟨[], rfl⟩, ⟨[], rfl⟩, nofun, fun id task htask => ?_⟩
  change ([] : List Task)[id]? = some task at htask
  cases htask

/-! ### What a reply of `Verify` says -/

/-- The reply to a connected call is what `Verify` makes of the value the call presented to it. -/
theorem System.Coherent.verifyReply_eq {s : System} (h : s.Coherent d) {task : Nat}
    {reply : AuthService.Response} (hreply : s.verifyReply task = some reply) :
    ∃ call now, callTo s.gateway task .auth = some call ∧
      (∃ t ∈ s.auth.tasks, t.request = .verify (presented call)) ∧
      reply = AuthService.verify d.jwt d.issuer now (presented call) := by
  obtain ⟨id, hid, hmap⟩ := Option.bind_eq_some_iff.mp hreply
  obtain ⟨⟨response, signed⟩, hanswer, rfl⟩ := Option.map_eq_some_iff.mp hmap
  obtain ⟨call, progress, hcall, hrequest⟩ := h.connected task id hid
  obtain ⟨labels, hrun⟩ := h.auth
  have hknows := AuthService.Service.run_sound hrun _ (List.mem_of_getElem? hrequest)
  rw [AuthService.Service.answer, hrequest, Option.bind_some] at hanswer
  cases progress with
  | arrived => cases hanswer
  | inStore op state => cases hanswer
  | responded response' signed' =>
      cases hanswer
      obtain ⟨now, henter⟩ | ⟨now, op, result, hasks, -⟩ := hknows
      · cases henter
        exact ⟨call, now, hcall, ⟨_, List.mem_of_getElem? hrequest, rfl⟩, rfl⟩
      · exact hasks.elim

end ApigateBenchmark.Contract
