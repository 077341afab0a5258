import ApigateBenchmark.Contract.System

/-!
# What is relayed was replied

In every state the three processes reach together, the bytes a client was relayed are the beginning of
what data-service replied to the one request the gateway made for that client, and all of it once the
body has come to its end.
-/

namespace ApigateBenchmark.Contract

open Coroutine GatewayPython Transition

variable {d : Deployment}

/-! ### What a run has relayed -/

/-- The bytes of the body that were relayed. -/
def relayedBody (events : List AsgiEvent) : Bytes :=
  events.flatMap fun
    | .body chunk true => chunk
    | _ => []

theorem relayedBody_append (l m : List AsgiEvent) :
    relayedBody (l ++ m) = relayedBody l ++ relayedBody m := List.flatMap_append

theorem relayedBody_relayedEvents (world : World) (head : ResponseHead) :
    relayedBody (relayedEvents world head) = world.dataChunks.flatten := by
  rw [relayedEvents]
  change relayedBody (world.dataChunks.map fun chunk => AsgiEvent.body chunk true) = _
  rw [relayedBody, List.flatMap_map]
  exact List.flatMap_id

theorem relayedBody_tail {tail : List AsgiEvent} (h : RelayTail tail) : relayedBody tail = [] := by
  obtain rfl | rfl | ⟨status, detail, rfl⟩ := h <;> rfl

/-- Relayed bytes are the chunks that followed a head. -/
theorem relayed_of_body {settings : Settings} {decoders : Decoders} {task : Task}
    (h : relayedBody (sent (task.run settings decoders).log) ≠ []) :
    ∃ head tail, task.world.dataHead = some (.ok head) ∧
      sent (task.run settings decoders).log = relayedEvents task.world head ++ tail ∧
      relayedBody (sent (task.run settings decoders).log) = task.world.dataChunks.flatten := by
  obtain hnil | ⟨status, detail, hevents⟩ | ⟨request, head, tail, -, hhead, htail, hevents⟩ :=
    sent_cases settings decoders true task.scope task.world
  · exact absurd (congrArg relayedBody hnil) h
  · exact absurd (congrArg relayedBody hevents) h
  · refine ⟨head, tail, hhead, hevents, (congrArg relayedBody hevents).trans ?_⟩
    rw [relayedBody_append, relayedBody_relayedEvents, relayedBody_tail htail, List.append_nil]

/-! ### What reached data-service -/

theorem callTo_mem {process : Process} {task : Nat} {service : GatewayPython.Service} {call : WireCall}
    (h : callTo process task service = some call) :
    call ∈ process.callsOf task ∧ call.service = service := by
  rw [callTo] at h
  have hservice := List.find?_some h
  exact ⟨List.mem_of_find?_eq_some h, beq_iff_eq.mp hservice⟩

/-- A call of data-service is the request that was decided on. -/
theorem forward_of_callTo {settings : Settings} {decoders : Decoders} {labels : List GatewayPython.Label}
    {process : Process} (hrun : Process.run settings decoders labels = some process) {id : Nat} {task : Task}
    (htask : process.tasks[id]? = some task) {call : WireCall}
    (hcall : callTo process id .data = some call) :
    decision settings decoders task.scope task.world = .forward call.request := by
  obtain ⟨hmem, hservice⟩ := callTo_mem hcall
  have hcalls := dataCalls_eq settings decoders hrun htask
  have hmade : (call.service, call.request) ∈ ((process.callsOf id).filter fun call =>
      call.service == .data).map (fun call => (call.service, call.request)) :=
    List.mem_map.mpr ⟨call, List.mem_filter.mpr ⟨hmem, beq_iff_eq.mpr hservice⟩, rfl⟩
  rw [hcalls] at hmade
  cases hdecision : decision settings decoders task.scope task.world with
  | forward request =>
      rw [hdecision] at hmade
      exact congrArg (fun made => Decision.forward made.2) (List.mem_singleton.mp hmade).symm
  | _ =>
      rw [hdecision] at hmade
      cases hmade

/-- The events tell the client of the reply: its status, and the beginning of its body or, once the body
has come to its end, all of it. -/
structure Relays (task : Task) (events : List AsgiEvent) (reply : DataService.Response) : Prop where
  status : ∃ headers, events.head? = some (.start reply.status headers)
  body : relayedBody events <+: reply.payload.marshal
  whole : task.world.dataEnd = some .complete → relayedBody events = reply.payload.marshal

/-- Relayed bytes are those of the reply to the one call that was decided on. -/
theorem System.reply_of_relayed {events : List Event} {s : System}
    (hrun : run (System.step d) {} events = some s) {id : Nat} {task : Task}
    (htask : s.gateway.tasks[id]? = some task)
    (hrelayed : relayedBody (sent (task.run d.settings d.decoders).log) ≠ []) :
    ∃ (call : WireCall) (reply : DataService.Response),
      decision d.settings d.decoders task.scope task.world = .forward call.request ∧
      DataService.serve d.toLower d.catalogue call.request.method call.request.url.path
        (transmit call.onWire) = some reply ∧
      Relays task (sent (task.run d.settings d.decoders).log) reply := by
  have hcoherent := System.run_coherent hrun
  have hfaithful := hcoherent.faithful id task htask
  obtain ⟨labels, hgateway⟩ := hcoherent.gateway
  obtain ⟨head, tail, hhead, hevents, hbody⟩ := relayed_of_body hrelayed
  have hne : task.world.dataChunks ≠ [] := by
    intro hnil
    rw [hbody, hnil] at hrelayed
    exact hrelayed rfl
  obtain ⟨reply, hreply, hprefix⟩ := hfaithful.dataChunks hne
  obtain ⟨call, hcall, hserve⟩ := Option.bind_eq_some_iff.mp hreply
  have hsame : ∀ {other}, s.dataReply d id = some other → other = reply := fun hother =>
    Option.some.inj (hother.symm.trans hreply)
  refine ⟨call, reply, forward_of_callTo hgateway htask hcall, ?_, ?_, ?_, fun hend => ?_⟩
  · split at hserve
    · exact hserve
    · cases hserve
  · obtain ⟨other, hother, hstatus⟩ := hfaithful.dataHead head hhead
    rw [hsame hother] at hstatus
    rw [hevents, ← hstatus]
    exact ⟨_, rfl⟩
  · rwa [hbody]
  · obtain ⟨other, hother, hwhole⟩ := hfaithful.dataEnd hend
    rw [hsame hother] at hwhole
    rwa [hbody]

/-- The path of a request of the gateway, behind a base without a path of its own. -/
theorem path_of_base {settings : Settings} (hbase : settings.originBaseUrl.path = "") (path : String) :
    settings.originBaseUrl.path ++ path = path := by
  rw [hbase, String.empty_append]

end ApigateBenchmark.Contract
