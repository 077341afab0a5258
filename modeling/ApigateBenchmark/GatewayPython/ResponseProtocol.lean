import ApigateBenchmark.GatewayPython.Runs

/-!
# The ASGI response protocol

ASGI asks for one `http.response.start`, body messages that announce more, and one final body
message. `ResponseState` reads the messages passed to `send` as an automaton; a complete response is
what it accepts. The relay leaves the automaton streaming, so whatever a handler sends after the head
of a relayed response can only be body messages: a second error answer breaks the protocol. That
happens on the one path where an exception gets past the relay, a plain `TimeoutError` between chunks.
-/

namespace ApigateBenchmark.GatewayPython

open Coroutine

variable (settings : Settings) (decoders : Decoders)

/-! ### The automaton -/

inductive ResponseState where
  | idle
  | streaming
  | finished
  | violated
  deriving DecidableEq

def ResponseState.step : ResponseState → AsgiEvent → ResponseState
  | .idle, .start _ _ => .streaming
  | .streaming, .body _ true => .streaming
  | .streaming, .body _ false => .finished
  | _, _ => .violated

def ResponseState.run (state : ResponseState) (events : List AsgiEvent) : ResponseState :=
  events.foldl ResponseState.step state

/-- One head, any number of body messages that announce more, one final body message. -/
def CompleteResponse (events : List AsgiEvent) : Prop :=
  ∃ (status : Nat) (headers : List Header) (chunks : List Bytes) (last : Bytes), events =
    .start status headers :: (chunks.map (fun chunk => AsgiEvent.body chunk true) ++ [.body last false])

namespace ResponseState

theorem run_append (state : ResponseState) (l m : List AsgiEvent) :
    state.run (l ++ m) = (state.run l).run m := List.foldl_append

theorem run_violated (events : List AsgiEvent) : violated.run events = violated := by
  induction events with
  | nil => rfl
  | cons event events ih => exact ih

theorem run_finished_eq {events : List AsgiEvent} (h : finished.run events = finished) : events = [] := by
  cases events with
  | nil => rfl
  | cons event events =>
      have hviolated : finished.run (event :: events) = violated := run_violated events
      rw [hviolated] at h
      exact absurd h (by decide)

theorem run_streaming_chunks (chunks : List Bytes) :
    streaming.run (chunks.map fun chunk => AsgiEvent.body chunk true) = streaming := by
  induction chunks with
  | nil => rfl
  | cons chunk chunks ih => exact ih

theorem of_run_streaming {events : List AsgiEvent} (h : streaming.run events = finished) :
    ∃ (chunks : List Bytes) (last : Bytes), events =
      chunks.map (fun chunk => AsgiEvent.body chunk true) ++ [.body last false] := by
  induction events with
  | nil => exact absurd h (by decide)
  | cons event events ih =>
      cases event with
      | start status headers =>
          have hviolated : streaming.run (.start status headers :: events) = violated :=
            run_violated events
          rw [hviolated] at h
          exact absurd h (by decide)
      | body body moreBody =>
          cases moreBody with
          | true =>
              obtain ⟨chunks, last, htail⟩ := ih h
              exact ⟨body :: chunks, last, by rw [htail]; rfl⟩
          | false =>
              have hnil : events = [] := run_finished_eq h
              exact ⟨[], body, by rw [hnil]; rfl⟩

/-- The automaton accepts exactly the complete responses. -/
theorem run_idle_iff (events : List AsgiEvent) :
    idle.run events = finished ↔ CompleteResponse events := by
  constructor
  · intro h
    cases events with
    | nil => exact absurd h (by decide)
    | cons event events =>
        cases event with
        | start status headers =>
            obtain ⟨chunks, last, htail⟩ := of_run_streaming h
            exact ⟨status, headers, chunks, last, by rw [htail]⟩
        | body body moreBody =>
            have hviolated : idle.run (.body body moreBody :: events) = violated := run_violated events
            rw [hviolated] at h
            exact absurd h (by decide)
  · rintro ⟨status, headers, chunks, last, rfl⟩
    change streaming.run _ = finished
    rw [run_append, run_streaming_chunks]
    rfl

end ResponseState

theorem errorEvents_complete (status : Nat) (detail : String) :
    CompleteResponse (errorEvents status detail) :=
  ⟨status, _, [], errorPayload detail, rfl⟩

theorem relayedEvents_complete (world : World) (response : ResponseHead) :
    CompleteResponse (relayedEvents world response ++ [endBodyMessage]) :=
  ⟨response.status, _, world.dataChunks, [], rfl⟩

/-- Once a head was relayed, an error answer comes too late. -/
theorem relayedEvents_then_error (world : World) (response : ResponseHead) (status : Nat) (detail : String) :
    ¬ CompleteResponse (relayedEvents world response ++ errorEvents status detail) := by
  rw [← ResponseState.run_idle_iff, ResponseState.run_append]
  have hstreaming : ResponseState.idle.run (relayedEvents world response) = .streaming :=
    ResponseState.run_streaming_chunks world.dataChunks
  have hviolated : ResponseState.streaming.run (errorEvents status detail) = .violated := rfl
  rw [hstreaming, hviolated]
  decide

/-! ### Environments -/

/-- Every exchange with an upstream has an outcome. -/
structure World.Settled (world : World) : Prop where
  verifyHead : world.verifyHead ≠ none
  verifyBody : world.verifyBody ≠ none
  dataHead : world.dataHead ≠ none
  dataEnd : world.dataEnd ≠ none

/-- The fault is raised somewhere in one of the two exchanges. -/
def World.Raises (world : World) (fault : Fault) : Prop :=
  world.verifyHead = some (.error fault) ∨ world.verifyBody = some (.error fault) ∨
    world.dataHead = some (.error fault) ∨ world.dataEnd = some (.broken fault)

/-- Nothing but an `aiohttp.ClientError` or a `TimeoutError` is raised. -/
def World.AiohttpFaultsOnly (world : World) : Prop :=
  ∀ fault, world.Raises fault → fault.isClientError = true ∨ fault.isTimeoutError = true

/-- The body stream of the data-service response breaks with a `TimeoutError` that is no
`ClientError`, after its head arrived. -/
def World.TimesOutInBody (world : World) : Prop :=
  (∃ head, world.dataHead = some (.ok head)) ∧
    ∃ fault, world.dataEnd = some (.broken fault) ∧ fault.isTimeoutError = true ∧ fault.isClientError = false

/-- The request is one the gateway forwards to data-service. -/
def Forwarded (scope : Scope) (world : World) : Prop :=
  ∃ request, decision settings decoders scope world = .forward request

/-- What ASGI asks of a run. A run that returned has answered completely, or has sent nothing because
the client went away while its body was read; a run still waiting for messages of the client has sent
nothing; no exception leaves the application. -/
def FollowsProtocol (inbox : List AsgiMessage) (run : Py Unit) : Prop :=
  match run.status with
  | .returned _ =>
      CompleteResponse (sent run.log) ∨
        (sent run.log = [] ∧ (readBody inbox).status = .raised .clientDisconnected)
  | .suspended question => question = .receive ∧ sent run.log = []
  | .raised _ => False

theorem sent_authCalls (scope : Scope) : sent (authCalls settings scope) = [] := by
  rw [authCalls]
  split
  · cases extractAuthorization scope <;> rfl
  · rfl

/-- A handler of the dispatcher answers every fault aiohttp raises before the head. -/
theorem onException_fault {fault : Fault}
    (h : fault.isClientError = true ∨ fault.isTimeoutError = true) :
    ∃ status detail, onException (.fault fault) = sendError status detail := by
  rw [onException]
  cases hclient : fault.isClientError with
  | true => exact ⟨_, _, if_pos rfl⟩
  | false => cases htimeout : fault.isTimeoutError with
    | true => exact ⟨_, _, by rw [if_neg (by decide), if_pos rfl]⟩
    | false => simp [hclient, htimeout] at h

/-- A run that returned after sending something follows the protocol exactly when that is a complete
response. -/
theorem followsProtocol_events_iff (inbox : List AsgiMessage) (events : List AsgiEvent)
    (hevents : events ≠ []) {log : List Action} (hlog : sent log = []) :
    FollowsProtocol inbox ((emit events).prepend log) ↔ CompleteResponse events := by
  have hsent : sent ((emit events).prepend log).log = events := by
    rw [prepend_log, sent_append, hlog, emit, sent_map_send, List.nil_append]
  change CompleteResponse (sent ((emit events).prepend log).log) ∨
    (sent ((emit events).prepend log).log = [] ∧ _) ↔ _
  rw [hsent]
  exact or_iff_left fun h => hevents h.1

theorem followsProtocol_sendError (inbox : List AsgiMessage) {log : List Action} (hlog : sent log = [])
    (status : Nat) (detail : String) :
    FollowsProtocol inbox ((sendError status detail).prepend log) := by
  rw [sendError_eq]
  have hprotocol := followsProtocol_events_iff inbox (errorEvents status detail) (List.cons_ne_nil _ _) hlog
  exact hprotocol.mpr (errorEvents_complete status detail)

/-- The body of a relayed response, with the dispatcher's handlers around the relay. -/
theorem relayEnd_handled {bodyEnd : BodyEnd} (hfaults : ∀ fault, bodyEnd = .broken fault →
      fault.isClientError = true ∨ fault.isTimeoutError = true) :
    ((relayEnd (some bodyEnd)).handle onException = emit [endBodyMessage] ∧
        ∀ fault, bodyEnd = .broken fault → fault.isClientError = true) ∨
      ((relayEnd (some bodyEnd)).handle onException = sendError 504 "upstream timeout" ∧
        ∃ fault, bodyEnd = .broken fault ∧ fault.isTimeoutError = true ∧ fault.isClientError = false) := by
  cases bodyEnd with
  | complete => exact Or.inl ⟨rfl, fun fault h => by cases h⟩
  | broken fault =>
      cases hclient : fault.isClientError with
      | true =>
          refine Or.inl ⟨?_, fun other h => ?_⟩
          · rw [relayEnd, if_pos hclient]
            rfl
          · cases h
            exact hclient
      | false =>
          have htimeout : fault.isTimeoutError = true := by simpa [hclient] using hfaults fault rfl
          refine Or.inr ⟨?_, fault, rfl, htimeout, hclient⟩
          simp [relayEnd, hclient, onException, htimeout]

/-- Once a request is forwarded, the run follows the protocol unless the body stream times out. -/
theorem followsProtocol_proxy_iff (world : World) (hsettled : world.Settled)
    (hfaults : world.AiohttpFaultsOnly) (request : UpstreamRequest) {log : List Action}
    (hlog : sent log = []) :
    FollowsProtocol world.inbox (((proxy world request).handle onException).prepend log) ↔
      ¬ world.TimesOutInBody := by
  have hcall : sent (log ++ [.request request]) = [] := by
    rw [sent_append, hlog]
    rfl
  rw [proxy_eq, prepend_handle, prepend_prepend, exchange]
  obtain ⟨answer, hhead⟩ := Option.ne_none_iff_exists'.mp hsettled.dataHead
  obtain ⟨bodyEnd, hend⟩ := Option.ne_none_iff_exists'.mp hsettled.dataEnd
  rw [hhead]
  cases answer with
  | error fault =>
      obtain ⟨status, detail, hanswer⟩ := onException_fault (hfaults fault (Or.inr (Or.inr (Or.inl hhead))))
      have hnotimeout : ¬ world.TimesOutInBody := by
        rintro ⟨⟨head, hok⟩, -⟩
        rw [hhead] at hok
        cases hok
      simp only [raise_handle, hanswer]
      exact iff_of_true (followsProtocol_sendError world.inbox hcall status detail) hnotimeout
  | ok head =>
      have hbroken : ∀ fault, bodyEnd = .broken fault →
          fault.isClientError = true ∨ fault.isTimeoutError = true := by
        intro fault h
        exact hfaults fault (Or.inr (Or.inr (Or.inr (h ▸ hend))))
      simp only [relayResponse_eq, prepend_handle, hend]
      rcases relayEnd_handled hbroken with ⟨hhandled, hclient⟩ | ⟨hhandled, htimeout⟩
      · have hnotimeout : ¬ world.TimesOutInBody := by
          rintro ⟨-, fault, hfault, -, hother⟩
          rw [hend] at hfault
          rw [hclient fault (Option.some.inj hfault)] at hother
          cases hother
        have hprotocol := followsProtocol_events_iff world.inbox
          (relayedEvents world head ++ [endBodyMessage]) (List.cons_ne_nil _ _) hcall
        rw [hhandled, emit_prepend]
        exact iff_of_true (hprotocol.mpr (relayedEvents_complete world head)) hnotimeout
      · obtain ⟨fault, rfl, hfault⟩ := htimeout
        have hlate := relayedEvents_then_error world head 504 "upstream timeout"
        have hprotocol := followsProtocol_events_iff world.inbox
          (relayedEvents world head ++ errorEvents 504 "upstream timeout") (List.cons_ne_nil _ _) hcall
        rw [hhandled, sendError_eq, emit_prepend]
        exact iff_of_false (fun h => hlate (hprotocol.mp h)) (not_not.mpr ⟨⟨head, hhead⟩, fault, hend, hfault⟩)

theorem verdict_ne_waiting {world : World} (hsettled : world.Settled) (question : Question) :
    verdict decoders world ≠ .waiting question := by
  intro h
  obtain ⟨-, hhead⟩ | ⟨-, hbody⟩ := verdict_waiting decoders h
  · exact hsettled.verifyHead hhead
  · exact hsettled.verifyBody hbody

/-- The protocol holds of a run exactly when no forwarded response times out in its body, provided
that the decoders raise nothing the handlers do not name. -/
theorem asgiApp_followsProtocol_iff (scope : Scope) (world : World) (hsettled : world.Settled)
    (hfaults : world.AiohttpFaultsOnly) (hdecoding : ¬ DecodingEscapes decoders scope world) :
    FollowsProtocol world.inbox (asgiApp settings decoders true scope world) ↔
      ¬ (Forwarded settings decoders scope world ∧ world.TimesOutInBody) := by
  have hcalls := sent_authCalls settings scope
  have hjustified := decision_justified settings decoders scope world
  rw [asgiApp_eq, Forwarded]
  cases hdecision : decision settings decoders scope world with
  | answer status detail =>
      refine iff_of_true ?_ (by simp)
      exact followsProtocol_sendError world.inbox hcalls status detail
  | wait question =>
      refine iff_of_true ?_ (by simp)
      rw [hdecision] at hjustified
      have hquestion : question = .receive :=
        hjustified.resolve_right (verdict_ne_waiting decoders hsettled question)
      exact ⟨hquestion, by simpa [Decision.toPy] using hcalls⟩
  | hangUp =>
      rw [hdecision] at hjustified
      refine iff_of_true (Or.inr ⟨?_, hjustified⟩) (by simp)
      simpa [Decision.toPy, onException] using hcalls
  | escape exc =>
      rw [hdecision] at hjustified
      obtain ⟨fault, rfl, hescaped⟩ | ⟨raised, -, hunnamed, hraised⟩ := hjustified
      · obtain ⟨other, hfault, hraises, hclient, htimeout⟩ | ⟨raised, head, raw, hfault, -⟩ :=
          verdict_escaped decoders hescaped
        · cases hfault
          have hcaught := hfaults fault (hraises.imp_right Or.inl)
          simp [hclient, htimeout] at hcaught
        · cases hfault
      · exact absurd ⟨raised, hunnamed, hraised⟩ hdecoding
  | forward request =>
      simp only [Decision.forward.injEq, exists_eq', true_and]
      exact followsProtocol_proxy_iff world hsettled hfaults request hcalls

theorem noDecoders_decodingEscapes (scope : Scope) (world : World) :
    ¬ DecodingEscapes noDecoders scope world := by
  rintro ⟨exc, hunnamed, hraised⟩
  cases hraised <;> rename_i hraised <;> cases hraised <;> cases hunnamed

/-- A listing whose second half never comes: the total timeout fires after one chunk. -/
def stalledWorld : World where
  verifyHead := some (.error (.clientError "not asked"))
  verifyBody := some (.error (.clientError "not asked"))
  dataHead := some (.ok ⟨200, []⟩)
  dataChunks := [Bytes.utf8 "[1,"]
  dataEnd := some (.broken .timeoutError)

theorem stalledWorld_settled : stalledWorld.Settled := by
  constructor <;> simp [stalledWorld]

theorem stalledWorld_faults : stalledWorld.AiohttpFaultsOnly := by
  intro fault h
  obtain h | h | h | h := h <;> cases h
  · exact Or.inl rfl
  · exact Or.inl rfl
  · exact Or.inr rfl

/-- The same listing, complete. -/
def listedWorld : World := { stalledWorld with dataEnd := some .complete }

theorem asgiApp_followsProtocol_listed :
    FollowsProtocol listedWorld.inbox
      (asgiApp composeSettings noDecoders true ⟨"GET", "/items", []⟩ listedWorld) := by
  have hsettled : listedWorld.Settled := by constructor <;> simp [listedWorld, stalledWorld]
  have hfaults : listedWorld.AiohttpFaultsOnly := by
    intro fault h
    obtain h | h | h | h := h <;> cases h <;> exact Or.inl rfl
  have hdecoding := noDecoders_decodingEscapes ⟨"GET", "/items", []⟩ listedWorld
  apply (asgiApp_followsProtocol_iff composeSettings noDecoders _ _ hsettled hfaults hdecoding).mpr
  rintro ⟨-, -, fault, hend, -⟩
  cases hend

/-- The run on the stalled listing sends a second response head. -/
theorem asgiApp_second_head :
    ¬ ∀ (settings : Settings) (decoders : Decoders) (scope : Scope) (world : World),
      world.Settled → world.AiohttpFaultsOnly → ¬ DecodingEscapes decoders scope world →
        FollowsProtocol world.inbox (asgiApp settings decoders true scope world) := by
  intro h
  have hrun := h composeSettings noDecoders ⟨"GET", "/items", []⟩ stalledWorld stalledWorld_settled
    stalledWorld_faults (noDecoders_decodingEscapes _ _)
  obtain hcomplete | ⟨hnothing, -⟩ := hrun
  · rw [← ResponseState.run_idle_iff] at hcomplete
    revert hcomplete
    decide
  · revert hnothing
    decide

end ApigateBenchmark.GatewayPython
