import ApigateBenchmark.GatewayPython.ResponseProtocol

/-!
# How the failure of an upstream is reported

The exceptions of aiohttp overlap: the members of its `ServerTimeoutError` family are `ClientError`s and
`TimeoutError`s. `AuthClient.verify` asks for a timeout first; the dispatcher asks for a `ClientError`
first, and so takes a timeout of that family for some other failure. A connection that is not made in
time raises one of them.
-/

namespace ApigateBenchmark.GatewayPython

open Coroutine

variable (settings : Settings) (decoders : Decoders)

/-! ### Failures of the two exchanges -/

/-- The run has called data-service and the call failed before there was a head. -/
def DataFails (scope : Scope) (world : World) (fault : Fault) : Prop :=
  Forwarded settings decoders scope world ∧ world.dataHead = some (.error fault)

/-- The run has called auth-service and the call failed, before its head or in the body of a 200. -/
def VerifyFails (scope : Scope) (world : World) (fault : Fault) : Prop :=
  (scope.method = "GET" ∧ scope.path = "/my-items" ∧ extractAuthorization scope ≠ none) ∧
    (world.verifyHead = some (.error fault) ∨
      (∃ head, world.verifyHead = some (.ok head) ∧ head.status = 200) ∧
        world.verifyBody = some (.error fault))

/-- The client has one response, a head of that status and a body. -/
def AnsweredOnce (run : Py Unit) (status : Nat) : Prop :=
  run.status = .returned () ∧ ∃ headers body, sent run.log = [.start status headers, .body body false]

/-- A timeout of data-service is a 504, any other failure of it a 502, and a failure of `/verify` a 401. -/
structure ReportsFailures (scope : Scope) (world : World) : Prop where
  timeout : ∀ fault, DataFails settings decoders scope world fault → fault.isTimeoutError = true →
    AnsweredOnce (asgiApp settings decoders true scope world) 504
  clientError : ∀ fault, DataFails settings decoders scope world fault → fault.isTimeoutError = false →
    fault.isClientError = true → AnsweredOnce (asgiApp settings decoders true scope world) 502
  verify : ∀ fault, VerifyFails scope world fault →
    AnsweredOnce (asgiApp settings decoders true scope world) 401

theorem answeredOnce_sendError {log : List Action} (hlog : sent log = []) (status : Nat) (detail : String) :
    AnsweredOnce ((sendError status detail).prepend log) status := by
  have hsent : sent ((sendError status detail).prepend log).log = errorEvents status detail := by
    rw [prepend_log, sent_append, hlog, sendError_eq, emit, sent_map_send, List.nil_append]
  exact ⟨rfl, _, _, hsent⟩

/-- A run has one answer. -/
theorem AnsweredOnce.status_eq {run : Py Unit} {status other : Nat} (h : AnsweredOnce run status)
    (hother : AnsweredOnce run other) : status = other := by
  obtain ⟨-, headers, body, hsent⟩ := h
  obtain ⟨-, headers', body', hsent'⟩ := hother
  rw [hsent] at hsent'
  injection hsent' with hstart
  exact (AsgiEvent.start.inj hstart).1

/-- The `except` clauses of the dispatcher, for a failure before the head of data-service. -/
theorem asgiApp_dataFails {scope : Scope} {world : World} {fault : Fault}
    (h : DataFails settings decoders scope world fault) :
    ∃ log, sent log = [] ∧
      asgiApp settings decoders true scope world = (onException (.fault fault)).prepend log := by
  obtain ⟨⟨request, hforward⟩, hhead⟩ := h
  refine ⟨authCalls settings scope ++ [.request request], ?_, ?_⟩
  · rw [sent_append, sent_authCalls]
    rfl
  · rw [asgiApp_eq, hforward, Decision.toPy, proxy_eq, exchange, hhead, prepend_handle, raise_handle,
      prepend_prepend]

theorem asgiApp_clientError {scope : Scope} {world : World} {fault : Fault}
    (h : DataFails settings decoders scope world fault) (hclient : fault.isClientError = true) :
    AnsweredOnce (asgiApp settings decoders true scope world) 502 := by
  obtain ⟨log, hlog, happ⟩ := asgiApp_dataFails settings decoders h
  rw [happ, onException, if_pos hclient]
  exact answeredOnce_sendError hlog 502 _

theorem asgiApp_timeoutError {scope : Scope} {world : World} {fault : Fault}
    (h : DataFails settings decoders scope world fault) (hclient : fault.isClientError = false)
    (htimeout : fault.isTimeoutError = true) :
    AnsweredOnce (asgiApp settings decoders true scope world) 504 := by
  obtain ⟨log, hlog, happ⟩ := asgiApp_dataFails settings decoders h
  rw [happ, onException, hclient, if_neg (by decide), if_pos htimeout]
  exact answeredOnce_sendError hlog 504 _

/-- The `except` clauses of the auth client decide what a failure of `/verify` comes to. -/
theorem decision_verifyFails {scope : Scope} {world : World} {fault : Fault}
    (h : VerifyFails scope world fault) :
    decision settings decoders scope world = match verdictOnFault fault with
      | .rejected detail => .answer 401 detail
      | .waiting question => .wait question
      | .escaped exc => .escape exc
      | .verified user => .forward (myItemsRequest settings scope user) := by
  obtain ⟨⟨hmethod, hpath, hauthorization⟩, hfault⟩ := h
  have hitems : ¬ (scope.method = "GET" ∧ scope.path = "/items") := by
    rw [hpath]
    exact fun hboth => absurd hboth.2 (by decide)
  have hverdict : verdict decoders world = verdictOnFault fault := by
    obtain hhead | ⟨⟨head, hhead, hstatus⟩, hbody⟩ := hfault
    · rw [verdict, hhead]
    · rw [verdict, hhead]
      simp only [hstatus, ne_eq, not_true_eq_false, if_false, hbody]
  rw [decision, if_neg hitems, if_pos ⟨hmethod, hpath⟩, myItemsDecision, if_neg hauthorization, hverdict]
  cases verdictOnFault fault <;> rfl

theorem asgiApp_verifyFails_iff {scope : Scope} {world : World} {fault : Fault}
    (h : VerifyFails scope world fault) :
    AnsweredOnce (asgiApp settings decoders true scope world) 401 ↔
      fault.isClientError = true ∨ fault.isTimeoutError = true := by
  have hdecision := decision_verifyFails settings decoders h
  constructor
  · intro hanswered
    cases fault with
    | valueError text =>
        have hraised : (asgiApp settings decoders true scope world).status =
            .raised (.fault (.valueError text)) := by
          rw [asgiApp_eq, hdecision]
          rfl
        have hreturned := hanswered.1
        rw [hraised] at hreturned
        cases hreturned
    | clientError text => exact Or.inl rfl
    | serverTimeoutError text => exact Or.inl rfl
    | timeoutError => exact Or.inr rfl
  · intro hcovered
    have hrejected : ∃ detail, verdictOnFault fault = .rejected detail := by
      cases fault with
      | valueError text => cases hcovered <;> contradiction
      | _ => exact ⟨_, rfl⟩
    obtain ⟨detail, hdetail⟩ := hrejected
    rw [hdetail] at hdecision
    rw [asgiApp_eq, hdecision]
    exact answeredOnce_sendError (sent_authCalls settings scope) 401 detail

/-- Failures are reported as they should be exactly when the one of data-service is no timeout that is
also a `ClientError`, and the one of `/verify` is of one of the two classes. -/
theorem reportsFailures_iff (scope : Scope) (world : World) :
    ReportsFailures settings decoders scope world ↔
      (∀ fault, DataFails settings decoders scope world fault →
        ¬ (fault.isTimeoutError = true ∧ fault.isClientError = true)) ∧
      ∀ fault, VerifyFails scope world fault →
        fault.isClientError = true ∨ fault.isTimeoutError = true := by
  constructor
  · intro h
    refine ⟨fun fault hfails hboth => ?_, fun fault hfails => ?_⟩
    · have h504 := h.timeout fault hfails hboth.1
      have h502 := asgiApp_clientError settings decoders hfails hboth.2
      exact absurd (h504.status_eq h502) (by decide)
    · exact (asgiApp_verifyFails_iff settings decoders hfails).mp (h.verify fault hfails)
  · intro h
    refine ⟨fun fault hfails htimeout => ?_, fun fault hfails _ hclient => ?_, fun fault hfails => ?_⟩
    · have hclient : fault.isClientError = false :=
        Bool.eq_false_iff.mpr fun hclient => h.1 fault hfails ⟨htimeout, hclient⟩
      exact asgiApp_timeoutError settings decoders hfails hclient htimeout
    · exact asgiApp_clientError settings decoders hfails hclient
    · exact (asgiApp_verifyFails_iff settings decoders hfails).mpr (h.2 fault hfails)

/-- `GET /items` while no connection to data-service comes about. -/
theorem connect_timeout_is_502 :
    ¬ ∀ (settings : Settings) (decoders : Decoders) (scope : Scope) (world : World),
      ReportsFailures settings decoders scope world := by
  intro h
  let world : World := { dataHead := some (.error (.serverTimeoutError "Connection timeout to host")) }
  have hfails : DataFails composeSettings noDecoders ⟨"GET", "/items", []⟩ world
      (.serverTimeoutError "Connection timeout to host") := ⟨⟨_, rfl⟩, rfl⟩
  have h504 := (h composeSettings noDecoders ⟨"GET", "/items", []⟩ world).timeout _ hfails rfl
  have h502 := asgiApp_clientError composeSettings noDecoders hfails rfl
  exact absurd (h504.status_eq h502) (by decide)

end ApigateBenchmark.GatewayPython
