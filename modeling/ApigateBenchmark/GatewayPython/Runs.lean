import ApigateBenchmark.GatewayPython.Gateway

/-!
# What a run of the dispatcher can be

One equation for each function of the gateway, saying what it has done and where it stands in terms
of the answers received, and one case analysis of `dispatch` on top of them. Everything later modules
prove of a run starts from these, so none of them unfolds a handler.

`verdict` is what the auth client makes of the reply of auth-service, and `decision` what a run does
about it before it turns to data-service; both are functions of the request and the answers.
-/

namespace ApigateBenchmark.GatewayPython

open Coroutine

variable (settings : Settings) (decoders : Decoders)

/-- The messages passed to `send`, in order. -/
def sent (log : List Action) : List AsgiEvent :=
  log.filterMap fun
    | .send event => some event
    | _ => none

@[simp] theorem sent_append (l m : List Action) : sent (l ++ m) = sent l ++ sent m := by
  simp only [sent, List.filterMap_append]

@[simp] theorem sent_nil : sent [] = [] := rfl

@[simp] theorem sent_send (event : AsgiEvent) (log : List Action) :
    sent (.send event :: log) = event :: sent log := rfl

@[simp] theorem sent_post (request : UpstreamRequest) (log : List Action) :
    sent (.post request :: log) = sent log := rfl

@[simp] theorem sent_request (request : UpstreamRequest) (log : List Action) :
    sent (.request request :: log) = sent log := rfl

@[simp] theorem sent_map_send (events : List AsgiEvent) : sent (events.map .send) = events := by
  induction events with
  | nil => rfl
  | cons event events ih => rw [List.map_cons, sent_send, ih]

/-- Pass the events to `send`, one after the other. -/
def emit (events : List AsgiEvent) : Py Unit := ⟨events.map .send, .returned ()⟩

theorem emit_prepend (l m : List AsgiEvent) : (emit m).prepend (l.map .send) = emit (l ++ m) := by
  rw [emit, emit, prepend, List.map_append]

/-! ### Error answers -/

def errorEvents (status : Nat) (detail : String) : List AsgiEvent :=
  [.start status
    [(Bytes.utf8 "content-type", Bytes.utf8 "application/json"),
      (Bytes.utf8 "content-length", Bytes.utf8 (toString (errorPayload detail).length))],
    .body (errorPayload detail) false]

theorem sendError_eq (status : Nat) (detail : String) :
    sendError status detail = emit (errorEvents status detail) := rfl

/-! ### The relay -/

/-- Where the relay loop stands after the last chunk received. -/
def streamEnd : Option BodyEnd → Py Unit
  | none => suspend .dataChunk
  | some .complete => pure ()
  | some (.broken fault) => raise (.fault fault)

theorem relayChunks_eq (chunks : List Bytes) (bodyEnd : Option BodyEnd) :
    relayChunks chunks bodyEnd =
      (streamEnd bodyEnd).prepend ((chunks.map fun chunk => AsgiEvent.body chunk true).map .send) := by
  induction chunks with
  | nil => cases bodyEnd with
    | none => rfl
    | some bodyEnd => cases bodyEnd <;> rfl
  | cons chunk chunks ih =>
      rw [relayChunks, ih, send, perform_bind, prepend_prepend]
      rfl

/-- The events of a relayed response up to the last chunk received. -/
def relayedEvents (world : World) (response : ResponseHead) : List AsgiEvent :=
  .start response.status (responseHeadersFromUpstream response.rawHeaders) ::
    world.dataChunks.map fun chunk => .body chunk true

/-- What follows the last chunk: the final message, unless the stream has not ended or broke with an
exception the relay does not catch. -/
def relayEnd : Option BodyEnd → Py Unit
  | none => suspend .dataChunk
  | some .complete => send endBodyMessage
  | some (.broken fault) => if fault.isClientError then send endBodyMessage else raise (.fault fault)

theorem relayResponse_eq (world : World) (response : ResponseHead) :
    relayResponse world response =
      (relayEnd world.dataEnd).prepend ((relayedEvents world response).map .send) := by
  rw [relayResponse, relayChunks_eq, prepend_handle, prepend_bind, send, perform_bind, prepend_prepend]
  refine congrArg (prepend _) ?_
  cases world.dataEnd with
  | none => rfl
  | some bodyEnd => cases bodyEnd with
    | complete => rfl
    | broken fault =>
        simp only [streamEnd, raise_handle, relayEnd]
        split <;> rfl

/-- What a call of data-service comes to. -/
def exchange (world : World) : Py Unit :=
  match world.dataHead with
  | none => suspend .dataHead
  | some (.error fault) => raise (.fault fault)
  | some (.ok head) => relayResponse world head

theorem proxy_eq (world : World) (request : UpstreamRequest) :
    proxy world request = (exchange world).prepend [.request request] := by
  rw [proxy, perform_bind, exchange]
  refine congrArg (prepend _) ?_
  cases world.dataHead with
  | none => rfl
  | some answer => cases answer <;> rfl

/-! ### The verdict of the auth client -/

inductive Verdict where
  | waiting (question : Question)
  | rejected (detail : String)
  | escaped (exc : Exc)
  | verified (user : VerifyOut)
  deriving DecidableEq

def verdictOnFault (fault : Fault) : Verdict :=
  if fault.isTimeoutError then .rejected "auth verify failed: timeout"
  else if fault.isClientError then .rejected ("auth verify failed: " ++ fault.text)
  else .escaped (.fault fault)

def verdictOnBody (raw : Bytes) : Verdict :=
  match decoders.verify raw with
  | .ok user => .verified user
  | .error (.decodeError _) => .rejected "bad verify response"
  | .error exc => .escaped (.decode exc)

def verdict (world : World) : Verdict :=
  match world.verifyHead with
  | none => .waiting .verifyHead
  | some (.error fault) => verdictOnFault fault
  | some (.ok head) =>
      if head.status ≠ 200 then .rejected "invalid or expired token"
      else match world.verifyBody with
        | none => .waiting .verifyBody
        | some (.error fault) => verdictOnFault fault
        | some (.ok raw) => verdictOnBody decoders raw

theorem verdictOnFault_ne_waiting (fault : Fault) (question : Question) :
    verdictOnFault fault ≠ .waiting question := by
  cases fault <;> simp [verdictOnFault, Fault.isClientError, Fault.isTimeoutError]

theorem verdictOnBody_ne_waiting (raw : Bytes) (question : Question) :
    verdictOnBody decoders raw ≠ .waiting question := by
  rw [verdictOnBody]
  split <;> exact Verdict.noConfusion

/-- The auth client waits for a head, then for the body of a 200. -/
theorem verdict_waiting {world : World} {question : Question}
    (h : verdict decoders world = .waiting question) :
    (question = .verifyHead ∧ world.verifyHead = none) ∨
      (question = .verifyBody ∧ world.verifyBody = none) := by
  rw [verdict] at h
  split at h
  · rename_i hhead
    exact Or.inl ⟨(Verdict.waiting.inj h).symm, hhead⟩
  · exact absurd h (verdictOnFault_ne_waiting _ question)
  · split at h
    · exact absurd h (by simp)
    · split at h
      · rename_i hbody
        exact Or.inr ⟨(Verdict.waiting.inj h).symm, hbody⟩
      · exact absurd h (verdictOnFault_ne_waiting _ question)
      · exact absurd h (verdictOnBody_ne_waiting decoders _ question)

theorem verdictOnFault_escaped {fault : Fault} {exc : Exc} (h : verdictOnFault fault = .escaped exc) :
    exc = .fault fault ∧ fault.isClientError = false ∧ fault.isTimeoutError = false := by
  cases fault <;> simp_all [verdictOnFault, Fault.isClientError, Fault.isTimeoutError]

theorem verdictOnBody_escaped {raw : Bytes} {exc : Exc} (h : verdictOnBody decoders raw = .escaped exc) :
    ∃ raised, exc = .decode raised ∧ decoders.verify raw = .error raised ∧ raised.isDecodeError = false := by
  rw [verdictOnBody] at h
  split at h
  · cases h
  · cases h
  · rename_i raised hother hdecode
    refine ⟨raised, (Verdict.escaped.inj h).symm, hdecode, ?_⟩
    cases raised with
    | decodeError text => exact absurd rfl (hother text)
    | unicodeDecodeError text => rfl
    | recursionError text => rfl

/-- What gets past the auth client: a fault that neither of its `except` clauses covers, or an
exception its decoder raises on a 200 and the last clause does not name. -/
theorem verdict_escaped {world : World} {exc : Exc} (h : verdict decoders world = .escaped exc) :
    (∃ fault, exc = .fault fault ∧
        (world.verifyHead = some (.error fault) ∨ world.verifyBody = some (.error fault)) ∧
        fault.isClientError = false ∧ fault.isTimeoutError = false) ∨
      ∃ raised head raw, exc = .decode raised ∧ world.verifyHead = some (.ok head) ∧ head.status = 200 ∧
        world.verifyBody = some (.ok raw) ∧ decoders.verify raw = .error raised ∧
        raised.isDecodeError = false := by
  rw [verdict] at h
  split at h
  · cases h
  · rename_i fault hhead
    obtain ⟨rfl, hother⟩ := verdictOnFault_escaped h
    exact Or.inl ⟨fault, rfl, Or.inl hhead, hother⟩
  · rename_i head hhead
    split at h
    · cases h
    · rename_i hstatus
      split at h
      · cases h
      · rename_i fault hbody
        obtain ⟨rfl, hother⟩ := verdictOnFault_escaped h
        exact Or.inl ⟨fault, rfl, Or.inr hbody, hother⟩
      · rename_i raw hbody
        obtain ⟨raised, rfl, hdecode, hunnamed⟩ := verdictOnBody_escaped decoders h
        exact Or.inr ⟨raised, head, raw, rfl, hhead, not_not.mp hstatus, hbody, hdecode, hunnamed⟩

def Verdict.toPy : Verdict → Py VerifyOut
  | .waiting question => suspend question
  | .rejected detail => raise (.authError 401 detail)
  | .escaped exc => raise exc
  | .verified user => pure user

theorem authClientVerify_eq (world : World) (authorization : String) :
    authClientVerify settings decoders world authorization =
      (verdict decoders world).toPy.prepend [.post (verifyRequest settings authorization)] := by
  rw [authClientVerify, verifyExchange, perform_bind, prepend_handle, prepend_bind]
  refine congrArg (prepend _) ?_
  have hfault : ∀ fault : Fault,
      (raise (.fault fault) : Py Bytes).handle verifyExcept >>= decodeVerified decoders =
        (verdictOnFault fault).toPy := by
    intro fault
    cases fault <;> rfl
  rw [verdict]
  cases hhead : world.verifyHead with
  | none => rfl
  | some answer => cases answer with
    | error fault => exact hfault fault
    | ok head =>
        simp only [awaitCall, Option.map_some, Except.mapError, await_ok, pure_bind]
        by_cases hstatus : head.status = 200
        · simp only [hstatus, ne_eq, not_true_eq_false, if_false]
          cases world.verifyBody with
          | none => rfl
          | some answer => cases answer with
            | error fault => exact hfault fault
            | ok raw =>
                simp only [Option.map_some, Except.mapError, await_ok, pure_handle, pure_bind,
                  decodeVerified, verdictOnBody]
                cases decoders.verify raw with
                | ok user => rfl
                | error exc => cases exc <;> rfl
        · simp only [hstatus, ne_eq, not_false_eq_true, if_true]
          rfl

/-! ### Reading a body -/

theorem firstRequest_cases (inbox : List AsgiMessage) :
    firstRequest inbox = suspend .receive ∨ firstRequest inbox = raise .clientDisconnected ∨
      ∃ first, firstRequest inbox = pure first := by
  induction inbox with
  | nil => exact Or.inl rfl
  | cons message rest ih => cases message with
    | request body moreBody => exact Or.inr (Or.inr ⟨_, rfl⟩)
    | disconnect => exact Or.inr (Or.inl rfl)
    | other type => exact ih

theorem moreRequests_cases (chunks : List Bytes) (inbox : List AsgiMessage) :
    moreRequests chunks inbox = suspend .receive ∨ moreRequests chunks inbox = raise .clientDisconnected ∨
      ∃ last, moreRequests chunks inbox = pure last := by
  induction inbox generalizing chunks with
  | nil => exact Or.inl rfl
  | cons message rest ih => cases message with
    | request body moreBody =>
        simp only [moreRequests]
        split
        · exact ih _
        · exact Or.inr (Or.inr ⟨_, rfl⟩)
    | disconnect => exact Or.inr (Or.inl rfl)
    | other type => exact ih chunks

/-- Reading a body performs nothing: it waits, finds the client gone, or has the body. -/
theorem readBody_cases (inbox : List AsgiMessage) :
    readBody inbox = suspend .receive ∨ readBody inbox = raise .clientDisconnected ∨
      ∃ body rest, readBody inbox = pure (body, rest) := by
  rcases firstRequest_cases inbox with hfirst | hfirst | ⟨⟨firstChunk, moreBody, rest⟩, hfirst⟩
  · exact Or.inl (by rw [readBody, hfirst, suspend_bind])
  · exact Or.inr (Or.inl (by rw [readBody, hfirst, raise_bind]))
  · cases moreBody with
    | false => exact Or.inr (Or.inr ⟨_, _, by rw [readBody, hfirst, pure_bind]; rfl⟩)
    | true =>
        simp only [readBody, hfirst, pure_bind, if_true]
        rcases moreRequests_cases (if firstChunk = [] then [] else [firstChunk]) rest with
          hmore | hmore | ⟨⟨chunks, rest'⟩, hmore⟩
        · exact Or.inl (by rw [hmore, suspend_bind])
        · exact Or.inr (Or.inl (by rw [hmore, raise_bind]))
        · exact Or.inr (Or.inr ⟨_, _, by rw [hmore, pure_bind]⟩)

/-! ### The routes

Before it turns to data-service a run has decided what to do: answer on its own, go on waiting, give
up because the client is gone, let an exception escape, or forward a request.
-/

inductive Decision where
  | answer (status : Nat) (detail : String)
  | wait (question : Question)
  | hangUp
  | escape (exc : Exc)
  | forward (request : UpstreamRequest)
  deriving DecidableEq

def Decision.toPy (world : World) : Decision → Py Unit
  | .answer status detail => sendError status detail
  | .wait question => suspend question
  | .hangUp => raise .clientDisconnected
  | .escape exc => raise exc
  | .forward request => proxy world request

def myItemsDecision (scope : Scope) (world : World) : Decision :=
  if extractAuthorization scope = none then .answer 401 "missing authorization"
  else match verdict decoders world with
    | .waiting question => .wait question
    | .rejected detail => .answer 401 detail
    | .escaped exc => .escape exc
    | .verified user => .forward (myItemsRequest settings scope user)

/-- What a handler does about what its decoder made of a body. -/
def decodedDecision {α : Type} (request : α → UpstreamRequest) (decoded : Except DecodeExc α) : Decision :=
  match decoded with
  | .ok payload => .forward (request payload)
  | .error (.decodeError text) => .answer 400 text
  | .error exc => .escape (.decode exc)

def bodyDecision {α : Type} (world : World) (decode : Bytes → Except DecodeExc α)
    (request : Bytes → α → UpstreamRequest) : Decision :=
  match (readBody world.inbox).status with
  | .suspended question => .wait question
  | .raised _ => .hangUp
  | .returned (body, _) => decodedDecision (request body) (decode body)

def decision (scope : Scope) (world : World) : Decision :=
  if scope.method = "GET" ∧ scope.path = "/items" then .forward (itemsRequest settings scope)
  else if scope.method = "GET" ∧ scope.path = "/my-items" then myItemsDecision settings decoders scope world
  else if scope.method = "POST" ∧ scope.path = "/items/search" then
    bodyDecision world decoders.search fun body _ => searchRequest settings scope body
  else if scope.method = "POST" ∧ scope.path = "/items/lookup" then
    bodyDecision world decoders.lookup fun _ payload => lookupRequest settings scope payload
  else .answer 404 ("unknown route: " ++ scope.method ++ " " ++ scope.path)

theorem decodedDecision_ne_wait {α : Type} (request : α → UpstreamRequest) (decoded : Except DecodeExc α)
    (question : Question) : decodedDecision request decoded ≠ .wait question := by
  unfold decodedDecision
  split <;> exact Decision.noConfusion

theorem decodedDecision_ne_hangUp {α : Type} (request : α → UpstreamRequest)
    (decoded : Except DecodeExc α) : decodedDecision request decoded ≠ .hangUp := by
  unfold decodedDecision
  split <;> exact Decision.noConfusion

/-- A handler forwards what its decoder accepts. -/
theorem decodedDecision_forward {α : Type} {request : α → UpstreamRequest} {decoded : Except DecodeExc α}
    {forwarded : UpstreamRequest} (h : decodedDecision request decoded = .forward forwarded) :
    ∃ payload, decoded = .ok payload ∧ request payload = forwarded := by
  unfold decodedDecision at h
  split at h
  · exact ⟨_, rfl, Decision.forward.inj h⟩
  · cases h
  · cases h

theorem decodedDecision_unnamed {α : Type} (request : α → UpstreamRequest) {exc : DecodeExc}
    (hunnamed : exc.isDecodeError = false) :
    decodedDecision request (.error exc) = .escape (.decode exc) := by
  cases exc with
  | decodeError text => cases hunnamed
  | unicodeDecodeError text => rfl
  | recursionError text => rfl

/-- The calls of auth-service a run makes. -/
def authCalls (scope : Scope) : List Action :=
  if scope.method = "GET" ∧ scope.path = "/my-items" then
    ((extractAuthorization scope).map fun authorization =>
      Action.post (verifyRequest settings authorization)).toList
  else []

theorem handleMyItems_eq (scope : Scope) (world : World) :
    handleMyItems settings decoders scope world =
      ((myItemsDecision settings decoders scope world).toPy world).prepend
        ((extractAuthorization scope).map fun authorization =>
          Action.post (verifyRequest settings authorization)).toList := by
  rw [handleMyItems, myItemsDecision]
  cases extractAuthorization scope with
  | none => rfl
  | some authorization =>
      simp only [authClientVerify_eq, map_eq_pure_bind, prepend_bind, prepend_handle]
      refine congrArg (prepend _) ?_
      cases hverdict : verdict decoders world with
      | waiting question => rfl
      | rejected detail => rfl
      | escaped exc =>
          -- the clause of the handler names `AuthError`, which the auth client has not let escape
          obtain ⟨fault, rfl, -⟩ | ⟨raised, head, raw, rfl, -⟩ := verdict_escaped decoders hverdict
          · rfl
          · rfl
      | verified user => rfl

theorem handleSearch_eq (scope : Scope) (world : World) :
    handleSearch settings decoders scope world =
      (bodyDecision world decoders.search fun body _ => searchRequest settings scope body).toPy world := by
  rw [handleSearch, bodyDecision]
  rcases readBody_cases world.inbox with hbody | hbody | ⟨body, rest, hbody⟩
  · simp only [hbody, suspend_bind, suspend_status, Decision.toPy]
  · simp only [hbody, raise_bind, raise_status, Decision.toPy]
  · simp only [hbody, pure_bind, pure_status]
    cases decoders.search body with
    | ok payload => rfl
    | error exc => cases exc <;> rfl

theorem handleLookup_eq (scope : Scope) (world : World) :
    handleLookup settings decoders scope world =
      (bodyDecision world decoders.lookup fun _ payload => lookupRequest settings scope payload).toPy world := by
  rw [handleLookup, bodyDecision]
  rcases readBody_cases world.inbox with hbody | hbody | ⟨body, rest, hbody⟩
  · simp only [hbody, suspend_bind, suspend_status, Decision.toPy]
  · simp only [hbody, raise_bind, raise_status, Decision.toPy]
  · simp only [hbody, pure_bind, pure_status]
    cases decoders.lookup body with
    | ok payload => rfl
    | error exc => cases exc <;> rfl

theorem dispatch_eq (scope : Scope) (world : World) :
    dispatch settings decoders scope world =
      ((decision settings decoders scope world).toPy world).prepend (authCalls settings scope) := by
  rw [dispatch, decision, authCalls]
  by_cases hitems : scope.method = "GET" ∧ scope.path = "/items"
  · have hmine : ¬ (scope.method = "GET" ∧ scope.path = "/my-items") := by
      rintro ⟨-, hpath⟩
      rw [hpath] at hitems
      exact absurd hitems.2 (by decide)
    rw [if_pos hitems, if_pos hitems, if_neg hmine]
    rfl
  · rw [if_neg hitems, if_neg hitems]
    by_cases hmine : scope.method = "GET" ∧ scope.path = "/my-items"
    · rw [if_pos hmine, if_pos hmine, if_pos hmine, handleMyItems_eq]
    · rw [if_neg hmine, if_neg hmine, if_neg hmine, prepend_nil, handleSearch_eq, handleLookup_eq]
      split
      · rfl
      · split <;> rfl

/-- A run of `asgi_app` on a ready gateway: the calls of auth-service, then what was decided, with
the handlers of the dispatcher around it. -/
theorem asgiApp_eq (scope : Scope) (world : World) :
    asgiApp settings decoders true scope world =
      (((decision settings decoders scope world).toPy world).handle onException).prepend
        (authCalls settings scope) := by
  rw [asgiApp, if_pos rfl, dispatch_eq, prepend_handle]

/-! ### Where a decision comes from -/

/-- The decoder of the request's route raises `exc` on what it is given: the body of a 200 of
auth-service, or the body of the client. -/
inductive DecodingRaises (scope : Scope) (world : World) (exc : DecodeExc) : Prop
  | verify (head : ResponseHead) (raw : Bytes)
      (route : scope.method = "GET" ∧ scope.path = "/my-items")
      (authorized : extractAuthorization scope ≠ none)
      (answered : world.verifyHead = some (.ok head) ∧ head.status = 200 ∧ world.verifyBody = some (.ok raw))
      (raised : decoders.verify raw = .error exc)
  | search (body : Bytes) (rest : List AsgiMessage)
      (route : scope.method = "POST" ∧ scope.path = "/items/search")
      (received : (readBody world.inbox).status = .returned (body, rest))
      (raised : decoders.search body = .error exc)
  | lookup (body : Bytes) (rest : List AsgiMessage)
      (route : scope.method = "POST" ∧ scope.path = "/items/lookup")
      (received : (readBody world.inbox).status = .returned (body, rest))
      (raised : decoders.lookup body = .error exc)

/-- A decoder raises an exception that the handlers do not name. -/
def DecodingEscapes (scope : Scope) (world : World) : Prop :=
  ∃ exc : DecodeExc, exc.isDecodeError = false ∧ DecodingRaises decoders scope world exc

/-- What a decision says of the request and of the answers received. -/
def Decision.Justified (scope : Scope) (world : World) : Decision → Prop
  | .answer _ _ => True
  | .wait question => question = .receive ∨ verdict decoders world = .waiting question
  | .hangUp => (readBody world.inbox).status = .raised .clientDisconnected
  | .escape exc =>
      (∃ fault, exc = .fault fault ∧ verdict decoders world = .escaped (.fault fault)) ∨
        ∃ raised : DecodeExc, exc = .decode raised ∧ raised.isDecodeError = false ∧
          DecodingRaises decoders scope world raised
  | .forward request =>
      request = itemsRequest settings scope ∨
        (∃ user, verdict decoders world = .verified user ∧ request = myItemsRequest settings scope user) ∨
        (∃ body payload, decoders.search body = .ok payload ∧ request = searchRequest settings scope body) ∨
        ∃ body payload, decoders.lookup body = .ok payload ∧ request = lookupRequest settings scope payload

theorem myItemsDecision_justified {scope : Scope} (world : World)
    (hroute : scope.method = "GET" ∧ scope.path = "/my-items") :
    (myItemsDecision settings decoders scope world).Justified settings decoders scope world := by
  rw [myItemsDecision]
  split
  · trivial
  · rename_i hauthorized
    cases hverdict : verdict decoders world with
    | waiting question => exact Or.inr hverdict
    | rejected detail => trivial
    | escaped exc =>
        obtain ⟨fault, rfl, -⟩ | ⟨raised, head, raw, rfl, hhead, hstatus, hbody, hdecode, hunnamed⟩ :=
          verdict_escaped decoders hverdict
        · exact Or.inl ⟨fault, rfl, hverdict⟩
        · exact Or.inr ⟨raised, rfl, hunnamed,
            .verify head raw hroute hauthorized ⟨hhead, hstatus, hbody⟩ hdecode⟩
    | verified user => exact Or.inr (Or.inl ⟨user, hverdict, rfl⟩)

theorem bodyDecision_justified {α : Type} (scope : Scope) (world : World)
    (decode : Bytes → Except DecodeExc α) (request : Bytes → α → UpstreamRequest)
    (hrequest : ∀ body payload, decode body = .ok payload →
      (Decision.forward (request body payload)).Justified settings decoders scope world)
    (hraises : ∀ body rest exc, (readBody world.inbox).status = .returned (body, rest) →
      decode body = .error exc → DecodingRaises decoders scope world exc) :
    (bodyDecision world decode request).Justified settings decoders scope world := by
  rw [bodyDecision]
  rcases readBody_cases world.inbox with hbody | hbody | ⟨body, rest, hbody⟩
  · rw [hbody]
    exact Or.inl rfl
  · simp only [hbody, raise_status, Decision.Justified]
  · simp only [hbody, pure_status]
    cases hdecode : decode body with
    | ok payload => exact hrequest body payload hdecode
    | error exc =>
        have hraised := hraises body rest exc (by rw [hbody, pure_status]) hdecode
        cases exc with
        | decodeError text => trivial
        | unicodeDecodeError text => exact Or.inr ⟨_, rfl, rfl, hraised⟩
        | recursionError text => exact Or.inr ⟨_, rfl, rfl, hraised⟩

theorem decision_justified (scope : Scope) (world : World) :
    (decision settings decoders scope world).Justified settings decoders scope world := by
  rw [decision]
  split
  · exact Or.inl rfl
  · split
    · rename_i hmine
      exact myItemsDecision_justified settings decoders world hmine
    · split
      · rename_i hsearch
        refine bodyDecision_justified settings decoders scope world _ _ ?_ ?_
        · intro body payload hok
          exact Or.inr (Or.inr (Or.inl ⟨body, payload, hok, rfl⟩))
        · intro body rest exc hreceived hraised
          exact .search body rest hsearch hreceived hraised
      · split
        · rename_i hlookup
          refine bodyDecision_justified settings decoders scope world _ _ ?_ ?_
          · intro body payload hok
            exact Or.inr (Or.inr (Or.inr ⟨body, payload, hok, rfl⟩))
          · intro body rest exc hreceived hraised
            exact .lookup body rest hlookup hreceived hraised
        · trivial

theorem bodyDecision_escape {α : Type} {world : World} {body : Bytes} {rest : List AsgiMessage}
    {decode : Bytes → Except DecodeExc α} {exc : DecodeExc} (request : Bytes → α → UpstreamRequest)
    (hreceived : (readBody world.inbox).status = .returned (body, rest))
    (hraised : decode body = .error exc) (hunnamed : exc.isDecodeError = false) :
    bodyDecision world decode request = .escape (.decode exc) := by
  simp only [bodyDecision, hreceived, hraised]
  exact decodedDecision_unnamed (request body) hunnamed

/-- What the handlers do not name of a decoder's exceptions leaves them, and nothing else of it does. -/
theorem decision_escape_iff (scope : Scope) (world : World) :
    (∃ exc, decision settings decoders scope world = .escape (.decode exc)) ↔
      DecodingEscapes decoders scope world := by
  constructor
  · rintro ⟨exc, hescape⟩
    have hjustified := decision_justified settings decoders scope world
    rw [hescape] at hjustified
    obtain ⟨fault, hfault, -⟩ | ⟨raised, -, hunnamed, hraises⟩ := hjustified
    · cases hfault
    · exact ⟨raised, hunnamed, hraises⟩
  · rintro ⟨exc, hunnamed, hraises⟩
    refine ⟨exc, ?_⟩
    cases hraises with
    | verify head raw route authorized answered raised =>
        have hverdict : verdict decoders world = .escaped (.decode exc) := by
          simp only [verdict, answered, verdictOnBody, raised, ne_eq, not_true_eq_false, if_false]
          cases exc with
          | decodeError text => cases hunnamed
          | unicodeDecodeError text => rfl
          | recursionError text => rfl
        simp [decision, route.1, route.2, myItemsDecision, authorized, hverdict]
    | search body rest route received raised =>
        have hescape := bodyDecision_escape (fun body _ => searchRequest settings scope body) received
          raised hunnamed
        simp [decision, route.1, route.2, hescape]
    | lookup body rest route received raised =>
        have hescape := bodyDecision_escape (fun _ payload => lookupRequest settings scope payload) received
          raised hunnamed
        simp [decision, route.1, route.2, hescape]

end ApigateBenchmark.GatewayPython
