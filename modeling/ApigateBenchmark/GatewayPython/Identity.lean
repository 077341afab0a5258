import ApigateBenchmark.DataService.Handlers
import ApigateBenchmark.GatewayPython.Process

/-!
# Who data-service takes the client for

`handle_my_items` copies the client's header block, drops its authorization entries and then assigns the
two identity headers. Assignment to a case-insensitive multidict replaces every entry of that name, so
on the wire there is one of each, whatever the client sent, and `ListMine` reads the verified user.
A 200 of `/verify` whose body makes the decoder raise something other than a `DecodeError` verifies
nobody either, but the exception leaves `asgi_app` and the client is told nothing.
-/

namespace ApigateBenchmark.GatewayPython

open Coroutine Process

variable (settings : Settings) (decoders : Decoders)

/-! ### Header blocks by name -/

def named (name : String) (headers : CIMultiDict) : CIMultiDict :=
  headers.filter fun entry => Bytes.lowerText entry.1 == name

theorem named_cons_of_pos {name key : String} (h : Bytes.lowerText key = name) (value : String)
    (headers : CIMultiDict) : named name ((key, value) :: headers) = (key, value) :: named name headers :=
  List.filter_cons_of_pos (beq_iff_eq.mpr h)

theorem named_cons_of_neg {name key : String} (h : Bytes.lowerText key ≠ name) (value : String)
    (headers : CIMultiDict) : named name ((key, value) :: headers) = named name headers :=
  List.filter_cons_of_neg fun hbeq => h (beq_iff_eq.mp hbeq)

/-- Dropping the entries of one name leaves none of it and all of the others. -/
theorem named_drop_self (name : String) (headers : CIMultiDict) :
    named name (headers.filter fun entry => Bytes.lowerText entry.1 ≠ name) = [] := by
  rw [named, List.filter_filter]
  apply List.filter_eq_nil_iff.mpr
  intro entry _
  simp

theorem named_drop_of_ne {name other : String} (hne : other ≠ name) (headers : CIMultiDict) :
    named name (headers.filter fun entry => Bytes.lowerText entry.1 ≠ other) = named name headers := by
  rw [named, named, List.filter_filter]
  apply List.filter_congr
  intro entry _
  by_cases hname : Bytes.lowerText entry.1 = name
  · simp [hname, Ne.symm hne]
  · simp [hname]

/-- After an assignment the name has the one entry assigned. -/
theorem named_set_self {name key : String} (hkey : Bytes.lowerText key = name) (value : String)
    (headers : CIMultiDict) : named name (headers.set key value) = [(key, value)] := by
  induction headers with
  | nil => exact named_cons_of_pos hkey value []
  | cons entry headers ih =>
      obtain ⟨k, v⟩ := entry
      rw [CIMultiDict.set]
      split
      · rw [named_cons_of_pos hkey, hkey, named_drop_self]
      · rename_i hne
        rw [named_cons_of_neg (hkey ▸ hne), ih]

theorem named_set_of_ne {name key : String} (hkey : Bytes.lowerText key ≠ name) (value : String)
    (headers : CIMultiDict) : named name (headers.set key value) = named name headers := by
  induction headers with
  | nil => exact named_cons_of_neg hkey value []
  | cons entry headers ih =>
      obtain ⟨k, v⟩ := entry
      rw [CIMultiDict.set]
      split
      · rename_i hsame
        have hk : Bytes.lowerText k ≠ name := by rwa [hsame]
        rw [named_cons_of_neg hkey, named_cons_of_neg hk, named_drop_of_ne hkey]
      · by_cases hk : Bytes.lowerText k = name
        · rw [named_cons_of_pos hk, named_cons_of_pos hk, ih]
        · rw [named_cons_of_neg hk, named_cons_of_neg hk, ih]

/-- Cookies touch no entry but those named `Cookie`. -/
theorem named_withCookies {name : String} (hname : "cookie" ≠ name) (cookies : List String)
    (headers : CIMultiDict) : named name (withCookies cookies headers) = named name headers := by
  rw [withCookies]
  split
  · rfl
  · have hcookie : Bytes.lowerText "Cookie" ≠ name := by
      have hlower : Bytes.lowerText "Cookie" = "cookie" := by decide
      rwa [hlower]
    have hdrop : headers.filter (fun entry => !isCookie entry) =
        headers.filter fun entry => Bytes.lowerText entry.1 ≠ "cookie" := by
      apply List.filter_congr
      intro entry _
      rw [isCookie, Bool.eq_iff_iff]
      simp
    have hlast := named_cons_of_neg hcookie
    rw [hdrop, named, List.filter_append]
    change named name _ ++ named name _ = named name headers
    rw [named_drop_of_ne hname, hlast _ []]
    exact List.append_nil _

/-! ### The block on the wire -/

def isOws (x : UInt8) : Bool := x == 0x20 || x == 0x09

def trimOws (value : Bytes) : Bytes := ((value.dropWhile isOws).reverse.dropWhile isOws).reverse

/-- The request as the server at the other end parses it: text in UTF-8, and no white space around a
value. -/
def transmit (request : UpstreamRequest) : DataService.Request where
  headers := request.headers.map fun entry => (Bytes.utf8 entry.1, trimOws (Bytes.utf8 entry.2))
  body := request.data.getD []

theorem values_transmit {name : String} {lowered : Bytes} (hname : Bytes.lower lowered = Bytes.utf8 name)
    (request : UpstreamRequest) :
    (transmit request).values lowered =
      (named name request.headers).map fun entry => trimOws (Bytes.utf8 entry.2) := by
  rw [DataService.Request.values, transmit, List.filter_map, List.map_map, named, hname]
  refine congrArg (List.map _) (List.filter_congr ?_)
  intro entry _
  change (Bytes.lower (Bytes.utf8 entry.1) == Bytes.utf8 name) = (Bytes.lowerText entry.1 == name)
  rw [Bytes.lower_utf8, Bool.eq_iff_iff, beq_iff_eq, beq_iff_eq]
  exact Bytes.utf8_injective.eq_iff

/-- What HTTP lets stand as the value of a header: no line break or zero byte, and no white space at
either end. -/
structure LegalHeaderValue (value : String) : Prop where
  noBreak : ∀ x ∈ Bytes.utf8 value, x ≠ 0x0d ∧ x ≠ 0x0a ∧ x ≠ 0
  start : ∀ x ∈ (Bytes.utf8 value).head?, isOws x = false
  stop : ∀ x ∈ (Bytes.utf8 value).getLast?, isOws x = false

theorem dropWhile_of_head {p : UInt8 → Bool} {l : Bytes} (h : ∀ x ∈ l.head?, p x = false) :
    l.dropWhile p = l := by
  cases l with
  | nil => rfl
  | cons x l => exact List.dropWhile_cons_of_neg (by simpa using h x rfl)

theorem trimOws_eq_self {b : Bytes} (hstart : ∀ x ∈ b.head?, isOws x = false)
    (hstop : ∀ x ∈ b.getLast?, isOws x = false) : trimOws b = b := by
  have hreverse : ∀ x ∈ b.reverse.head?, isOws x = false := by
    rw [List.head?_reverse]
    exact hstop
  rw [trimOws, dropWhile_of_head hstart, dropWhile_of_head hreverse, List.reverse_reverse]

theorem LegalHeaderValue.trimOws_eq {value : String} (h : LegalHeaderValue value) :
    trimOws (Bytes.utf8 value) = Bytes.utf8 value := trimOws_eq_self h.start h.stop

/-! ### The request of `handle_my_items` -/

/-- ASGI lowers the names of a header block. -/
def Scope.LowerNames (scope : Scope) : Prop := ∀ entry ∈ scope.headers, Bytes.lower entry.1 = entry.1

instance (scope : Scope) : Decidable scope.LowerNames :=
  inferInstanceAs (Decidable (∀ entry ∈ scope.headers, Bytes.lower entry.1 = entry.1))

/-- With its authorization dropped, a lower-case block has no authorization in any spelling. -/
theorem named_authorization_dropped {scope : Scope} (hlower : scope.LowerNames) :
    named "authorization" (requestHeadersForUpstream scope true) = [] := by
  apply List.filter_eq_nil_iff.mpr
  intro entry hentry hname
  obtain ⟨header, hheader, rfl⟩ := List.mem_map.mp hentry
  obtain ⟨hmem, hkept⟩ := List.mem_filter.mp hheader
  have hlowered : Bytes.lowerText (Bytes.latin1 header.1) = "authorization" := beq_iff_eq.mp hname
  rw [Bytes.lowerText_latin1, hlower header hmem] at hlowered
  have hkey : header.1 = Bytes.utf8 "authorization" :=
    Bytes.latin1_injective (hlowered.trans (by decide))
  simp [droppedFromRequest, hkey] at hkept

theorem named_myItemsRequest {scope : Scope} (hlower : scope.LowerNames) (user : VerifyOut) :
    named "x-user-id" (myItemsRequest settings scope user).headers = [("x-user-id", user.userId)] ∧
      named "x-user-email" (myItemsRequest settings scope user).headers = [("x-user-email", user.email)] ∧
      named "authorization" (myItemsRequest settings scope user).headers = [] := by
  have hid : Bytes.lowerText "x-user-id" = "x-user-id" := by decide
  have hemail : Bytes.lowerText "x-user-email" = "x-user-email" := by decide
  refine ⟨?_, ?_, ?_⟩
  · rw [myItemsRequest, named_set_of_ne (by decide), named_set_self hid]
  · rw [myItemsRequest, named_set_self hemail]
  · rw [myItemsRequest, named_set_of_ne (by decide), named_set_of_ne (by decide),
      named_authorization_dropped hlower]

/-- The one identity the request carries is the user's, and it carries no authorization. -/
structure CarriesIdentity (request : DataService.Request) (user : VerifyOut) : Prop where
  userId : request.values (Bytes.utf8 "X-User-Id") = [Bytes.utf8 user.userId]
  email : request.values (Bytes.utf8 "X-User-Email") = [Bytes.utf8 user.email]
  authorization : request.values (Bytes.utf8 "Authorization") = []

/-- A reply of auth-service that names a user, in values that can stand in a header. -/
structure VerifyOut.Legal (user : VerifyOut) : Prop where
  userId_ne : user.userId ≠ ""
  userId : LegalHeaderValue user.userId
  email : LegalHeaderValue user.email

theorem carriesIdentity_onWire {scope : Scope} (hlower : scope.LowerNames) {user : VerifyOut}
    (hlegal : user.Legal) {call : WireCall} (hcall : call.request = myItemsRequest settings scope user) :
    CarriesIdentity (transmit call.onWire) user := by
  obtain ⟨hid, hemail, hauthorization⟩ := named_myItemsRequest settings hlower user
  have hnamed : ∀ name, "cookie" ≠ name →
      named name call.onWire.headers = named name (myItemsRequest settings scope user).headers := by
    intro name hname
    rw [WireCall.onWire, named_withCookies hname, hcall]
  constructor
  · have hname : Bytes.lower (Bytes.utf8 "X-User-Id") = Bytes.utf8 "x-user-id" := by decide
    rw [values_transmit hname, hnamed _ (by decide), hid]
    exact congrArg (· :: []) hlegal.userId.trimOws_eq
  · have hname : Bytes.lower (Bytes.utf8 "X-User-Email") = Bytes.utf8 "x-user-email" := by decide
    rw [values_transmit hname, hnamed _ (by decide), hemail]
    exact congrArg (· :: []) hlegal.email.trimOws_eq
  · have hname : Bytes.lower (Bytes.utf8 "Authorization") = Bytes.utf8 "authorization" := by decide
    rw [values_transmit hname, hnamed _ (by decide), hauthorization]
    rfl

/-! ### The verified user -/

/-- The user auth-service vouches for: it answered 200 with a body that decodes. -/
def verifiedUser (scope : Scope) (world : World) : Option VerifyOut :=
  match extractAuthorization scope, world.verifyHead, world.verifyBody with
  | some _, some (.ok head), some (.ok raw) =>
      if head.status = 200 then (decoders.verify raw).toOption else none
  | _, _, _ => none

/-- Nothing but an `aiohttp.ClientError` or a `TimeoutError` came of the call of `/verify`. -/
def World.VerifyFaultsOnly (world : World) : Prop :=
  ∀ fault, world.verifyHead = some (.error fault) ∨ world.verifyBody = some (.error fault) →
    fault.isClientError = true ∨ fault.isTimeoutError = true

theorem verdictOnFault_rejected {fault : Fault}
    (h : fault.isClientError = true ∨ fault.isTimeoutError = true) :
    ∃ detail, verdictOnFault fault = .rejected detail := by
  rw [verdictOnFault]
  split
  · exact ⟨_, rfl⟩
  · split
    · exact ⟨_, rfl⟩
    · simp_all

/-- `handle_my_items` forwards for the verified user; without one it answers 401, still waits for
auth-service or lets an exception of the decoder through. -/
theorem myItemsDecision_cases (scope : Scope) {world : World} (hfaults : world.VerifyFaultsOnly) :
    (∃ user, verifiedUser decoders scope world = some user ∧
        myItemsDecision settings decoders scope world = .forward (myItemsRequest settings scope user)) ∨
      verifiedUser decoders scope world = none ∧
        ((∃ detail, myItemsDecision settings decoders scope world = .answer 401 detail) ∨
          (∃ question, (question = .verifyHead ∨ question = .verifyBody) ∧
            myItemsDecision settings decoders scope world = .wait question) ∨
          ∃ exc, myItemsDecision settings decoders scope world = .escape (.decode exc)) := by
  rw [verifiedUser, myItemsDecision]
  cases extractAuthorization scope with
  | none => exact Or.inr ⟨rfl, Or.inl ⟨_, if_pos rfl⟩⟩
  | some authorization =>
      rw [if_neg (by simp), verdict]
      cases hhead : world.verifyHead with
      | none => exact Or.inr ⟨rfl, Or.inr (Or.inl ⟨_, Or.inl rfl, rfl⟩)⟩
      | some reply => cases reply with
        | error fault =>
            obtain ⟨detail, hdetail⟩ := verdictOnFault_rejected (hfaults fault (Or.inl hhead))
            exact Or.inr ⟨rfl, Or.inl ⟨detail, by simp only [hdetail]⟩⟩
        | ok head =>
            by_cases hstatus : head.status = 200
            · simp only [hstatus, ne_eq, not_true_eq_false, if_false]
              cases hbody : world.verifyBody with
              | none => exact Or.inr ⟨rfl, Or.inr (Or.inl ⟨_, Or.inr rfl, rfl⟩)⟩
              | some reply => cases reply with
                | error fault =>
                    obtain ⟨detail, hdetail⟩ := verdictOnFault_rejected (hfaults fault (Or.inr hbody))
                    exact Or.inr ⟨rfl, Or.inl ⟨detail, by simp only [hdetail]⟩⟩
                | ok raw => cases hdecode : decoders.verify raw with
                  | ok user =>
                      exact Or.inl ⟨user, by simp [hdecode, hstatus, Except.toOption],
                        by simp only [verdictOnBody, hdecode]⟩
                  | error exc =>
                      refine Or.inr ⟨by simp [hdecode, Except.toOption], ?_⟩
                      cases exc with
                      | decodeError text =>
                          exact Or.inl ⟨_, by simp only [verdictOnBody, hdecode]; rfl⟩
                      | unicodeDecodeError text =>
                          exact Or.inr (Or.inr ⟨_, by simp only [verdictOnBody, hdecode]; rfl⟩)
                      | recursionError text =>
                          exact Or.inr (Or.inr ⟨_, by simp only [verdictOnBody, hdecode]; rfl⟩)
            · refine Or.inr ⟨?_, Or.inl ⟨"invalid or expired token", ?_⟩⟩
              · cases world.verifyBody with
                | none => rfl
                | some reply => cases reply with
                  | error fault => rfl
                  | ok raw => exact if_neg hstatus
              · simp only [ne_eq, hstatus, not_false_eq_true, if_true]

/-! ### What reaches data-service -/

/-- The requests data-service receives on behalf of a task. -/
def Process.dataRequests (process : Process) (task : Nat) : List DataService.Request :=
  (((process.callsOf task).filter fun call => call.service == .data).map WireCall.onWire).map transmit

structure Task.AsksMyItems (task : Task) : Prop where
  method : task.scope.method = "GET"
  path : task.scope.path = "/my-items"
  lower : task.scope.LowerNames

theorem Task.AsksMyItems.decision_eq {task : Task} (h : task.AsksMyItems) :
    decision settings decoders task.scope task.world =
      myItemsDecision settings decoders task.scope task.world := by
  have hitems : ¬ (task.scope.method = "GET" ∧ task.scope.path = "/items") := by
    intro hboth
    rw [h.path] at hboth
    exact absurd hboth.2 (by decide)
  rw [decision, if_neg hitems, if_pos ⟨h.method, h.path⟩]

/-- The calls of data-service are what was decided; the one of auth-service is none of them. -/
theorem dataCalls_eq {labels : List Label} {process : Process} {id : Nat} {task : Task}
    (hrun : Process.run settings decoders labels = some process) (htask : process.tasks[id]? = some task) :
    ((process.callsOf id).filter fun call => call.service == .data).map
        (fun call => (call.service, call.request)) =
      (decision settings decoders task.scope task.world).calls := by
  have hcalls := (Process.run_consistent settings decoders hrun).calls id task htask
  have hfiltered := congrArg (List.filter fun call => call.1 == Service.data) hcalls
  rw [List.filter_map, Task.calls_eq, List.filter_append] at hfiltered
  have hverify : (verifyCalls settings task.scope).filter (fun call => call.1 == Service.data) = [] := by
    rw [verifyCalls, authCalls]
    split
    · cases extractAuthorization task.scope <;> rfl
    · rfl
  have hdecided : ∀ decision : Decision,
      decision.calls.filter (fun call => call.1 == Service.data) = decision.calls := by
    intro decision
    cases decision <;> rfl
  rw [hverify, hdecided, List.nil_append] at hfiltered
  exact hfiltered

theorem dataRequests_nil {labels : List Label} {process : Process} {id : Nat} {task : Task}
    (hrun : Process.run settings decoders labels = some process) (htask : process.tasks[id]? = some task)
    (hnone : (decision settings decoders task.scope task.world).calls = []) :
    process.dataRequests id = [] := by
  have hcalls := dataCalls_eq settings decoders hrun htask
  rw [hnone] at hcalls
  rw [Process.dataRequests, List.map_eq_nil_iff.mp hcalls]
  rfl

theorem dataRequests_forward {labels : List Label} {process : Process} {id : Nat} {task : Task}
    {request : UpstreamRequest}
    (hrun : Process.run settings decoders labels = some process) (htask : process.tasks[id]? = some task)
    (hforward : decision settings decoders task.scope task.world = .forward request) :
    ∃ call : WireCall, call.request = request ∧ process.dataRequests id = [transmit call.onWire] := by
  have hcalls := dataCalls_eq settings decoders hrun htask
  rw [hforward] at hcalls
  obtain ⟨call, hfilter, hcall⟩ := List.map_eq_singleton_iff.mp hcalls
  exact ⟨call, congrArg Prod.snd hcall, by rw [Process.dataRequests, hfilter]; rfl⟩

theorem mem_dataRequests {labels : List Label} {process : Process} {id : Nat} {task : Task}
    {request : DataService.Request}
    (hrun : Process.run settings decoders labels = some process) (htask : process.tasks[id]? = some task)
    (hrequest : request ∈ process.dataRequests id) :
    ∃ (call : WireCall) (upstream : UpstreamRequest),
      decision settings decoders task.scope task.world = .forward upstream ∧
        call.request = upstream ∧ request = transmit call.onWire := by
  cases hdecision : decision settings decoders task.scope task.world with
  | forward upstream =>
      obtain ⟨call, hcall, hrequests⟩ := dataRequests_forward settings decoders hrun htask hdecision
      rw [hrequests] at hrequest
      exact ⟨call, upstream, rfl, hcall, List.mem_singleton.mp hrequest⟩
  | _ =>
      have hnone := dataRequests_nil settings decoders hrun htask (by rw [hdecision]; rfl)
      rw [hnone] at hrequest
      exact absurd hrequest List.not_mem_nil

/-- The client has its 401. -/
def Rejected (run : Py Unit) : Prop :=
  run.status = .returned () ∧ ∃ detail, sent run.log = errorEvents 401 detail

/-- The call of `/verify` has not come to its outcome yet. -/
def AwaitsVerify (run : Py Unit) : Prop :=
  run.status = .suspended .verifyHead ∨ run.status = .suspended .verifyBody

theorem asgiApp_rejected {scope : Scope} {world : World} {detail : String}
    (h : decision settings decoders scope world = .answer 401 detail) :
    Rejected (asgiApp settings decoders true scope world) := by
  rw [asgiApp_eq, h]
  refine ⟨rfl, detail, ?_⟩
  change sent (authCalls settings scope ++ (sendError 401 detail).log) = _
  rw [sent_append, sendError_eq, emit, sent_map_send, authCalls]
  split
  · cases extractAuthorization scope <;> rfl
  · rfl

theorem asgiApp_awaitsVerify {scope : Scope} {world : World} {question : Question}
    (hquestion : question = .verifyHead ∨ question = .verifyBody)
    (h : decision settings decoders scope world = .wait question) :
    AwaitsVerify (asgiApp settings decoders true scope world) := by
  rw [asgiApp_eq, h]
  exact hquestion.imp (congrArg _) (congrArg _)

theorem asgiApp_undecoded {scope : Scope} {world : World} {exc : DecodeExc}
    (h : decision settings decoders scope world = .escape (.decode exc)) :
    (asgiApp settings decoders true scope world).status = .raised (.decode exc) := by
  rw [asgiApp_eq, h]
  rfl

/-- A `GET /my-items` at any moment of any run of the process. -/
theorem myItems_cases {labels : List Label} {process : Process} {id : Nat} {task : Task}
    (hrun : Process.run settings decoders labels = some process) (htask : process.tasks[id]? = some task)
    (hmine : task.AsksMyItems) (hfaults : task.world.VerifyFaultsOnly) :
    (∃ user, verifiedUser decoders task.scope task.world = some user ∧
        ∃ request, process.dataRequests id = [request] ∧ (user.Legal → CarriesIdentity request user)) ∨
      verifiedUser decoders task.scope task.world = none ∧ process.dataRequests id = [] ∧
        (Rejected (task.run settings decoders) ∨ AwaitsVerify (task.run settings decoders) ∨
          ∃ exc, decision settings decoders task.scope task.world = .escape (.decode exc)) := by
  have hdecision := hmine.decision_eq settings decoders
  obtain ⟨user, huser, hforward⟩ | ⟨hnone, hdecided⟩ :=
    myItemsDecision_cases settings decoders task.scope hfaults
  · obtain ⟨call, hcall, hrequests⟩ :=
      dataRequests_forward settings decoders hrun htask (hdecision.trans hforward)
    refine Or.inl ⟨user, huser, transmit call.onWire, hrequests, ?_⟩
    intro hlegal
    exact carriesIdentity_onWire settings hmine.lower hlegal hcall
  · refine Or.inr ⟨hnone, ?_⟩
    obtain ⟨detail, hanswer⟩ | ⟨question, hquestion, hwait⟩ | ⟨exc, hescape⟩ := hdecided
    · have hcalls := dataRequests_nil settings decoders hrun htask (by rw [hdecision, hanswer]; rfl)
      exact ⟨hcalls, Or.inl (asgiApp_rejected settings decoders (hdecision.trans hanswer))⟩
    · have hcalls := dataRequests_nil settings decoders hrun htask (by rw [hdecision, hwait]; rfl)
      exact ⟨hcalls, Or.inr (Or.inl (asgiApp_awaitsVerify settings decoders hquestion (hdecision.trans hwait)))⟩
    · have hcalls := dataRequests_nil settings decoders hrun htask (by rw [hdecision, hescape]; rfl)
      exact ⟨hcalls, Or.inr (Or.inr ⟨exc, hdecision.trans hescape⟩)⟩

/-- On a body the auth client cannot decode and does not reject, the task verifies nobody, and its run
is over without an answer. -/
theorem undecoded_cases {task : Task} (hmine : task.AsksMyItems)
    (hescapes : DecodingEscapes decoders task.scope task.world) :
    verifiedUser decoders task.scope task.world = none ∧
      ¬ Rejected (task.run settings decoders) ∧ ¬ AwaitsVerify (task.run settings decoders) := by
  obtain ⟨exc, hescape⟩ := (decision_escape_iff settings decoders task.scope task.world).mpr hescapes
  have hstatus := asgiApp_undecoded settings decoders hescape
  refine ⟨?_, ?_, ?_⟩
  · obtain ⟨exc, -, hraises⟩ := hescapes
    cases hraises with
    | verify head raw route authorized answered raised =>
        obtain ⟨hhead, hok, hbody⟩ := answered
        obtain ⟨authorization, hauthorization⟩ := Option.ne_none_iff_exists'.mp authorized
        simp [verifiedUser, hauthorization, hhead, hbody, hok, raised, Except.toOption]
    | search body rest route => exact absurd (hmine.path.symm.trans route.2) (by decide)
    | lookup body rest route => exact absurd (hmine.path.symm.trans route.2) (by decide)
  · rintro ⟨hreturned, -⟩
    rw [Task.run, hstatus] at hreturned
    cases hreturned
  · intro hawaits
    rw [AwaitsVerify, Task.run, hstatus] at hawaits
    obtain h | h := hawaits <;> cases h

/-- `ListMine` answers a request that carries a user's identity with that user's products. -/
theorem CarriesIdentity.listMine {request : DataService.Request} {user : VerifyOut}
    (h : CarriesIdentity request user) (hlegal : user.Legal)
    (toLower : DataService.GoString → DataService.GoString) (products : List DataService.Product) :
    DataService.listMine (DataService.newStore toLower products) request =
      ⟨200, .products (products.filter fun product => product.ownerId == Bytes.utf8 user.userId)⟩ := by
  apply DataService.listMine_of_values h.userId
  intro hempty
  have hnil : Bytes.utf8 "" = [] := rfl
  exact hlegal.userId_ne (Bytes.utf8_injective (hempty.trans hnil.symm))

/-- What data-service answers on behalf of a task. -/
def Process.listings (store : DataService.Store) (process : Process) (task : Nat) :
    List DataService.Response :=
  (process.dataRequests task).map (DataService.listMine store)

/-- The listings of a task follow from the verified user. -/
theorem listings_eq {toLower : DataService.GoString → DataService.GoString}
    {products : List DataService.Product} {labels : List Label} {process : Process} {id : Nat}
    {task : Task} (hrun : Process.run settings decoders labels = some process)
    (htask : process.tasks[id]? = some task) (hmine : task.AsksMyItems)
    (hfaults : task.world.VerifyFaultsOnly)
    (hlegal : ∀ user, verifiedUser decoders task.scope task.world = some user → user.Legal) :
    process.listings (DataService.newStore toLower products) id =
      ((verifiedUser decoders task.scope task.world).map fun user =>
        (⟨200, .products (products.filter fun product =>
          product.ownerId == Bytes.utf8 user.userId)⟩ : DataService.Response)).toList := by
  obtain ⟨user, huser, request, hrequests, hcarries⟩ | ⟨hnone, hrequests, -⟩ :=
    myItems_cases settings decoders hrun htask hmine hfaults
  · have hlisting := (hcarries (hlegal user huser)).listMine (hlegal user huser) toLower products
    rw [Process.listings, hrequests, huser, List.map_singleton, hlisting]
    rfl
  · rw [Process.listings, hrequests, hnone]
    rfl

/-- No request for `/my-items` reaches data-service under an identity that auth-service did not vouch
for, the client is told so, and two clients with the same first authorization value are told the same:
all of this exactly when the body of a 200 of `/verify` is decoded or refused with a `DecodeError`. -/
theorem myItems_identity_iff (toLower : DataService.GoString → DataService.GoString)
    (products : List DataService.Product) {labels : List Label} {process : Process} {id : Nat} {task : Task}
    (hrun : Process.run settings decoders labels = some process) (htask : process.tasks[id]? = some task)
    (hmine : task.AsksMyItems) (hfaults : task.world.VerifyFaultsOnly)
    (hlegal : ∀ user, verifiedUser decoders task.scope task.world = some user → user.Legal) :
    ((verifiedUser decoders task.scope task.world = none →
        process.dataRequests id = [] ∧
          (¬ AwaitsVerify (task.run settings decoders) → Rejected (task.run settings decoders))) ∧
      (∀ user, verifiedUser decoders task.scope task.world = some user →
        ∃ request, process.dataRequests id = [request] ∧ CarriesIdentity request user ∧
          DataService.listMine (DataService.newStore toLower products) request =
            ⟨200, .products (products.filter fun product => product.ownerId == Bytes.utf8 user.userId)⟩) ∧
      ∀ (others : List Label) (other : Process) (otherId : Nat) (otherTask : Task),
        Process.run settings decoders others = some other → other.tasks[otherId]? = some otherTask →
        otherTask.AsksMyItems → extractAuthorization otherTask.scope = extractAuthorization task.scope →
        otherTask.world.verifyHead = task.world.verifyHead →
        otherTask.world.verifyBody = task.world.verifyBody →
        other.listings (DataService.newStore toLower products) otherId =
          process.listings (DataService.newStore toLower products) id) ↔
      ¬ DecodingEscapes decoders task.scope task.world := by
  constructor
  · rintro ⟨hrejected, -⟩ hescapes
    obtain ⟨hnone, hnot, hawaits⟩ := undecoded_cases settings decoders hmine hescapes
    exact hnot ((hrejected hnone).2 hawaits)
  intro hdecoding
  refine ⟨?_, ?_, ?_⟩
  · intro hnone
    obtain ⟨user, huser, -⟩ | ⟨-, hrequests, houtcome⟩ :=
      myItems_cases settings decoders hrun htask hmine hfaults
    · rw [hnone] at huser
      exact absurd huser (by simp)
    · refine ⟨hrequests, fun hanswered => houtcome.resolve_right ?_⟩
      rintro (hawaits | hescape)
      · exact hanswered hawaits
      · exact hdecoding ((decision_escape_iff settings decoders _ _).mp hescape)
  · intro user huser
    obtain ⟨other, hother, request, hrequests, hcarries⟩ | ⟨hnone, -⟩ :=
      myItems_cases settings decoders hrun htask hmine hfaults
    · obtain rfl : other = user := Option.some.inj (hother.symm.trans huser)
      have hidentity := hcarries (hlegal other huser)
      exact ⟨request, hrequests, hidentity, hidentity.listMine (hlegal other huser) toLower products⟩
    · rw [hnone] at huser
      exact absurd huser (by simp)
  · intro others other otherId otherTask hother hotherTask hotherMine hauthorization hhead hbody
    have hsame : verifiedUser decoders otherTask.scope otherTask.world =
        verifiedUser decoders task.scope task.world := by
      rw [verifiedUser, verifiedUser, hauthorization, hhead, hbody]
    have hotherFaults : otherTask.world.VerifyFaultsOnly := by
      rw [World.VerifyFaultsOnly, hhead, hbody]
      exact hfaults
    rw [listings_eq settings decoders hrun htask hmine hfaults hlegal,
      listings_eq settings decoders hother hotherTask hotherMine hotherFaults (hsame ▸ hlegal), hsame]

/-- A client that claims to be somebody else, twice, and brings a second authorization. -/
def spoofedScope : Scope where
  method := "GET"
  path := "/my-items"
  headers := [("x-user-id", "u3"), ("authorization", "Bearer ann"), ("x-user-id", "u2"),
    ("authorization", "Bearer bob")].map fun entry => (Bytes.utf8 entry.1, Bytes.utf8 entry.2)

def ann : VerifyOut := ⟨"u1", "ann@example.com"⟩

def annDecoders : Decoders := { noDecoders with verify := fun _ => .ok ann }

def spoofedLabels : List Label :=
  [.arrive spoofedScope, .deliver 0 (.verifyHead (.ok ⟨200, []⟩)),
    .deliver 0 (.verifyBody (.ok (Bytes.utf8 "ann")))]

def spoofedProcess : Process := (Process.run composeSettings annDecoders spoofedLabels).getD {}

def spoofedTask : Task where
  scope := spoofedScope
  world := { verifyHead := some (.ok ⟨200, []⟩), verifyBody := some (.ok (Bytes.utf8 "ann")) }

theorem myItems_identity_spoofed :
    ∃ request, spoofedProcess.dataRequests 0 = [request] ∧ CarriesIdentity request ann ∧
      DataService.listMine (DataService.newStore id DataService.seed) request =
        ⟨200, .products (DataService.seed.filter fun product =>
          product.ownerId == Bytes.utf8 ann.userId)⟩ := by
  have hmine : spoofedTask.AsksMyItems := ⟨rfl, rfl, by decide⟩
  have hfaults : spoofedTask.world.VerifyFaultsOnly := by
    intro fault h
    obtain h | h := h <;> exact absurd h (by simp [spoofedTask])
  have huser : verifiedUser annDecoders spoofedTask.scope spoofedTask.world = some ann := by decide
  have hlegal : ann.Legal := ⟨by decide, ⟨by decide +kernel, by decide +kernel, by decide +kernel⟩,
    ⟨by decide +kernel, by decide +kernel, by decide +kernel⟩⟩
  have hrun : Process.run composeSettings annDecoders spoofedLabels = some spoofedProcess := rfl
  have htask : spoofedProcess.tasks[0]? = some spoofedTask := rfl
  have hdecoding : ¬ DecodingEscapes annDecoders spoofedTask.scope spoofedTask.world := by
    intro hescapes
    have hundecoded := (undecoded_cases composeSettings annDecoders hmine hescapes).1
    exact absurd (huser.symm.trans hundecoded) (by simp)
  have hidentity := (myItems_identity_iff composeSettings annDecoders id DataService.seed hrun htask hmine
    hfaults fun user hsome => Option.some.inj (huser.symm.trans hsome) ▸ hlegal).mpr hdecoding
  exact hidentity.2.1 ann huser

/-- What `_verify_decoder` raises on an email that is not UTF-8. -/
def strictDecoders : Decoders where
  search := noDecoders.search
  lookup := noDecoders.lookup
  verify := fun raw =>
    if raw.contains 0xff then
      .error (.unicodeDecodeError "'utf-8' codec can't decode byte 0xff in position 0: invalid start byte")
    else .ok ann

def undecodableReply : Bytes :=
  Bytes.utf8 "\x7b\"user_id\":\"u1\",\"email\":\"" ++ [0xff] ++ Bytes.utf8 "\"\x7d"

def undecodableLabels : List Label :=
  [.arrive spoofedScope, .deliver 0 (.verifyHead (.ok ⟨200, []⟩)),
    .deliver 0 (.verifyBody (.ok undecodableReply))]

def undecodableTask : Task where
  scope := spoofedScope
  world := { verifyHead := some (.ok ⟨200, []⟩), verifyBody := some (.ok undecodableReply) }

/-- A client whose `/verify` came back with such an email is not answered. -/
theorem myItems_identity_undecodable :
    ¬ ∀ (settings : Settings) (decoders : Decoders) (labels : List Label) (process : Process) (id : Nat)
        (task : Task), Process.run settings decoders labels = some process →
        process.tasks[id]? = some task → task.AsksMyItems → task.world.VerifyFaultsOnly →
        (∀ user, verifiedUser decoders task.scope task.world = some user → user.Legal) →
        verifiedUser decoders task.scope task.world = none →
          process.dataRequests id = [] ∧
            (¬ AwaitsVerify (task.run settings decoders) → Rejected (task.run settings decoders)) := by
  intro h
  have hnone : verifiedUser strictDecoders undecodableTask.scope undecodableTask.world = none := by
    decide +kernel
  have hfaults : undecodableTask.world.VerifyFaultsOnly := by
    intro fault h
    obtain h | h := h <;> exact absurd h (by simp [undecodableTask])
  have hstatus : (undecodableTask.run composeSettings strictDecoders).status = .raised (.decode
      (.unicodeDecodeError "'utf-8' codec can't decode byte 0xff in position 0: invalid start byte")) := by
    decide +kernel
  obtain ⟨-, hrejected⟩ := h composeSettings strictDecoders undecodableLabels
    ((Process.run composeSettings strictDecoders undecodableLabels).getD {}) 0 undecodableTask rfl rfl
    ⟨rfl, rfl, by decide⟩ hfaults (fun user hsome => absurd (hnone.symm.trans hsome) (by simp)) hnone
  obtain ⟨hreturned, -⟩ := hrejected (by
    rw [AwaitsVerify, hstatus]
    rintro (h | h) <;> cases h)
  rw [hstatus] at hreturned
  cases hreturned

end ApigateBenchmark.GatewayPython
