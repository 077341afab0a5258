import ApigateBenchmark.GatewayPython.Process

/-!
# The application from startup to shutdown

`_AppState`, `_handle_lifespan` and the wiring around `asgi_app`. The server sends lifespan messages and
opens HTTP scopes in any order. A startup builds a session and an auth client on it, a shutdown closes the
session of the state, and while that waits requests still find it there. A request keeps what it found in
the state when it arrived, so calls of one request may go on while the state has moved on.

An HTTP scope is one request; any other scope is returned from at once and left out. There is one
lifespan scope. What aiohttp raises for a call on a closed session is an answer like any other.
-/

namespace ApigateBenchmark.GatewayPython

open Coroutine Transition

inductive LifespanMessage where
  | startup
  | shutdown
  | other (type : String)
  deriving DecidableEq

inductive LifespanEvent where
  | startupComplete
  | shutdownComplete
  deriving DecidableEq

inductive LifespanStatus where
  | receiving
  /-- `await session.close()` -/
  | closing
  | returned
  deriving DecidableEq

/-- `_AppState`: the session, and the session the auth client is built on. -/
structure AppState where
  session : Option Nat := none
  auth : Option Nat := none
  deriving DecidableEq

structure ClientSession where
  jar : List Cookie := []
  closed : Bool := false
  deriving DecidableEq

/-- A run of `asgi_app`, with what it read from the state. -/
structure HttpRequest where
  state : AppState
  scope : Scope
  world : World := {}

structure App where
  state : AppState := {}
  /-- Every session `_build_session` has made. -/
  sessions : List ClientSession := []
  lifespan : LifespanStatus := .receiving
  lifespanSent : List LifespanEvent := []
  requests : List HttpRequest := []
  /-- Every call that was made, with the session it was made on. -/
  wire : List (Option Nat × WireCall) := []

inductive AppLabel where
  | lifespan (message : LifespanMessage)
  /-- `session.close()` is through. -/
  | closed
  | arrive (scope : Scope)
  | deliver (request : Nat) (answer : Answer)

variable (settings : Settings) (decoders : Decoders)

def AppState.ready (state : AppState) : Bool := state.session.isSome && state.auth.isSome

/-- `auth.verify` posts on the session of the auth client, the handlers call on the one they were given. -/
def AppState.sessionFor (state : AppState) : Service → Option Nat
  | .auth => state.auth
  | .data => state.session

def Answer.service : Answer → Service
  | .verifyHead _ | .verifyBody _ => .auth
  | _ => .data

def HttpRequest.run (request : HttpRequest) : Py Unit :=
  asgiApp settings decoders request.state.ready request.scope request.world

def HttpRequest.calls (request : HttpRequest) : List (Service × UpstreamRequest) :=
  GatewayPython.calls (request.run settings decoders).log

def HttpRequest.resume (request : HttpRequest) (answer : Answer) : HttpRequest :=
  { request with world := request.world.feed answer }

def HttpRequest.newCalls (request : HttpRequest) (answer : Answer) : List (Service × UpstreamRequest) :=
  ((request.resume answer).calls settings decoders).drop (request.calls settings decoders).length

def App.jar (app : App) (session : Option Nat) : List Cookie :=
  ((session.bind fun id => app.sessions[id]?).map ClientSession.jar).getD []

/-- The session stores the cookies of an answer to a call made on it. -/
def App.store (app : App) (session : Option Nat) (cookies : List Cookie) : List ClientSession :=
  match session with
  | none => app.sessions
  | some id => app.sessions.modify id fun session => { session with jar := session.jar ++ cookies }

def App.dispatch (app : App) (request : Nat) (state : AppState)
    (calls : List (Service × UpstreamRequest)) : App :=
  { app with
    wire := app.wire ++ calls.map fun call =>
      (state.sessionFor call.1, stamp request (app.jar (state.sessionFor call.1)) call) }

/-- A run of `asgi_app` begins by reading the state. -/
def App.incoming (app : App) (scope : Scope) : HttpRequest := { state := app.state, scope := scope }

/-- What is left of `_handle_lifespan` once the session is closed. -/
def App.shutDown (app : App) : App :=
  { app with
    state := {}
    lifespan := .returned
    lifespanSent := app.lifespanSent ++ [.shutdownComplete] }

/-- One pass of the loop of `_handle_lifespan`, up to its next `await`. -/
def App.handleLifespan (app : App) : LifespanMessage → App
  | .startup =>
      { app with
        sessions := app.sessions ++ [{}]
        state := ⟨some app.sessions.length, some app.sessions.length⟩
        lifespanSent := app.lifespanSent ++ [.startupComplete] }
  | .shutdown =>
      match app.state.session with
      | none => app.shutDown
      | some id =>
          if (app.sessions[id]?).any fun session => !session.closed then
            { app with
              sessions := app.sessions.modify id fun session => { session with closed := true }
              lifespan := .closing }
          else app.shutDown
  | .other _ => app

def App.step (app : App) : AppLabel → Option App
  | .lifespan message => if app.lifespan = .receiving then some (app.handleLifespan message) else none
  | .closed => if app.lifespan = .closing then some app.shutDown else none
  | .arrive scope =>
      some (({ app with requests := app.requests ++ [app.incoming scope] }).dispatch app.requests.length
        app.state ((app.incoming scope).calls settings decoders))
  | .deliver id answer =>
      match app.requests[id]? with
      | none => none
      | some request =>
          if (request.run settings decoders).status = .suspended answer.question then
            let session := request.state.sessionFor answer.service
            some (({ app with
              requests := app.requests.set id (request.resume answer)
              sessions := app.store session (answer.cookies settings) }).dispatch id request.state
                (request.newCalls settings decoders answer))
          else none

variable {settings decoders}

/-! ### All that a step can do -/

inductive App.Steps (settings : Settings) (decoders : Decoders) (app : App) : AppLabel → App → Prop where
  | starts (hreceiving : app.lifespan = .receiving) :
      Steps settings decoders app (.lifespan .startup)
        { app with
          sessions := app.sessions ++ [{}]
          state := ⟨some app.sessions.length, some app.sessions.length⟩
          lifespanSent := app.lifespanSent ++ [.startupComplete] }
  | ignores {type : String} (hreceiving : app.lifespan = .receiving) :
      Steps settings decoders app (.lifespan (.other type)) app
  | closes {id : Nat} {session : ClientSession} (hreceiving : app.lifespan = .receiving)
      (hsession : app.state.session = some id) (hget : app.sessions[id]? = some session)
      (hopen : session.closed = false) :
      Steps settings decoders app (.lifespan .shutdown)
        { app with
          sessions := app.sessions.modify id fun session => { session with closed := true }
          lifespan := .closing }
  | leaves (hreceiving : app.lifespan = .receiving)
      (hclosed : ∀ id session, app.state.session = some id → app.sessions[id]? = some session →
        session.closed = true) :
      Steps settings decoders app (.lifespan .shutdown) app.shutDown
  | finishes (hclosing : app.lifespan = .closing) : Steps settings decoders app .closed app.shutDown
  | arrives (scope : Scope) :
      Steps settings decoders app (.arrive scope)
        (({ app with requests := app.requests ++ [app.incoming scope] }).dispatch app.requests.length
          app.state ((app.incoming scope).calls settings decoders))
  | delivers {id : Nat} {answer : Answer} {request : HttpRequest} (hget : app.requests[id]? = some request)
      (hwaits : (request.run settings decoders).status = .suspended answer.question) :
      Steps settings decoders app (.deliver id answer)
        (({ app with
          requests := app.requests.set id (request.resume answer)
          sessions := app.store (request.state.sessionFor answer.service) (answer.cookies settings) }).dispatch
            id request.state (request.newCalls settings decoders answer))

theorem App.step_spec {app app' : App} {label : AppLabel} (h : app.step settings decoders label = some app') :
    App.Steps settings decoders app label app' := by
  cases label with
  | lifespan message =>
      rw [App.step] at h
      split at h
      · rename_i hreceiving
        obtain rfl := Option.some.inj h
        cases message with
        | startup => exact .starts hreceiving
        | other type => exact .ignores hreceiving
        | shutdown =>
            rw [App.handleLifespan]
            cases hsession : app.state.session with
            | none => exact .leaves hreceiving fun id session hid _ => by rw [hsession] at hid; cases hid
            | some id =>
                simp only
                cases hget : app.sessions[id]? with
                | none =>
                    refine .leaves hreceiving fun other session hother hget' => ?_
                    obtain rfl := Option.some.inj (hsession.symm.trans hother)
                    rw [hget] at hget'
                    cases hget'
                | some session =>
                    cases hclosed : session.closed with
                    | false =>
                        rw [if_pos (by rw [Option.any_some, hclosed]; rfl)]
                        exact .closes hreceiving hsession hget hclosed
                    | true =>
                        rw [if_neg (by rw [Option.any_some, hclosed]; decide)]
                        refine .leaves hreceiving fun other session' hother hget' => ?_
                        obtain rfl := Option.some.inj (hsession.symm.trans hother)
                        obtain rfl := Option.some.inj (hget.symm.trans hget')
                        exact hclosed
      · cases h
  | closed =>
      rw [App.step] at h
      split at h
      · obtain rfl := Option.some.inj h
        exact .finishes ‹_›
      · cases h
  | arrive scope =>
      obtain rfl := Option.some.inj h
      exact .arrives scope
  | deliver id answer =>
      simp only [App.step] at h
      split at h
      · cases h
      · split at h
        · obtain rfl := Option.some.inj h
          exact .delivers ‹_› ‹_›
        · cases h

/-! ### One session for a request -/

/-- The auth client was built on the session, and the session is one of those. -/
structure AppState.BuiltOn (state : AppState) (sessions : Nat) : Prop where
  auth : state.auth = state.session
  session : ∀ id, state.session = some id → id < sessions

theorem AppState.BuiltOn.mono {state : AppState} {sessions more : Nat} (h : state.BuiltOn sessions)
    (hle : sessions ≤ more) : state.BuiltOn more :=
  ⟨h.auth, fun id hid => Nat.lt_of_lt_of_le (h.session id hid) hle⟩

theorem AppState.BuiltOn.sessionFor {state : AppState} {sessions : Nat} (h : state.BuiltOn sessions)
    (service : Service) : state.sessionFor service = state.session := by
  cases service with
  | auth => exact h.auth
  | data => rfl

/-- So it is with the state and with what each request has kept of it. -/
structure App.Coherent (app : App) : Prop where
  state : app.state.BuiltOn app.sessions.length
  request : ∀ request ∈ app.requests, request.state.BuiltOn app.sessions.length
  wire : ∀ call ∈ app.wire, call.2.task < app.requests.length ∧
    ∀ id, call.1 = some id → id < app.sessions.length

theorem length_store (app : App) (session : Option Nat) (cookies : List Cookie) :
    (app.store session cookies).length = app.sessions.length := by
  cases session with
  | none => rfl
  | some id => exact List.length_modify _ _ _

theorem App.Coherent.dispatch {app : App} (h : app.Coherent) {id : Nat} (hid : id < app.requests.length)
    {state : AppState} (hstate : state.BuiltOn app.sessions.length)
    (calls : List (Service × UpstreamRequest)) : (app.dispatch id state calls).Coherent := by
  refine ⟨h.state, h.request, fun call hcall => ?_⟩
  obtain hold | hnew := List.mem_append.mp hcall
  · exact h.wire call hold
  · obtain ⟨made, -, rfl⟩ := List.mem_map.mp hnew
    refine ⟨hid, fun session hsession => hstate.session session ?_⟩
    rw [← hstate.sessionFor made.1]
    exact hsession

theorem App.Steps.coherent {app app' : App} {label : AppLabel}
    (h : App.Steps settings decoders app label app') (hcoherent : app.Coherent) : app'.Coherent := by
  obtain ⟨hstate, hrequest, hwire⟩ := hcoherent
  cases h with
  | starts hreceiving =>
      have hlength : (app.sessions ++ [({} : ClientSession)]).length = app.sessions.length + 1 :=
        List.length_append
      have hgrows : app.sessions.length ≤ (app.sessions ++ [({} : ClientSession)]).length := by omega
      refine ⟨⟨rfl, fun id hid => ?_⟩, fun request hmem => (hrequest request hmem).mono hgrows,
        fun call hcall => ⟨(hwire call hcall).1, fun id hid => ?_⟩⟩
      · obtain rfl := Option.some.inj hid
        show app.sessions.length < (app.sessions ++ [({} : ClientSession)]).length
        omega
      · exact Nat.lt_of_lt_of_le ((hwire call hcall).2 id hid) hgrows
  | ignores hreceiving => exact ⟨hstate, hrequest, hwire⟩
  | closes hreceiving hsession hget hopen =>
      refine ⟨?_, fun request hmem => ?_, fun call hcall => ?_⟩
      · rw [List.length_modify]
        exact hstate
      · rw [List.length_modify]
        exact hrequest request hmem
      · rw [List.length_modify]
        exact hwire call hcall
  | leaves hreceiving hclosed => exact ⟨⟨rfl, nofun⟩, hrequest, hwire⟩
  | finishes hclosing => exact ⟨⟨rfl, nofun⟩, hrequest, hwire⟩
  | arrives scope =>
      have hgrows : app.requests.length < (app.requests ++ [app.incoming scope]).length := by
        rw [List.length_append, List.length_singleton]
        omega
      have happ : App.Coherent { app with requests := app.requests ++ [app.incoming scope] } := by
        refine ⟨hstate, fun request hmem => ?_, fun call hcall => ?_⟩
        · obtain hold | hnew := List.mem_append.mp hmem
          · exact hrequest request hold
          · obtain rfl := List.mem_singleton.mp hnew
            exact hstate
        · exact ⟨Nat.lt_trans (hwire call hcall).1 hgrows, (hwire call hcall).2⟩
      exact happ.dispatch hgrows hstate _
  | @delivers id answer request hget hwaits =>
      have hid := (List.getElem?_eq_some_iff.mp hget).1
      have hmem := hrequest request (List.mem_of_getElem? hget)
      have happ : App.Coherent { app with
          requests := app.requests.set id (request.resume answer)
          sessions := app.store (request.state.sessionFor answer.service) (answer.cookies settings) } := by
        refine ⟨?_, fun changed hchanged => ?_, fun call hcall => ?_⟩
        · rw [length_store]
          exact hstate
        · rw [length_store]
          obtain hold | rfl := List.mem_or_eq_of_mem_set hchanged
          · exact hrequest changed hold
          · exact hmem
        · rw [List.length_set, length_store]
          exact hwire call hcall
      refine happ.dispatch ?_ ?_ _
      · rwa [List.length_set]
      · rwa [length_store]

theorem App.run_coherent {labels : List AppLabel} {app : App}
    (hrun : run (App.step settings decoders) {} labels = some app) : app.Coherent := by
  refine run_invariant _ (fun _ _ _ hcoherent hstep => (App.step_spec hstep).coherent hcoherent) ?_ hrun
  refine ⟨⟨rfl, fun id hid => ?_⟩, fun request hmem => ?_, fun call hmem => ?_⟩
  · cases hid
  · cases hmem
  · cases hmem

end ApigateBenchmark.GatewayPython
