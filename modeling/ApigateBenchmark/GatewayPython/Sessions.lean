import ApigateBenchmark.GatewayPython.Lifespan

/-!
# What goes through one session

Startups come and go, but a request keeps the session and the auth client it found, and these belong
together. So the calls made on a session, its cookies and the requests that use it are, by themselves, a run
of the process: what holds of every run of a process holds of each session, across restarts.
-/

namespace ApigateBenchmark.GatewayPython

open Coroutine Transition

variable {settings : Settings} {decoders : Decoders}

/-! ### The traffic of one session -/

def HttpRequest.task (request : HttpRequest) : Task := ⟨request.scope, request.world⟩

/-- The request found this session in the state. -/
def onSession (k : Nat) (request : HttpRequest) : Bool := request.state.session == some k

/-- What a session and the requests it was given to look like by themselves. -/
def App.process (app : App) (k : Nat) : Process where
  jar := app.jar (some k)
  tasks := (app.requests.filter (onSession k)).map HttpRequest.task
  wire := (app.wire.filter fun call => call.1 == some k).map fun call =>
    { call.2 with task := rank (onSession k) app.requests call.2.task }

theorem App.process_dispatch_self {app : App} {k id n : Nat} {state : AppState}
    (hsession : state.session = some k) (hstate : state.BuiltOn n) (calls : List (Service × UpstreamRequest)) :
    (app.dispatch id state calls).process k =
      (app.process k).dispatch (rank (onSession k) app.requests id) calls := by
  have hfor : ∀ service, state.sessionFor service = some k := fun service =>
    (hstate.sessionFor service).trans hsession
  have hkept : (calls.map fun call => (state.sessionFor call.1,
      stamp id (app.jar (state.sessionFor call.1)) call)).filter (fun call => call.1 == some k) =
      calls.map fun call => (some k, stamp id (app.jar (some k)) call) := by
    simp only [hfor]
    apply List.filter_eq_self.mpr
    intro call hcall
    obtain ⟨made, -, rfl⟩ := List.mem_map.mp hcall
    exact beq_self_eq_true _
  show Process.mk _ _ _ = Process.mk _ _ _
  rw [App.dispatch, List.filter_append, List.map_append, hkept, List.map_map]
  rfl

theorem App.process_dispatch_other {app : App} {k id n : Nat} {state : AppState}
    (hsession : state.session ≠ some k) (hstate : state.BuiltOn n)
    (calls : List (Service × UpstreamRequest)) : (app.dispatch id state calls).process k = app.process k := by
  have hfor : ∀ service, state.sessionFor service ≠ some k := by
    intro service
    rw [hstate.sessionFor]
    exact hsession
  have hdropped : (calls.map fun call => (state.sessionFor call.1,
      stamp id (app.jar (state.sessionFor call.1)) call)).filter (fun call => call.1 == some k) = [] := by
    apply List.filter_eq_nil_iff.mpr
    intro call hcall hsame
    obtain ⟨made, -, rfl⟩ := List.mem_map.mp hcall
    exact hfor made.1 (beq_iff_eq.mp hsame)
  show Process.mk _ _ _ = Process.mk _ _ _
  rw [App.dispatch, List.filter_append, List.map_append, hdropped, List.map_nil, List.append_nil]
  rfl

/-- The calls of the session keep their tasks while the places of these do not change. -/
theorem App.wire_congr {app : App} {requests : List HttpRequest} {k : Nat}
    (hrank : ∀ id < app.requests.length, rank (onSession k) requests id = rank (onSession k) app.requests id)
    (hcoherent : app.Coherent) :
    ((app.wire.filter fun call => call.1 == some k).map fun call =>
        { call.2 with task := rank (onSession k) requests call.2.task }) = (app.process k).wire := by
  apply List.map_congr_left
  intro call hcall
  rw [hrank _ (hcoherent.wire call (List.mem_filter.mp hcall).1).1]

/-- The request runs as a task of the process does. -/
theorem HttpRequest.run_eq {request : HttpRequest} {k n : Nat} (hsession : request.state.session = some k)
    (hstate : request.state.BuiltOn n) :
    request.run settings decoders = request.task.run settings decoders := by
  have hready : request.state.ready = true := by
    rw [AppState.ready, hstate.auth, hsession]
    rfl
  rw [HttpRequest.run, hready]
  rfl

theorem HttpRequest.newCalls_eq {request : HttpRequest} {k n : Nat}
    (hsession : request.state.session = some k) (hstate : request.state.BuiltOn n) (answer : Answer) :
    request.newCalls settings decoders answer = request.task.newCalls settings decoders answer := by
  have hafter : (request.resume answer).run settings decoders =
      (request.task.resume answer).run settings decoders :=
    @HttpRequest.run_eq _ _ (request.resume answer) k n hsession hstate
  rw [HttpRequest.newCalls, HttpRequest.calls, HttpRequest.calls, hafter, HttpRequest.run_eq hsession hstate]
  rfl

theorem App.jar_store_self {app : App} {k : Nat} {session : ClientSession}
    (hget : app.sessions[k]? = some session) (cookies : List Cookie) :
    (((app.store (some k) cookies)[k]?).map ClientSession.jar).getD [] = app.jar (some k) ++ cookies := by
  show (((app.sessions.modify k _)[k]?).map ClientSession.jar).getD [] = _
  rw [List.getElem?_modify_eq, App.jar, Option.bind_some, hget]
  rfl

theorem App.jar_store_other {app : App} {k : Nat} {session : Option Nat} (hne : session ≠ some k)
    (cookies : List Cookie) :
    (((app.store session cookies)[k]?).map ClientSession.jar).getD [] = app.jar (some k) := by
  cases session with
  | none => rfl
  | some id =>
      have hother : id ≠ k := fun h => hne (congrArg some h)
      show (((app.sessions.modify id _)[k]?).map ClientSession.jar).getD [] = _
      rw [List.getElem?_modify_ne _ _ hother]
      rfl

theorem App.process_arrive_self {app : App} (hcoherent : app.Coherent) {k : Nat}
    (hsession : app.state.session = some k) (scope : Scope) :
    App.process { app with requests := app.requests ++ [app.incoming scope] } k =
      { app.process k with tasks := (app.process k).tasks ++ [{ scope := scope }] } := by
  have hrank : ∀ id < app.requests.length, rank (onSession k) (app.requests ++ [app.incoming scope]) id =
      rank (onSession k) app.requests id := fun id hid => rank_append (Nat.le_of_lt hid) _
  have hon : onSession k (app.incoming scope) = true := beq_iff_eq.mpr hsession
  show Process.mk _ _ _ = Process.mk _ _ _
  rw [App.wire_congr hrank hcoherent, List.filter_append, List.filter_cons_of_pos hon, List.map_append]
  rfl

theorem App.process_arrive_other {app : App} (hcoherent : app.Coherent) {k : Nat}
    (hsession : app.state.session ≠ some k) (scope : Scope) :
    App.process { app with requests := app.requests ++ [app.incoming scope] } k = app.process k := by
  have hrank : ∀ id < app.requests.length, rank (onSession k) (app.requests ++ [app.incoming scope]) id =
      rank (onSession k) app.requests id := fun id hid => rank_append (Nat.le_of_lt hid) _
  have hoff : ¬ onSession k (app.incoming scope) = true := fun h => hsession (beq_iff_eq.mp h)
  show Process.mk _ _ _ = Process.mk _ _ _
  rw [App.wire_congr hrank hcoherent, List.filter_append, List.filter_cons_of_neg hoff, List.filter_nil,
    List.append_nil]
  rfl

theorem App.process_resume {app : App} (hcoherent : app.Coherent) {k id : Nat} {request : HttpRequest}
    (hget : app.requests[id]? = some request) (answer : Answer) (sessions : List ClientSession) :
    App.process { app with requests := app.requests.set id (request.resume answer), sessions } k =
      { app.process k with
        tasks := ((app.requests.set id (request.resume answer)).filter (onSession k)).map HttpRequest.task
        jar := ((sessions[k]?).map ClientSession.jar).getD [] } := by
  have hrank : ∀ other < app.requests.length,
      rank (onSession k) (app.requests.set id (request.resume answer)) other =
        rank (onSession k) app.requests other := fun other _ =>
    rank_set (p := onSession k) hget (b := request.resume answer) rfl other
  show Process.mk _ _ _ = Process.mk _ _ _
  rw [App.wire_congr hrank hcoherent]
  rfl

/-- What a step does to the traffic of a session is nothing, or a step of the process. -/
theorem App.Steps.process {app app' : App} {label : AppLabel}
    (h : App.Steps settings decoders app label app') (hcoherent : app.Coherent) {k : Nat}
    (hk : k < app.sessions.length) :
    app'.process k = app.process k ∨
      ∃ l, Process.step settings decoders (app.process k) l = some (app'.process k) := by
  cases h with
  | starts hreceiving =>
      left
      show Process.mk _ _ _ = Process.mk _ _ _
      rw [App.jar, Option.bind_some, List.getElem?_append_left hk]
      rfl
  | ignores hreceiving => exact .inl rfl
  | @closes id session hreceiving hsession hget hopen =>
      left
      have hjar : ∀ session : ClientSession, (if id = k then { session with closed := true } else session).jar =
          session.jar := by
        intro session
        split <;> rfl
      show Process.mk _ _ _ = Process.mk _ _ _
      rw [App.jar, Option.bind_some, List.getElem?_modify, Option.map_eq_map, Option.map_map]
      simp only [Function.comp_def, hjar]
      rfl
  | leaves hreceiving hclosed => exact .inl rfl
  | finishes hclosing => exact .inl rfl
  | arrives scope =>
      by_cases hsession : app.state.session = some k
      · right
        refine ⟨.arrive scope, ?_⟩
        have hcalls : (app.incoming scope).calls settings decoders =
            Task.calls settings decoders { scope := scope } := by
          rw [HttpRequest.calls, HttpRequest.run_eq hsession hcoherent.state]
          rfl
        have hplace : rank (onSession k) (app.requests ++ [app.incoming scope]) app.requests.length =
            (app.process k).tasks.length := by
          rw [rank_append (Nat.le_refl _), rank_length]
          exact (List.length_map _).symm
        rw [App.process_dispatch_self hsession hcoherent.state, App.process_arrive_self hcoherent hsession,
          hcalls, hplace]
        rfl
      · left
        rw [App.process_dispatch_other hsession hcoherent.state, App.process_arrive_other hcoherent hsession]
  | @delivers id answer request hget hwaits =>
      have hstate := hcoherent.request request (List.mem_of_getElem? hget)
      by_cases hsession : request.state.session = some k
      · right
        have hon : onSession k request = true := beq_iff_eq.mpr hsession
        have htask : (app.process k).tasks[rank (onSession k) app.requests id]? = some request.task := by
          show ((app.requests.filter (onSession k)).map HttpRequest.task)[_]? = _
          rw [List.getElem?_map, getElem?_filter_rank hget hon]
          rfl
        have hplace : rank (onSession k) (app.requests.set id (request.resume answer)) id =
            rank (onSession k) app.requests id := rank_set hget (b := request.resume answer) rfl id
        obtain ⟨session, hsession'⟩ : ∃ session, app.sessions[k]? = some session :=
          ⟨_, List.getElem?_eq_getElem hk⟩
        refine ⟨.deliver (rank (onSession k) app.requests id) answer, ?_⟩
        rw [HttpRequest.run_eq hsession hstate] at hwaits
        rw [App.process_dispatch_self hsession hstate, App.process_resume hcoherent hget, hplace,
          filter_set_rank hget hon (show onSession k (request.resume answer) = true from hon),
          hstate.sessionFor, hsession, App.jar_store_self hsession', List.map_set,
          HttpRequest.newCalls_eq hsession hstate]
        simp only [Process.step, htask, if_pos hwaits]
        rfl
      · left
        have hoff : onSession k request = false := beq_eq_false_iff_ne.mpr hsession
        rw [App.process_dispatch_other hsession hstate, App.process_resume hcoherent hget,
          filter_set_of_neg hget hoff (show onSession k (request.resume answer) = false from hoff),
          App.jar_store_other]
        · rfl
        · rw [hstate.sessionFor]
          exact hsession

/-- A session begins as a process does, with an empty jar and nothing on the way. -/
theorem App.Coherent.process_new {app : App} (hcoherent : app.Coherent) {next : App}
    (hsessions : next.sessions = app.sessions ++ [({} : ClientSession)]) (hrequests : next.requests = app.requests)
    (hwire : next.wire = app.wire) : next.process app.sessions.length = {} := by
  have hnone : app.requests.filter (onSession app.sessions.length) = [] := by
    apply List.filter_eq_nil_iff.mpr
    intro request hmem hon
    have hless := (hcoherent.request request hmem).session _ (beq_iff_eq.mp hon)
    omega
  have hcalls : (app.wire.filter fun call => call.1 == some app.sessions.length) = [] := by
    apply List.filter_eq_nil_iff.mpr
    intro call hmem hon
    have hless := (hcoherent.wire call hmem).2 _ (beq_iff_eq.mp hon)
    omega
  rw [App.process, hrequests, hwire, hnone, hcalls, App.jar, Option.bind_some, hsessions,
    List.getElem?_concat_length]
  rfl

/-- A step builds no session, or it builds one and does nothing else to the traffic. -/
theorem App.Steps.sessions {app next : App} {label : AppLabel}
    (h : App.Steps settings decoders app label next) :
    next.sessions.length = app.sessions.length ∨
      next.sessions = app.sessions ++ [({} : ClientSession)] ∧ next.requests = app.requests ∧
        next.wire = app.wire := by
  cases h with
  | starts hreceiving => exact .inr ⟨rfl, rfl, rfl⟩
  | ignores hreceiving => exact .inl rfl
  | closes hreceiving hsession hget hopen => exact .inl (List.length_modify _ _ _)
  | leaves hreceiving hclosed => exact .inl rfl
  | finishes hclosing => exact .inl rfl
  | arrives scope => exact .inl rfl
  | delivers hget hwaits => exact .inl (length_store _ _ _)

/-- Whatever the lifespan does, what goes through one session is a run of one process: its cookies are
those of its own responses, and its tasks the requests that arrived while it was in the state. -/
theorem session_refines_process {labels : List AppLabel} {app : App}
    (hrun : run (App.step settings decoders) {} labels = some app) {k : Nat} (hk : k < app.sessions.length) :
    ∃ processLabels, Process.run settings decoders processLabels = some (app.process k) := by
  have hinvariant : app.Coherent ∧ ∀ k < app.sessions.length,
      ∃ processLabels, Process.run settings decoders processLabels = some (app.process k) := by
    have hstart : App.Coherent {} := App.run_coherent (run_nil (App.step settings decoders) {})
    refine run_invariant (App.step settings decoders) (I := fun app => app.Coherent ∧
      ∀ k < app.sessions.length,
        ∃ processLabels, Process.run settings decoders processLabels = some (app.process k))
      (fun app label next hinvariant hstep => ?_) ⟨hstart, nofun⟩ hrun
    obtain ⟨hcoherent, hruns⟩ := hinvariant
    have hsteps := App.step_spec hstep
    refine ⟨hsteps.coherent hcoherent, fun k hk => ?_⟩
    by_cases hold : k < app.sessions.length
    · obtain hsame | ⟨l, hmoves⟩ := hsteps.process hcoherent hold
      · rw [hsame]
        exact hruns k hold
      · exact run_snoc _ (hruns k hold) hmoves
    · obtain hlength | ⟨hsessions, hrequests, hwire⟩ := hsteps.sessions
      · omega
      · rw [hsessions, List.length_append, List.length_singleton] at hk
        obtain rfl : k = app.sessions.length := by omega
        exact ⟨[], congrArg some (hcoherent.process_new hsessions hrequests hwire).symm⟩
  exact hinvariant.2 k hk

/-! ### A restart -/

def restartCookie : ResponseHead := ⟨200, [(Bytes.utf8 "Set-Cookie", Bytes.utf8 "a=1")]⟩

/-- Two startups and a shutdown, with a request in each phase; the first one outlives its session. -/
def restartLabels : List AppLabel :=
  let items : Scope := ⟨"GET", "/items", []⟩
  [.arrive items, .lifespan .startup, .arrive items, .lifespan .startup,
    .deliver 1 (.dataHead (.ok restartCookie)), .arrive items, .lifespan .shutdown,
    .deliver 1 (.dataEnd .complete), .closed, .arrive items]

def restartRun : Option App := run (App.step composeSettings noDecoders) {} restartLabels

def restartEnd : App := restartRun.getD {}

theorem restartRun_isSome : restartRun.isSome = true := by decide +kernel

theorem restartRun_eq : restartRun = some restartEnd := by
  obtain ⟨app, happ⟩ := Option.isSome_iff_exists.mp restartRun_isSome
  rw [restartEnd, happ]
  rfl

/-- The session of the first startup, after a second one has taken its place. -/
theorem session_refines_process_restart : ∃ processLabels,
    Process.run composeSettings noDecoders processLabels = some (restartEnd.process 0) :=
  session_refines_process restartRun_eq (show 0 < restartEnd.sessions.length by decide +kernel)

end ApigateBenchmark.GatewayPython
