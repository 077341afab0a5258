import ApigateBenchmark.GatewayPython.Sessions

/-!
# What the lifespan messages lead to

The labels of a run alone say where the lifespan stands, which sessions there are and which of them are
closed, what the server was told, and what a request found when it arrived.
-/

namespace ApigateBenchmark.GatewayPython

open Coroutine Transition

variable {settings : Settings} {decoders : Decoders}

/-! ### What the messages lead to -/

def AppLabel.isStartup : AppLabel → Bool
  | .lifespan .startup => true
  | _ => false

def AppLabel.isShutdown : AppLabel → Bool
  | .lifespan .shutdown => true
  | _ => false

def AppLabel.isClosed : AppLabel → Bool
  | .closed => true
  | _ => false

def startups (labels : List AppLabel) : Nat := labels.countP AppLabel.isStartup

/-- Where the messages leave the lifespan: with a session to close it waits for that. -/
def phase (labels : List AppLabel) : LifespanStatus :=
  if labels.any AppLabel.isShutdown then
    if labels.any AppLabel.isClosed || startups labels == 0 then .returned else .closing
  else .receiving

/-- The last of so many. -/
def latest : Nat → Option Nat
  | 0 => none
  | n + 1 => some n

theorem eq_of_latest {n k : Nat} (h : latest n = some k) : n = k + 1 := by
  cases n with
  | zero => cases h
  | succ n => rw [Option.some.inj h]

/-- The state that the labels lead to. -/
structure App.Traced (labels : List AppLabel) (app : App) : Prop where
  lifespan : app.lifespan = phase labels
  built : app.sessions.length = startups labels
  session : app.state.session = if phase labels = .returned then none else latest (startups labels)
  closed : ∀ id session, app.sessions[id]? = some session →
    (session.closed = true ↔ phase labels ≠ .receiving ∧ id + 1 = startups labels)
  unclosed : phase labels = .receiving → labels.any AppLabel.isClosed = false
  sent : app.lifespanSent = List.replicate (startups labels) .startupComplete ++
    if phase labels = .returned then [.shutdownComplete] else []

theorem startups_snoc (labels : List AppLabel) (label : AppLabel) :
    startups (labels ++ [label]) = startups labels + if label.isStartup then 1 else 0 := by
  rw [startups, List.countP_append, List.countP_singleton]
  rfl

/-- A label that is no message leaves the lifespan where it is. -/
theorem phase_snoc {label : AppLabel} (hstartup : label.isStartup = false) (hshutdown : label.isShutdown = false)
    (hclosed : label.isClosed = false) (labels : List AppLabel) :
    phase (labels ++ [label]) = phase labels ∧ startups (labels ++ [label]) = startups labels ∧
      (labels ++ [label]).any AppLabel.isClosed = labels.any AppLabel.isClosed := by
  have hcount : startups (labels ++ [label]) = startups labels := by
    rw [startups_snoc, hstartup]
    rfl
  have hany : ∀ p : AppLabel → Bool, p label = false → (labels ++ [label]).any p = labels.any p := by
    intro p hp
    rw [List.any_append, List.any_cons, List.any_nil, hp, Bool.or_false, Bool.or_false]
  refine ⟨?_, hcount, hany _ hclosed⟩
  rw [phase, phase, hany _ hshutdown, hany _ hclosed, hcount]

theorem phase_receiving {labels : List AppLabel} (h : phase labels = .receiving) :
    labels.any AppLabel.isShutdown = false := by
  rw [phase] at h
  split at h
  · split at h <;> cases h
  · rename_i hnone
    exact Bool.eq_false_iff.mpr hnone

theorem App.Traced.of_same {app next : App} {labels : List AppLabel} {label : AppLabel}
    (h : app.Traced labels) (hstartup : label.isStartup = false) (hshutdown : label.isShutdown = false)
    (hclosed : label.isClosed = false) (hlifespan : next.lifespan = app.lifespan)
    (hstate : next.state = app.state) (hsent : next.lifespanSent = app.lifespanSent)
    (hsessions : next.sessions.map ClientSession.closed = app.sessions.map ClientSession.closed) :
    next.Traced (labels ++ [label]) := by
  obtain ⟨hphase, hcount, hany⟩ := phase_snoc hstartup hshutdown hclosed labels
  have hlength : next.sessions.length = app.sessions.length := by
    rw [← List.length_map ClientSession.closed, hsessions, List.length_map]
  constructor
  · rw [hlifespan, hphase, h.lifespan]
  · rw [hlength, hcount, h.built]
  · rw [hstate, hphase, hcount, h.session]
  · intro id session hget
    rw [hphase, hcount]
    have hmapped : (app.sessions.map ClientSession.closed)[id]? = some session.closed := by
      rw [← hsessions, List.getElem?_map, hget]
      rfl
    rw [List.getElem?_map] at hmapped
    obtain ⟨old, hold, hsame⟩ := Option.map_eq_some_iff.mp hmapped
    rw [← hsame]
    exact h.closed id old hold
  · rw [hphase, hany]
    exact h.unclosed
  · rw [hsent, hphase, hcount, h.sent]

theorem map_closed_store (app : App) (session : Option Nat) (cookies : List Cookie) :
    (app.store session cookies).map ClientSession.closed = app.sessions.map ClientSession.closed := by
  cases session with
  | none => rfl
  | some id =>
      apply List.ext_getElem?
      intro k
      show ((app.sessions.modify id _).map ClientSession.closed)[k]? = _
      rw [List.getElem?_map, List.getElem?_map, List.getElem?_modify, Option.map_eq_map, Option.map_map]
      congr 1
      funext session
      show (if id = k then _ else session).closed = session.closed
      split <;> rfl

theorem App.Traced.shutDown {app : App} {labels next : List AppLabel} (h : app.Traced labels)
    (hphase : phase labels ≠ .returned) (hnext : phase next = .returned) (hcount : startups next = startups labels)
    (hclosed : phase labels = .receiving → startups labels = 0) : app.shutDown.Traced next := by
  constructor
  · exact hnext.symm
  · exact h.built.trans hcount.symm
  · rw [if_pos hnext]
    rfl
  · intro id session hget
    have hid : id < startups labels := h.built ▸ (List.getElem?_eq_some_iff.mp hget).1
    rw [h.closed id session hget, hnext, hcount]
    have hsame : phase labels ≠ .receiving ↔ LifespanStatus.returned ≠ .receiving := by
      refine ⟨fun _ => nofun, fun _ hreceiving => ?_⟩
      have hzero := hclosed hreceiving
      omega
    rw [hsame]
  · intro hreceiving
    rw [hnext] at hreceiving
    cases hreceiving
  · show app.lifespanSent ++ [.shutdownComplete] = _
    rw [h.sent, if_neg hphase, if_pos hnext, hcount, List.append_nil]

theorem App.Steps.traced {app next : App} {labels : List AppLabel} {label : AppLabel}
    (h : App.Steps settings decoders app label next) (htraced : app.Traced labels) :
    next.Traced (labels ++ [label]) := by
  have hlifespan := htraced.lifespan
  cases h with
  | starts hreceiving =>
      have hphase : phase labels = .receiving := hlifespan.symm.trans hreceiving
      have hnone := phase_receiving hphase
      have hcount : startups (labels ++ [.lifespan .startup]) = startups labels + 1 := startups_snoc labels _
      have hnext : phase (labels ++ [.lifespan .startup]) = .receiving := by
        rw [phase, List.any_append, hnone]
        rfl
      constructor
      · exact hreceiving.trans hnext.symm
      · show (app.sessions ++ [({} : ClientSession)]).length = _
        rw [List.length_append, List.length_singleton, htraced.built, hcount]
      · rw [hnext, hcount, ← htraced.built]
        rfl
      · intro id session hget
        rw [hnext]
        refine iff_of_false (fun hclosed => ?_) fun h => h.1 rfl
        by_cases hold : id < app.sessions.length
        · change (app.sessions ++ [({} : ClientSession)])[id]? = some session at hget
          rw [List.getElem?_append_left hold] at hget
          exact ((htraced.closed id session hget).mp hclosed).1 hphase
        · have hbound := (List.getElem?_eq_some_iff.mp hget).1
          simp only [List.length_append, List.length_singleton] at hbound
          obtain rfl : id = app.sessions.length := by omega
          obtain rfl := Option.some.inj (List.getElem?_concat_length.symm.trans hget)
          cases hclosed
      · intro _
        rw [List.any_append, htraced.unclosed hphase]
        rfl
      · show app.lifespanSent ++ [.startupComplete] = _
        rw [htraced.sent, hphase, hnext, hcount, List.replicate_succ', if_neg (by decide), List.append_nil,
          List.append_nil]
  | ignores hreceiving => exact htraced.of_same rfl rfl rfl rfl rfl rfl rfl
  | @closes id session hreceiving hsession hget hopen =>
      have hphase : phase labels = .receiving := hlifespan.symm.trans hreceiving
      have hcount : startups (labels ++ [.lifespan .shutdown]) = startups labels := startups_snoc labels _
      have hlast : startups labels = id + 1 := by
        rw [htraced.session, hphase, if_neg (by decide)] at hsession
        exact eq_of_latest hsession
      have hnext : phase (labels ++ [.lifespan .shutdown]) = .closing := by
        rw [phase, List.any_append, List.any_append, htraced.unclosed hphase, hcount, hlast]
        simp [AppLabel.isShutdown, AppLabel.isClosed]
      constructor
      · exact hnext.symm
      · rw [List.length_modify, htraced.built, hcount]
      · rw [hnext, hcount, htraced.session, hphase]
        rfl
      · intro k session' hget'
        rw [List.getElem?_modify] at hget'
        obtain ⟨old, hold, rfl⟩ := Option.map_eq_some_iff.mp hget'
        rw [hnext, hcount, hlast]
        by_cases hsame : id = k
        · rw [if_pos hsame, hsame]
          exact iff_of_true rfl ⟨nofun, rfl⟩
        · rw [if_neg hsame, htraced.closed k old hold, hphase]
          exact iff_of_false (fun h => h.1 rfl) fun h => hsame (Nat.succ.inj h.2).symm
      · intro h
        rw [hnext] at h
        cases h
      · rw [htraced.sent, hphase, hnext, hcount]
        rfl
  | leaves hreceiving hclosed =>
      have hphase : phase labels = .receiving := hlifespan.symm.trans hreceiving
      have hcount : startups (labels ++ [.lifespan .shutdown]) = startups labels := startups_snoc labels _
      have hzero : startups labels = 0 := by
        cases hstartups : startups labels with
        | zero => rfl
        | succ n =>
            have hsession : app.state.session = some n := by
              rw [htraced.session, hphase, hstartups]
              rfl
            have hn : n < app.sessions.length := by
              rw [htraced.built]
              omega
            have hget := List.getElem?_eq_getElem hn
            have hclosed' := (htraced.closed n _ hget).mp (hclosed n _ hsession hget)
            exact absurd hphase hclosed'.1
      refine htraced.shutDown (by rw [hphase]; decide) ?_ hcount fun _ => hzero
      rw [phase, List.any_append, hcount, hzero]
      simp [AppLabel.isShutdown]
  | finishes hclosing =>
      have hphase : phase labels = .closing := hlifespan.symm.trans hclosing
      have hcount : startups (labels ++ [.closed]) = startups labels := startups_snoc labels _
      refine htraced.shutDown (by rw [hphase]; decide) ?_ hcount fun hreceiving => ?_
      · have hshut : labels.any AppLabel.isShutdown = true := by
          rw [phase] at hphase
          split at hphase
          · assumption
          · cases hphase
        rw [phase, List.any_append, List.any_append, hshut]
        simp [AppLabel.isClosed]
      · rw [hphase] at hreceiving
        cases hreceiving
  | arrives scope => exact htraced.of_same rfl rfl rfl rfl rfl rfl rfl
  | delivers hget hwaits => exact htraced.of_same rfl rfl rfl rfl rfl rfl (map_closed_store _ _ _)

theorem App.run_traced {labels : List AppLabel} {app : App}
    (hrun : run (App.step settings decoders) {} labels = some app) : app.Traced labels := by
  have hstart : App.Traced [] {} := by
    refine ⟨rfl, rfl, rfl, fun id session hget => ?_, fun _ => rfl, rfl⟩
    cases hget
  exact run_invariant_history _ (fun _ _ _ _ htraced hstep => (App.step_spec hstep).traced htraced) hstart hrun

/-- Every startup is answered and builds one session; a shutdown closes the last one built, and nothing
else does. So once the lifespan is over all sessions are closed exactly if there was at most one startup: a
further one would have put its session in the place of one that nobody closes. -/
theorem sessions_closed_iff {labels : List AppLabel} {app : App}
    (hrun : run (App.step settings decoders) {} labels = some app) :
    app.sessions.length = startups labels ∧
      app.lifespanSent = List.replicate (startups labels) .startupComplete ++
        (if app.lifespan = .returned then [.shutdownComplete] else []) ∧
      (∀ id session, app.sessions[id]? = some session →
        (session.closed = true ↔ app.lifespan ≠ .receiving ∧ id + 1 = startups labels)) ∧
      (app.lifespan = .returned →
        ((∀ session ∈ app.sessions, session.closed = true) ↔ startups labels ≤ 1)) := by
  have htraced := App.run_traced hrun
  rw [htraced.lifespan]
  refine ⟨htraced.built, htraced.sent, htraced.closed, fun hreturned => ?_⟩
  have hnot : phase labels ≠ .receiving := by
    rw [hreturned]
    decide
  constructor
  · intro hall
    by_contra hmore
    have hfirst : 0 < app.sessions.length := by
      rw [htraced.built]
      omega
    have hclosed := (htraced.closed 0 _ (List.getElem?_eq_getElem hfirst)).mp
      (hall _ (List.getElem_mem hfirst))
    omega
  · intro hone session hmem
    obtain ⟨id, hget⟩ := List.mem_iff_getElem?.mp hmem
    have hid := (List.getElem?_eq_some_iff.mp hget).1
    rw [htraced.built] at hid
    exact (htraced.closed id session hget).mpr ⟨hnot, by omega⟩

theorem sessions_closed_iff_restart :
    restartEnd.sessions.length = startups restartLabels ∧
      restartEnd.lifespanSent = List.replicate (startups restartLabels) .startupComplete ++
        (if restartEnd.lifespan = .returned then [.shutdownComplete] else []) ∧
      (∀ id session, restartEnd.sessions[id]? = some session →
        (session.closed = true ↔ restartEnd.lifespan ≠ .receiving ∧ id + 1 = startups restartLabels)) ∧
      (restartEnd.lifespan = .returned →
        ((∀ session ∈ restartEnd.sessions, session.closed = true) ↔ startups restartLabels ≤ 1)) :=
  sessions_closed_iff restartRun_eq

/-! ### What a request found -/

def AppLabel.isArrival : AppLabel → Bool
  | .arrive _ => true
  | _ => false

theorem App.Steps.arrivals {app next : App} {label : AppLabel}
    (h : App.Steps settings decoders app label next) :
    next.requests.length = app.requests.length + if label.isArrival then 1 else 0 := by
  cases h with
  | arrives scope => exact List.length_append
  | delivers hget hwaits => exact List.length_set
  | _ => rfl

/-- A request keeps its scope and what it found in the state. -/
theorem App.Steps.keeps {app next : App} {label : AppLabel}
    (h : App.Steps settings decoders app label next) {id : Nat} {request : HttpRequest}
    (hget : app.requests[id]? = some request) :
    ∃ later, next.requests[id]? = some later ∧ later.scope = request.scope ∧ later.state = request.state := by
  have hid := (List.getElem?_eq_some_iff.mp hget).1
  cases h with
  | arrives scope => exact ⟨request, (List.getElem?_append_left hid).trans hget, rfl, rfl⟩
  | @delivers other answer told htold hwaits =>
      show ∃ later, (app.requests.set other (told.resume answer))[id]? = some later ∧ _
      by_cases hsame : other = id
      · subst hsame
        obtain rfl := Option.some.inj (htold.symm.trans hget)
        exact ⟨told.resume answer, List.getElem?_set_self hid, rfl, rfl⟩
      · exact ⟨request, (List.getElem?_set_ne hsame).trans hget, rfl, rfl⟩
  | _ => exact ⟨request, hget, rfl, rfl⟩

/-! ### The session of the calls -/

/-- The calls a request has made so far. -/
def App.callsOf (app : App) (id : Nat) : List (Option Nat × WireCall) :=
  app.wire.filter fun call => call.2.task == id

theorem App.callsOf_dispatch_self (app : App) (id : Nat) (state : AppState)
    (calls : List (Service × UpstreamRequest)) :
    (app.dispatch id state calls).callsOf id = app.callsOf id ++ calls.map fun call =>
      (state.sessionFor call.1, stamp id (app.jar (state.sessionFor call.1)) call) := by
  rw [App.callsOf, App.dispatch, List.filter_append]
  refine congrArg (_ ++ ·) (List.filter_eq_self.mpr fun call hcall => ?_)
  obtain ⟨made, -, rfl⟩ := List.mem_map.mp hcall
  exact beq_self_eq_true id

theorem App.callsOf_dispatch_of_ne (app : App) {id other : Nat} (hne : id ≠ other) (state : AppState)
    (calls : List (Service × UpstreamRequest)) :
    (app.dispatch id state calls).callsOf other = app.callsOf other := by
  rw [App.callsOf, App.dispatch, List.filter_append]
  refine (congrArg (_ ++ ·) (List.filter_eq_nil_iff.mpr fun call hcall => ?_)).trans (List.append_nil _)
  obtain ⟨made, -, rfl⟩ := List.mem_map.mp hcall
  exact fun hsame => hne (beq_iff_eq.mp hsame)

/-- Resuming a request takes no call back. -/
theorem HttpRequest.calls_resume {request : HttpRequest} {answer : Answer}
    (h : (request.run settings decoders).status = .suspended answer.question) :
    (request.resume answer).calls settings decoders =
      request.calls settings decoders ++ request.newCalls settings decoders answer := by
  cases hready : request.state.ready with
  | false =>
      rw [HttpRequest.run, hready] at h
      cases h
  | true =>
      have hrun : ∀ later : HttpRequest, later.state = request.state →
          later.run settings decoders = later.task.run settings decoders := by
        intro later hstate
        rw [HttpRequest.run, hstate, hready]
        rfl
      rw [hrun request rfl] at h
      have hresume := Task.calls_resume settings decoders h
      rw [HttpRequest.newCalls, HttpRequest.calls, HttpRequest.calls, hrun request rfl,
        hrun (request.resume answer) rfl]
      exact hresume

/-- What the wire holds of each request: its calls, every one made on the session it found. -/
def App.Wired (settings : Settings) (decoders : Decoders) (app : App) : Prop :=
  ∀ id request, app.requests[id]? = some request →
    (app.callsOf id).map (fun call => (call.1, call.2.service, call.2.request)) =
      (request.calls settings decoders).map fun call => (request.state.session, call)

theorem map_sessionFor {state : AppState} {sessions : Nat} (hstate : state.BuiltOn sessions) (id : Nat)
    (jar : Option Nat → List Cookie) (calls : List (Service × UpstreamRequest)) :
    (calls.map fun call => (state.sessionFor call.1, stamp id (jar (state.sessionFor call.1)) call)).map
        (fun call => (call.1, call.2.service, call.2.request)) =
      calls.map fun call => (state.session, call) := by
  rw [List.map_map]
  refine List.map_congr_left fun call _ => ?_
  show (state.sessionFor call.1, call.1, call.2) = (state.session, call)
  rw [hstate.sessionFor]

theorem App.Steps.wired {app next : App} {label : AppLabel} (h : App.Steps settings decoders app label next)
    (hcoherent : app.Coherent) (hwired : app.Wired settings decoders) : next.Wired settings decoders := by
  cases h with
  | arrives scope =>
      intro id request hget
      by_cases hid : id = app.requests.length
      · subst hid
        obtain rfl : app.incoming scope = request :=
          Option.some.inj (List.getElem?_concat_length.symm.trans hget)
        have hfresh : App.callsOf { app with requests := app.requests ++ [app.incoming scope] }
            app.requests.length = [] := by
          refine List.filter_eq_nil_iff.mpr fun call hcall hsame => ?_
          have hless := (hcoherent.wire call hcall).1
          rw [beq_iff_eq.mp hsame] at hless
          exact Nat.lt_irrefl _ hless
        rw [App.callsOf_dispatch_self, hfresh, List.nil_append, map_sessionFor hcoherent.state]
        rfl
      · rw [App.callsOf_dispatch_of_ne _ (Ne.symm hid)]
        exact hwired id request ((getElem?_snoc_of_ne hid).symm.trans hget)
  | @delivers told answer request htold hwaits =>
      intro id later hget
      have hstate := hcoherent.request request (List.mem_of_getElem? htold)
      by_cases hsame : told = id
      · subst hsame
        have hid := (List.getElem?_eq_some_iff.mp htold).1
        obtain rfl : request.resume answer = later :=
          Option.some.inj ((List.getElem?_set_self hid).symm.trans hget)
        rw [App.callsOf_dispatch_self, List.map_append, map_sessionFor hstate,
          HttpRequest.calls_resume hwaits, List.map_append]
        exact congrArg (· ++ _) (hwired told request htold)
      · rw [App.callsOf_dispatch_of_ne _ hsame]
        exact hwired id later ((List.getElem?_set_ne hsame).symm.trans hget)
  | _ => exact hwired

/-- In every state the application reaches, a request has called on the session it found and no other. -/
theorem App.run_wired {labels : List AppLabel} {app : App}
    (hrun : run (App.step settings decoders) {} labels = some app) : app.Wired settings decoders := by
  have hstart : App.Coherent {} := App.run_coherent (run_nil (App.step settings decoders) {})
  have hnone : App.Wired settings decoders {} := by
    intro id request hget
    cases hget
  have hinvariant := run_invariant (App.step settings decoders)
    (I := fun app => app.Coherent ∧ app.Wired settings decoders)
    (fun app label next hinvariant hstep =>
      ⟨(App.step_spec hstep).coherent hinvariant.1, (App.step_spec hstep).wired hinvariant.1 hinvariant.2⟩)
    ⟨hstart, hnone⟩ hrun
  exact hinvariant.2

/-- A request that arrives before the first startup or after the shutdown is answered 503 and calls
nobody, and any other makes all its calls on the session of the last startup, with the auth client on it;
that does not change while the request runs, whatever the lifespan goes through meanwhile. -/
theorem requests_follow_lifespan {before after : List AppLabel} {scope : Scope} {app : App}
    (hrun : run (App.step settings decoders) {} (before ++ .arrive scope :: after) = some app) :
    ∃ request, app.requests[before.countP AppLabel.isArrival]? = some request ∧ request.scope = scope ∧
      request.state.auth = request.state.session ∧
      request.state.session = (if phase before = .returned then none else latest (startups before)) ∧
      (app.callsOf (before.countP AppLabel.isArrival)).map
          (fun call => (call.1, call.2.service, call.2.request)) =
        (request.calls settings decoders).map (fun call => (request.state.session, call)) ∧
      (request.state.session = none →
        (request.run settings decoders).status = .returned () ∧
        sent (request.run settings decoders).log = errorEvents 503 "gateway not ready" ∧
        request.calls settings decoders = []) := by
  have hwired := App.run_wired hrun
  rw [run_append] at hrun
  obtain ⟨mid, hbefore, hrest⟩ := Option.bind_eq_some_iff.mp hrun
  obtain ⟨next, hstep, hafter⟩ := run_cons_eq_some _ hrest
  have hcount : mid.requests.length = before.countP AppLabel.isArrival := by
    have hinvariant := run_invariant_history (App.step settings decoders)
      (I := fun labels app => app.requests.length = labels.countP AppLabel.isArrival)
      (fun labels s label s' hs hnext => by
        rw [(App.step_spec hnext).arrivals, hs, List.countP_append, List.countP_singleton])
      (show ({} : App).requests.length = List.countP AppLabel.isArrival [] from rfl) hbefore
    exact hinvariant
  have hnew : next.requests[mid.requests.length]? = some (mid.incoming scope) := by
    obtain rfl := Option.some.inj hstep
    exact List.getElem?_concat_length
  obtain ⟨request, hget, hscope, hstate⟩ := run_invariant (App.step settings decoders)
    (I := fun app => ∃ later, app.requests[mid.requests.length]? = some later ∧
      later.scope = scope ∧ later.state = mid.state)
    (fun s label s' hs hnext => by
      obtain ⟨later, hlater, hscope, hstate⟩ := hs
      obtain ⟨last, hlast, hscope', hstate'⟩ := (App.step_spec hnext).keeps hlater
      exact ⟨last, hlast, hscope'.trans hscope, hstate'.trans hstate⟩)
    ⟨mid.incoming scope, hnew, rfl, rfl⟩ hafter
  rw [hcount] at hget
  refine ⟨request, hget, hscope, ?_, ?_, hwired _ request hget, fun hnone => ?_⟩
  · rw [hstate]
    exact (App.run_coherent hbefore).state.auth
  · rw [hstate]
    exact (App.run_traced hbefore).session
  · have hready : request.state.ready = false := by
      rw [AppState.ready, hnone]
      rfl
    rw [HttpRequest.calls, HttpRequest.run, hready]
    exact ⟨rfl, rfl, rfl⟩

/-- The request between the two startups. -/
theorem requests_follow_lifespan_restart : ∃ request,
    restartEnd.requests[(restartLabels.take 2).countP AppLabel.isArrival]? = some request ∧
      request.scope = ⟨"GET", "/items", []⟩ ∧ request.state.auth = request.state.session ∧
      request.state.session = (if phase (restartLabels.take 2) = .returned then none
        else latest (startups (restartLabels.take 2))) ∧
      (restartEnd.callsOf ((restartLabels.take 2).countP AppLabel.isArrival)).map
          (fun call => (call.1, call.2.service, call.2.request)) =
        (request.calls composeSettings noDecoders).map (fun call => (request.state.session, call)) ∧
      (request.state.session = none →
        (request.run composeSettings noDecoders).status = .returned () ∧
        sent (request.run composeSettings noDecoders).log = errorEvents 503 "gateway not ready" ∧
        request.calls composeSettings noDecoders = []) :=
  have hrun : run (App.step composeSettings noDecoders) {}
      (restartLabels.take 2 ++ .arrive ⟨"GET", "/items", []⟩ :: restartLabels.drop 3) = some restartEnd :=
    restartRun_eq
  requests_follow_lifespan hrun

end ApigateBenchmark.GatewayPython
