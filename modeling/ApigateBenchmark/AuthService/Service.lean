import ApigateBenchmark.AuthService.Handlers
import ApigateBenchmark.Library.Transition

/-!
# A process of auth-service

Any number of requests at once over one store, and a clock that may show anything. A request is a
task: it enters a handler, goes through its call of the store step by step, and leaves with a response.
A run is a list of labels, so it is an interleaving of the tasks. The claims a `Login` signed stay with
its task: together they are the tokens ever signed in the run.
-/

namespace ApigateBenchmark.AuthService

inductive Request where
  /-- With what `Create` will draw, should the request come to that. -/
  | register (body : Bytes) (draw : Draw)
  | login (body : Bytes)
  /-- With the value `Peek` finds for `Authorization`. -/
  | verify (auth : Bytes)
  deriving DecidableEq

inductive Progress where
  | arrived
  | inStore (op : Op) (state : CallState)
  | responded (response : Response) (signed : Option Claims)
  deriving DecidableEq

structure Task where
  request : Request
  progress : Progress
  deriving DecidableEq

structure Service where
  store : Store
  now : Time
  tasks : List Task

inductive Label where
  | arrive (request : Request)
  | advance (id : Nat)
  | clock (now : Time)

def Service.start : Service := ⟨newStore, 0, []⟩

/-- The response of a request, with the claims signed for it. -/
def Service.answer (s : Service) (id : Nat) : Option (Response × Option Claims) :=
  (s.tasks[id]?).bind fun task =>
    match task.progress with
    | .responded response signed => some (response, signed)
    | _ => none

/-- The handler up to its call of the store. -/
def Request.enter (jwt : Jwt) (issuer : Issuer) (now : Time) : Request → Progress
  | .register body draw =>
      match registerInput body with
      | .error response => .responded response none
      | .ok input => .inStore (.create input.email input.password draw) .called
  | .login body =>
      match loginInput body with
      | .error response => .responded response none
      | .ok input => .inStore (.authenticate input.email input.password) .called
  | .verify auth => .responded (AuthService.verify jwt issuer now auth) none

/-- The handler from the store's result on. -/
def Request.leave (jwt : Jwt) (issuer : Issuer) (now : Time) (store : Store)
    (result : Except StoreError Nat) : Request → Option (Response × Option Claims)
  | .register _ _ => (registerResult store result).map fun response => (response, none)
  | .login _ => loginResult jwt issuer now store result
  | .verify _ => none

def Task.advance (jwt : Jwt) (bcrypt : Bcrypt) (issuer : Issuer) (now : Time) (store : Store)
    (task : Task) : Option (Store × Progress) :=
  match task.progress with
  | .arrived => some (store, task.request.enter jwt issuer now)
  | .inStore _ (.returned result) =>
      (task.request.leave jwt issuer now store result).map fun answer =>
        (store, .responded answer.1 answer.2)
  | .inStore op state =>
      (op.step bcrypt store state).map fun next => (next.1, .inStore op next.2)
  | .responded _ _ => none

def Service.step (jwt : Jwt) (bcrypt : Bcrypt) (issuer : Issuer) (s : Service) : Label → Option Service
  | .arrive request => some { s with tasks := s.tasks ++ [⟨request, .arrived⟩] }
  | .clock now => some { s with now }
  | .advance id =>
      (s.tasks[id]?).bind fun task =>
        (task.advance jwt bcrypt issuer s.now s.store).map fun next =>
          { s with store := next.1, tasks := s.tasks.set id ⟨task.request, next.2⟩ }

section

variable {jwt : Jwt} {bcrypt : Bcrypt} {issuer : Issuer}

/-! ### All that a step can do -/

/-- What the handler asks of the store. -/
def Request.Asks : Request → Op → Prop
  | .register body draw, .create email password draw' =>
      registerInput body = .ok ⟨email, password⟩ ∧ draw' = draw
  | .login body, .authenticate email password => loginInput body = .ok ⟨email, password⟩
  | _, _ => False

theorem Request.enter_cases (jwt : Jwt) (issuer : Issuer) (request : Request) (now : Time) :
    (∃ op, request.Asks op ∧ request.enter jwt issuer now = .inStore op .called) ∨
      ∃ response, request.enter jwt issuer now = .responded response none := by
  cases request with
  | register body draw =>
      cases hinput : registerInput body with
      | error response => exact .inr ⟨response, by rw [Request.enter, hinput]⟩
      | ok input =>
          exact .inl ⟨.create input.email input.password draw, ⟨hinput, rfl⟩, by rw [Request.enter, hinput]⟩
  | login body =>
      cases hinput : loginInput body with
      | error response => exact .inr ⟨response, by rw [Request.enter, hinput]⟩
      | ok input =>
          exact .inl ⟨.authenticate input.email input.password, hinput, by rw [Request.enter, hinput]⟩
  | verify auth => exact .inr ⟨_, rfl⟩

inductive Task.Steps (jwt : Jwt) (bcrypt : Bcrypt) (issuer : Issuer) (now : Time) (store : Store)
    (request : Request) : Progress → Store → Progress → Prop where
  | enters : Steps jwt bcrypt issuer now store request .arrived store (request.enter jwt issuer now)
  | works {op : Op} {state state' : CallState} {store' : Store}
      (hsteps : op.Steps bcrypt store state store' state') :
      Steps jwt bcrypt issuer now store request (.inStore op state) store' (.inStore op state')
  | leaves {op : Op} {result : Except StoreError Nat} {response : Response} {signed : Option Claims}
      (hleave : request.leave jwt issuer now store result = some (response, signed)) :
      Steps jwt bcrypt issuer now store request (.inStore op (.returned result)) store
        (.responded response signed)

inductive Service.Steps (jwt : Jwt) (bcrypt : Bcrypt) (issuer : Issuer) (s : Service) :
    Label → Service → Prop where
  | arrives (request : Request) :
      Steps jwt bcrypt issuer s (.arrive request) { s with tasks := s.tasks ++ [⟨request, .arrived⟩] }
  | ticks (now : Time) : Steps jwt bcrypt issuer s (.clock now) { s with now }
  | advances {id : Nat} {request : Request} {progress progress' : Progress} {store : Store}
      (htask : s.tasks[id]? = some ⟨request, progress⟩)
      (hsteps : Task.Steps jwt bcrypt issuer s.now s.store request progress store progress') :
      Steps jwt bcrypt issuer s (.advance id)
        { s with store, tasks := s.tasks.set id ⟨request, progress'⟩ }

theorem Task.advance_spec {now : Time} {store store' : Store} {task : Task} {progress' : Progress}
    (h : task.advance jwt bcrypt issuer now store = some (store', progress')) :
    Task.Steps jwt bcrypt issuer now store task.request task.progress store' progress' := by
  obtain ⟨request, progress⟩ := task
  simp only [Task.advance] at h
  split at h
  · cases h
    exact .enters
  · obtain ⟨⟨response, signed⟩, hleave, heq⟩ := Option.map_eq_some_iff.mp h
    cases heq
    exact .leaves hleave
  · obtain ⟨⟨store₁, state₁⟩, hop, heq⟩ := Option.map_eq_some_iff.mp h
    cases heq
    exact .works (Op.step_spec hop)
  · cases h

theorem Service.step_spec {s s' : Service} {label : Label}
    (h : s.step jwt bcrypt issuer label = some s') : Service.Steps jwt bcrypt issuer s label s' := by
  cases label with
  | arrive request =>
      obtain rfl := Option.some.inj h
      exact .arrives request
  | clock now =>
      obtain rfl := Option.some.inj h
      exact .ticks now
  | advance id =>
      obtain ⟨task, htask, hmap⟩ := Option.bind_eq_some_iff.mp h
      obtain ⟨⟨store, progress⟩, hadvance, rfl⟩ := Option.map_eq_some_iff.mp hmap
      exact .advances htask (Task.advance_spec hadvance)

theorem Task.Steps.extends {now : Time} {store store' : Store} {request : Request}
    {progress progress' : Progress}
    (h : Task.Steps jwt bcrypt issuer now store request progress store' progress') :
    store.Extends store' := by
  cases h with
  | enters => exact Store.Extends.refl store
  | works hsteps => exact hsteps.extends
  | leaves hleave => exact Store.Extends.refl store

theorem Service.Steps.extends {s s' : Service} {label : Label}
    (h : Service.Steps jwt bcrypt issuer s label s') : s.store.Extends s'.store := by
  cases h with
  | arrives request => exact Store.Extends.refl s.store
  | ticks now => exact Store.Extends.refl s.store
  | advances htask hsteps => exact hsteps.extends

/-! ### What a task knows -/

theorem Request.leave_extends {now : Time} {old new : Store} (hext : old.Extends new)
    {request : Request} {result : Except StoreError Nat} {answer : Response × Option Claims}
    (h : request.leave jwt issuer now old result = some answer) :
    request.leave jwt issuer now new result = some answer := by
  cases result with
  | error err =>
      cases request <;> cases err <;> exact h
  | ok ptr =>
      cases request with
      | register body draw =>
          obtain ⟨response, hresponse, rfl⟩ := Option.map_eq_some_iff.mp h
          obtain ⟨user, huser, rfl⟩ := Option.map_eq_some_iff.mp hresponse
          simp only [Request.leave, registerResult, hext.heap ptr user huser, Option.map_some]
      | login body =>
          obtain ⟨user, huser, rfl⟩ := Option.map_eq_some_iff.mp h
          simp only [Request.leave, loginResult, hext.heap ptr user huser, Option.map_some]
      | verify auth => cases h

/-- What the progress of a task says about its request and about the store. -/
def Task.Knows (jwt : Jwt) (bcrypt : Bcrypt) (issuer : Issuer) (store : Store) (request : Request) :
    Progress → Prop
  | .arrived => True
  | .inStore op state => request.Asks op ∧ op.Knows bcrypt store state
  | .responded response signed =>
      (∃ now, request.enter jwt issuer now = .responded response signed) ∨
        ∃ now op result, request.Asks op ∧ op.Knows bcrypt store (.returned result) ∧
          request.leave jwt issuer now store result = some (response, signed)

theorem Task.Knows.extends {old new : Store} (hext : old.Extends new) {request : Request}
    {progress : Progress} (h : Task.Knows jwt bcrypt issuer old request progress) :
    Task.Knows jwt bcrypt issuer new request progress := by
  cases progress with
  | arrived => exact trivial
  | inStore op state => exact ⟨h.1, h.2.extends hext⟩
  | responded response signed =>
      obtain henter | ⟨now, op, result, hasks, hknows, hleave⟩ := h
      · exact .inl henter
      · exact .inr ⟨now, op, result, hasks, hknows.extends hext, Request.leave_extends hext hleave⟩

theorem Task.Steps.knows {now : Time} {store store' : Store} {request : Request}
    {progress progress' : Progress}
    (h : Task.Steps jwt bcrypt issuer now store request progress store' progress')
    (hknows : Task.Knows jwt bcrypt issuer store request progress) :
    Task.Knows jwt bcrypt issuer store' request progress' := by
  cases h with
  | enters =>
      obtain ⟨op, hasks, henter⟩ | ⟨response, henter⟩ := request.enter_cases jwt issuer now
      · rw [henter]
        exact ⟨hasks, trivial⟩
      · rw [henter]
        exact .inl ⟨now, henter⟩
  | works hsteps => exact ⟨hknows.1, hsteps.knows hknows.2⟩
  | leaves hleave => exact .inr ⟨now, _, _, hknows.1, hknows.2, hleave⟩

def Service.Sound (jwt : Jwt) (bcrypt : Bcrypt) (issuer : Issuer) (s : Service) : Prop :=
  ∀ task ∈ s.tasks, Task.Knows jwt bcrypt issuer s.store task.request task.progress

theorem Service.Steps.sound {s s' : Service} {label : Label}
    (h : Service.Steps jwt bcrypt issuer s label s') (hsound : s.Sound jwt bcrypt issuer) :
    s'.Sound jwt bcrypt issuer := by
  intro task htask
  cases h with
  | arrives request =>
      obtain hmem | rfl := (List.mem_append.mp htask).imp id List.mem_singleton.mp
      · exact hsound task hmem
      · exact trivial
  | ticks now => exact hsound task htask
  | advances hid hsteps =>
      obtain hmem | rfl := List.mem_or_eq_of_mem_set htask
      · exact (hsound task hmem).extends hsteps.extends
      · exact hsteps.knows (hsound _ (List.mem_of_getElem? hid))

theorem Service.run_sound {s : Service} {labels : List Label}
    (hrun : Transition.run (Service.step jwt bcrypt issuer) Service.start labels = some s) :
    s.Sound jwt bcrypt issuer :=
  Transition.run_invariant (Service.step jwt bcrypt issuer)
    (fun _ _ _ hs hstep => (Service.step_spec hstep).sound hs)
    (fun _ hmem => absurd hmem List.not_mem_nil) hrun

theorem Service.run_extends {s s' : Service} {labels : List Label}
    (hrun : Transition.run (Service.step jwt bcrypt issuer) s labels = some s') :
    s.store.Extends s'.store := by
  refine Transition.run_invariant (Service.step jwt bcrypt issuer) (I := fun t => s.store.Extends t.store)
    (fun t label t' ht hstep => ?_) (Store.Extends.refl s.store) hrun
  exact ht.trans (Service.step_spec hstep).extends

end

end ApigateBenchmark.AuthService
