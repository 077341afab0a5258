import ApigateBenchmark.GatewayPython.Runs
import ApigateBenchmark.Library.Transition

/-!
# One gateway process and its shared session

A process handles any number of requests at once. A request is a task: its scope and the answers it
has received, the rest being what `asgiApp` makes of them. The only thing tasks share is the client
session, and all a session keeps between calls is its cookie jar: `_build_session` passes no
`cookie_jar`, so the jar is aiohttp's own, which remembers the `Set-Cookie` headers of every response
of a host that has a name, and adds them to every later call of that host.

A step is the arrival of a request, or one answer to one task, after which the task runs up to its next
`await`. So a run, a list of such labels, is an interleaving of the tasks, and `wire` records in order
every call that left the process. The entries aiohttp adds to each call by itself (`Host`, `Accept`,
`User-Agent`) are the same for all and left out.
-/

namespace ApigateBenchmark.GatewayPython

open Coroutine

/-! ### The cookie jar of the session -/

inductive CookieJar where
  | inMemory
  | dummy
  deriving DecidableEq

/-- The `cookie_jar` argument of `_build_session`: there is none, and aiohttp makes its own. -/
def buildSession : Option CookieJar := none

def keepsCookies : Bool := buildSession.getD .inMemory == .inMemory

structure Cookie where
  host : String
  pair : String
  deriving DecidableEq

def setCookieName : Bytes := Bytes.utf8 "set-cookie"

def setCookies (head : ResponseHead) : List Bytes :=
  (head.rawHeaders.filter fun entry => Bytes.lower entry.1 == setCookieName).map Prod.snd

/-- The part of a `Set-Cookie` value up to the first semicolon. -/
def cookiePair (raw : Bytes) : String := Bytes.latin1 (raw.takeWhile (· != 0x3b))

/-- The cookies a response of `host` adds to the jar. -/
def storedCookies (host : Host) (head : ResponseHead) : List Cookie :=
  match host with
  | .name name => if keepsCookies then (setCookies head).map fun raw => ⟨name, cookiePair raw⟩ else []
  | .ipLiteral _ => []

/-- The cookies of the jar that a call of `host` takes along. -/
def cookiesFor (host : Host) (jar : List Cookie) : List String :=
  match host with
  | .name name => (jar.filter fun cookie => cookie.host == name).map Cookie.pair
  | .ipLiteral _ => []

def isCookie (entry : String × String) : Bool := Bytes.lowerText entry.1 == "cookie"

/-- Merge the cookies into the header block: one `Cookie` entry takes the place of those there were. -/
def withCookies (cookies : List String) (headers : CIMultiDict) : CIMultiDict :=
  if cookies = [] then headers
  else
    headers.filter (fun entry => !isCookie entry) ++
      [("Cookie", String.intercalate "; " (((headers.find? isCookie).map Prod.snd).toList ++ cookies))]

@[simp] theorem withCookies_nil (headers : CIMultiDict) : withCookies [] headers = headers := rfl

/-! ### Calls -/

inductive Service where
  | auth
  | data
  deriving DecidableEq

/-- The calls among the actions of a run: `session.post` is the auth client's, `session.request` the
relay's. -/
def calls (log : List Action) : List (Service × UpstreamRequest) :=
  log.filterMap fun
    | .send _ => none
    | .post request => some (.auth, request)
    | .request request => some (.data, request)

/-- A call on its way: who made it, what the handler asked for, and the cookies of the jar. -/
structure WireCall where
  task : Nat
  service : Service
  request : UpstreamRequest
  cookies : List String
  deriving DecidableEq

/-- The request as it leaves the process. -/
def WireCall.onWire (call : WireCall) : UpstreamRequest :=
  { call.request with headers := withCookies call.cookies call.request.headers }

/-! ### Answers -/

inductive Answer where
  | message (message : AsgiMessage)
  | verifyHead (reply : Except Fault ResponseHead)
  | verifyBody (reply : Except Fault Bytes)
  | dataHead (reply : Except Fault ResponseHead)
  | dataChunk (chunk : Bytes)
  | dataEnd (bodyEnd : BodyEnd)
  deriving DecidableEq

def Answer.question : Answer → Question
  | .message _ => .receive
  | .verifyHead _ => .verifyHead
  | .verifyBody _ => .verifyBody
  | .dataHead _ => .dataHead
  | .dataChunk _ | .dataEnd _ => .dataChunk

def World.feed (world : World) : Answer → World
  | .message message => { world with inbox := world.inbox ++ [message] }
  | .verifyHead reply => { world with verifyHead := some reply }
  | .verifyBody reply => { world with verifyBody := some reply }
  | .dataHead reply => { world with dataHead := some reply }
  | .dataChunk chunk => { world with dataChunks := world.dataChunks ++ [chunk] }
  | .dataEnd bodyEnd => { world with dataEnd := some bodyEnd }

/-! ### The process -/

structure Task where
  scope : Scope
  world : World := {}
  deriving DecidableEq

structure Process where
  jar : List Cookie := []
  tasks : List Task := []
  wire : List WireCall := []
  deriving DecidableEq

inductive Label where
  | arrive (scope : Scope)
  | deliver (task : Nat) (answer : Answer)

variable (settings : Settings) (decoders : Decoders)

def Task.run (task : Task) : Py Unit := asgiApp settings decoders true task.scope task.world

def Task.calls (task : Task) : List (Service × UpstreamRequest) :=
  GatewayPython.calls (task.run settings decoders).log

def Task.resume (task : Task) (answer : Answer) : Task := { task with world := task.world.feed answer }

/-- The calls a task makes between an answer and its next `await`. -/
def Task.newCalls (task : Task) (answer : Answer) : List (Service × UpstreamRequest) :=
  ((task.resume answer).calls settings decoders).drop (task.calls settings decoders).length

/-- The session stores the cookies of a response as soon as its head is there. -/
def Answer.cookies : Answer → List Cookie
  | .verifyHead (.ok head) => storedCookies settings.authVerifyUrl.host head
  | .dataHead (.ok head) => storedCookies settings.originBaseUrl.host head
  | _ => []

/-- A call with the cookies the jar holds for its host. -/
def stamp (task : Nat) (jar : List Cookie) (call : Service × UpstreamRequest) : WireCall :=
  ⟨task, call.1, call.2, cookiesFor call.2.url.host jar⟩

def Process.dispatch (process : Process) (task : Nat) (calls : List (Service × UpstreamRequest)) : Process :=
  { process with wire := process.wire ++ calls.map (stamp task process.jar) }

/-- One step of the process; an answer nobody awaits does not arrive. -/
def Process.step (process : Process) : Label → Option Process
  | .arrive scope =>
      let task : Task := { scope := scope }
      some (({ process with tasks := process.tasks ++ [task] }).dispatch process.tasks.length
        (task.calls settings decoders))
  | .deliver id answer =>
      match process.tasks[id]? with
      | none => none
      | some task =>
          if (task.run settings decoders).status = .suspended answer.question then
            some (({ process with
              tasks := process.tasks.set id (task.resume answer)
              jar := process.jar ++ answer.cookies settings }).dispatch id
                (task.newCalls settings decoders answer))
          else none

/-- The runs of the process, from its startup on. -/
def Process.run (labels : List Label) : Option Process :=
  Transition.run (Process.step settings decoders) {} labels

def Process.callsOf (process : Process) (task : Nat) : List WireCall :=
  process.wire.filter fun call => call.task == task

/-- What auth-service and data-service see of a task. -/
def Process.seenOf (process : Process) (task : Nat) : List (Service × UpstreamRequest) :=
  (process.callsOf task).map fun call => (call.service, call.onWire)

/-! ### What a task calls, and when -/

/-- The call of data-service, once the run has decided to make it. -/
def Decision.calls : Decision → List (Service × UpstreamRequest)
  | .forward request => [(.data, request)]
  | _ => []

def verifyCalls (scope : Scope) : List (Service × UpstreamRequest) := calls (authCalls settings scope)

theorem calls_append (l m : List Action) : calls (l ++ m) = calls l ++ calls m := by
  simp only [calls, List.filterMap_append]

theorem calls_map_send (events : List AsgiEvent) : calls (events.map .send) = [] := by
  induction events with
  | nil => rfl
  | cons event events ih => exact ih

theorem calls_onException (exc : Exc) : calls (onException exc).log = [] := by
  cases exc with
  | clientDisconnected => rfl
  | authError status detail => rfl
  | fault fault => cases fault <;> rfl
  | decode exc => rfl

/-- A handler around a run adds the calls of whichever clause it enters. -/
theorem calls_handle (run : Py Unit) : calls (run.handle onException).log = calls run.log := by
  obtain ⟨log, status⟩ := run
  cases status with
  | returned value => rfl
  | raised exc =>
      change calls (log ++ (onException exc).log) = calls log
      rw [calls_append, calls_onException, List.append_nil]
  | suspended question => rfl

theorem calls_relayEnd (bodyEnd : Option BodyEnd) : calls (relayEnd bodyEnd).log = [] := by
  cases bodyEnd with
  | none => rfl
  | some bodyEnd => cases bodyEnd with
    | complete => rfl
    | broken fault => cases fault <;> rfl

theorem calls_proxy (world : World) (request : UpstreamRequest) :
    calls (proxy world request).log = [(.data, request)] := by
  rw [proxy_eq, exchange]
  cases world.dataHead with
  | none => rfl
  | some answer => cases answer with
    | error fault => rfl
    | ok head =>
        simp only [relayResponse_eq, prepend_prepend, prepend_log]
        rw [calls_append, calls_relayEnd, calls_append, calls_map_send]
        rfl

theorem calls_decision (world : World) (decision : Decision) :
    calls (decision.toPy world).log = decision.calls := by
  cases decision with
  | forward request => exact calls_proxy world request
  | _ => rfl

/-- The calls of a task: the verification its scope asks for, then what was decided. -/
theorem Task.calls_eq (task : Task) : task.calls settings decoders =
    verifyCalls settings task.scope ++ (decision settings decoders task.scope task.world).calls := by
  rw [Task.calls, Task.run, asgiApp_eq, prepend_log, calls_append, calls_handle, calls_decision]
  rfl

/-- Decisions look at the messages received and at the reply of auth-service only. -/
theorem decision_congr (scope : Scope) {world other : World} (hinbox : world.inbox = other.inbox)
    (hhead : world.verifyHead = other.verifyHead) (hbody : world.verifyBody = other.verifyBody) :
    decision settings decoders scope world = decision settings decoders scope other := by
  simp only [decision, myItemsDecision, bodyDecision, verdict, hinbox, hhead, hbody]

/-- Where a suspended task stands: before its decision, or in the exchange with data-service. -/
theorem Task.suspended {task : Task} {question : Question}
    (h : (task.run settings decoders).status = .suspended question) :
    decision settings decoders task.scope task.world = .wait question ∨
      (∃ request, decision settings decoders task.scope task.world = .forward request) ∧
        ((question = .dataHead ∧ task.world.dataHead = none) ∨ question = .dataChunk) := by
  rw [Task.run, asgiApp_eq, prepend_status] at h
  cases hdecision : decision settings decoders task.scope task.world with
  | answer status detail =>
      rw [hdecision] at h
      cases h
  | wait other =>
      rw [hdecision] at h
      cases h
      exact Or.inl rfl
  | hangUp =>
      rw [hdecision] at h
      cases h
  | escape exc =>
      rw [hdecision] at h
      cases exc with
      | fault fault => cases fault <;> cases h
      | clientDisconnected => cases h
      | authError status detail => cases h
      | decode raised => cases h
  | forward request =>
      rw [hdecision] at h
      refine Or.inr ⟨⟨request, rfl⟩, ?_⟩
      simp only [Decision.toPy, proxy_eq, prepend_handle, prepend_status, exchange] at h
      cases hhead : task.world.dataHead with
      | none =>
          rw [hhead] at h
          cases h
          exact Or.inl ⟨rfl, rfl⟩
      | some answer =>
          rw [hhead] at h
          cases answer with
          | error fault => cases fault <;> cases h
          | ok head =>
              simp only [relayResponse_eq, prepend_handle, prepend_status] at h
              cases hend : task.world.dataEnd with
              | none =>
                  rw [hend] at h
                  cases h
                  exact Or.inr rfl
              | some bodyEnd =>
                  rw [hend] at h
                  cases bodyEnd with
                  | complete => cases h
                  | broken fault => cases fault <;> cases h

/-- Before its decision a run waits for the client or for auth-service. -/
theorem decision_wait {scope : Scope} {world : World} {question : Question}
    (h : decision settings decoders scope world = .wait question) :
    question = .receive ∨ (question = .verifyHead ∧ world.verifyHead = none) ∨ question = .verifyBody := by
  have hjustified := decision_justified settings decoders scope world
  rw [h] at hjustified
  obtain hreceive | hverdict := hjustified
  · exact Or.inl hreceive
  · obtain hhead | ⟨hbody, -⟩ := verdict_waiting decoders hverdict
    · exact Or.inr (Or.inl hhead)
    · exact Or.inr (Or.inr hbody)

/-- A task that goes on either comes to its decision, and makes the call this asks for, or has made it
and goes on with an answer of data-service. -/
theorem Task.resume_cases {task : Task} {answer : Answer}
    (h : (task.run settings decoders).status = .suspended answer.question) :
    (decision settings decoders task.scope task.world = .wait answer.question ∧
        task.newCalls settings decoders answer =
          (decision settings decoders task.scope (task.resume answer).world).calls) ∨
      (∃ request, decision settings decoders task.scope task.world = .forward request ∧
          decision settings decoders task.scope (task.resume answer).world = .forward request) ∧
        task.newCalls settings decoders answer = [] ∧
        ((answer.question = .dataHead ∧ task.world.dataHead = none) ∨ answer.question = .dataChunk) := by
  rw [Task.newCalls, Task.calls_eq, Task.calls_eq]
  obtain hwait | ⟨⟨request, hforward⟩, hdata⟩ := Task.suspended settings decoders h
  · refine Or.inl ⟨hwait, ?_⟩
    rw [hwait, Decision.calls, List.append_nil]
    · exact List.drop_left
    · intro request
      exact Decision.noConfusion
  · have hsame : decision settings decoders task.scope (task.resume answer).world =
        decision settings decoders task.scope task.world := by
      apply decision_congr <;> cases answer <;> first | rfl | simp [Answer.question] at hdata
    refine Or.inr ⟨⟨request, hforward, hsame.trans hforward⟩, ?_, hdata⟩
    change List.drop _ (verifyCalls settings task.scope ++
      (decision settings decoders task.scope (task.resume answer).world).calls) = []
    rw [hsame]
    exact List.drop_length

/-- Resuming a task takes no call back. -/
theorem Task.calls_resume {task : Task} {answer : Answer}
    (h : (task.run settings decoders).status = .suspended answer.question) :
    (task.resume answer).calls settings decoders =
      task.calls settings decoders ++ task.newCalls settings decoders answer := by
  rw [Task.calls_eq, Task.calls_eq, List.append_assoc]
  refine congrArg (verifyCalls settings task.scope ++ ·) ?_
  obtain ⟨hwait, hnew⟩ | ⟨⟨request, hforward, hsame⟩, hnew, -⟩ := Task.resume_cases settings decoders h
  · rw [hwait, hnew]
    rfl
  · rw [hforward, hnew, List.append_nil, ← hsame]
    rfl

/-! ### What a step can do -/

theorem Process.step_cases {process next : Process} {label : Label}
    (h : process.step settings decoders label = some next) :
    (∃ scope, label = .arrive scope ∧
        next = ({ process with tasks := process.tasks ++ [{ scope := scope }] } : Process).dispatch
          process.tasks.length (Task.calls settings decoders { scope := scope })) ∨
      ∃ id answer task, label = .deliver id answer ∧ process.tasks[id]? = some task ∧
        (task.run settings decoders).status = .suspended answer.question ∧
        next = ({ process with
          tasks := process.tasks.set id (task.resume answer)
          jar := process.jar ++ answer.cookies settings } : Process).dispatch id
            (task.newCalls settings decoders answer) := by
  cases label with
  | arrive scope => exact Or.inl ⟨scope, rfl, (Option.some.inj h).symm⟩
  | deliver id answer =>
      rw [Process.step] at h
      split at h
      · exact absurd h (by simp)
      · rename_i task htask
        split at h
        · rename_i hsuspended
          exact Or.inr ⟨id, answer, task, rfl, htask, hsuspended, (Option.some.inj h).symm⟩
        · exact absurd h (by simp)

@[simp] theorem Process.dispatch_jar (process : Process) (task : Nat)
    (calls : List (Service × UpstreamRequest)) : (process.dispatch task calls).jar = process.jar := rfl

@[simp] theorem Process.dispatch_tasks (process : Process) (task : Nat)
    (calls : List (Service × UpstreamRequest)) : (process.dispatch task calls).tasks = process.tasks := rfl

theorem Process.callsOf_dispatch_self (process : Process) (task : Nat)
    (calls : List (Service × UpstreamRequest)) :
    (process.dispatch task calls).callsOf task = process.callsOf task ++ calls.map (stamp task process.jar) := by
  have hall : (calls.map (stamp task process.jar)).filter (fun call => call.task == task) =
      calls.map (stamp task process.jar) := by
    apply List.filter_eq_self.mpr
    intro call hcall
    obtain ⟨_, -, rfl⟩ := List.mem_map.mp hcall
    exact beq_self_eq_true task
  rw [callsOf, dispatch, List.filter_append, hall]
  rfl

theorem Process.callsOf_dispatch_of_ne (process : Process) {task other : Nat} (hne : task ≠ other)
    (calls : List (Service × UpstreamRequest)) :
    (process.dispatch task calls).callsOf other = process.callsOf other := by
  have hnone : (calls.map (stamp task process.jar)).filter (fun call => call.task == other) = [] := by
    apply List.filter_eq_nil_iff.mpr
    intro call hcall
    obtain ⟨_, -, rfl⟩ := List.mem_map.mp hcall
    simpa [stamp] using hne
  rw [callsOf, dispatch, List.filter_append, hnone, List.append_nil]
  rfl

/-! ### The wire of a task is what its run called -/

structure Process.Consistent (process : Process) : Prop where
  calls : ∀ id task, process.tasks[id]? = some task →
    (process.callsOf id).map (fun call => (call.service, call.request)) = task.calls settings decoders
  fresh : ∀ id, process.tasks.length ≤ id → process.callsOf id = []

theorem map_stamp (task : Nat) (jar : List Cookie) (calls : List (Service × UpstreamRequest)) :
    (calls.map (stamp task jar)).map (fun call => (call.service, call.request)) = calls := by
  rw [List.map_map]
  exact List.map_id calls

theorem Process.step_consistent (process : Process) (label : Label) (next : Process)
    (hconsistent : process.Consistent settings decoders)
    (h : process.step settings decoders label = some next) : next.Consistent settings decoders := by
  obtain ⟨scope, -, rfl⟩ | ⟨id, answer, task, -, htask, hsuspended, rfl⟩ :=
    Process.step_cases settings decoders h
  · have hfresh := hconsistent.fresh process.tasks.length (Nat.le_refl _)
    constructor
    · intro id other hother
      rw [dispatch_tasks] at hother
      by_cases hid : id = process.tasks.length
      · subst hid
        rw [List.getElem?_concat_length] at hother
        obtain rfl : _ = other := Option.some.inj hother
        rw [callsOf_dispatch_self, List.map_append, map_stamp]
        change (process.callsOf process.tasks.length).map _ ++ _ = _
        rw [hfresh, List.map_nil, List.nil_append]
      · rw [Transition.getElem?_snoc_of_ne hid] at hother
        rw [callsOf_dispatch_of_ne _ (Ne.symm hid)]
        exact hconsistent.calls id other hother
    · intro id hid
      rw [dispatch_tasks, List.length_append, List.length_singleton] at hid
      rw [callsOf_dispatch_of_ne _ (by omega)]
      exact hconsistent.fresh id (by omega)
  · have hid : id < process.tasks.length := (List.getElem?_eq_some_iff.mp htask).1
    constructor
    · intro other resumed hother
      rw [dispatch_tasks] at hother
      by_cases hsame : id = other
      · subst hsame
        rw [List.getElem?_set_self hid] at hother
        obtain rfl : _ = resumed := Option.some.inj hother
        rw [callsOf_dispatch_self, List.map_append, map_stamp, Task.calls_resume _ _ hsuspended]
        exact congrArg (· ++ _) (hconsistent.calls id task htask)
      · rw [List.getElem?_set_ne hsame] at hother
        rw [callsOf_dispatch_of_ne _ hsame]
        exact hconsistent.calls other resumed hother
    · intro other hother
      rw [dispatch_tasks, List.length_set] at hother
      rw [callsOf_dispatch_of_ne _ (by omega)]
      exact hconsistent.fresh other hother

/-- In every state a process reaches, the calls on the wire are those the runs of its tasks made. -/
theorem Process.run_consistent {labels : List Label} {process : Process}
    (h : Process.run settings decoders labels = some process) : process.Consistent settings decoders := by
  refine Transition.run_invariant _ (Process.step_consistent settings decoders) ?_ h
  exact ⟨fun id task htask => by simp at htask, fun id _ => rfl⟩

end ApigateBenchmark.GatewayPython
