import ApigateBenchmark.GatewayPython.Process

/-!
# What one client's traffic does to another's

The handlers keep nothing between requests, so the one channel between two clients is the cookie jar of
the session. While every response to the other tasks leaves the jar alone, the jar holds what a task's
own responses put there, and the calls of a task are a function of its scope, its body and the reply of
auth-service (`Task.ownWire`): two histories of that kind cannot be told apart. A cookie that the response
to another client brought shows in the next request of anybody (`session_cookie_leaks`).
-/

namespace ApigateBenchmark.GatewayPython

open Coroutine Process

variable (settings : Settings) (decoders : Decoders)

/-! ### The calls of a task that is alone with its cookies -/

def replyCookies (host : Host) : Option (Except Fault ResponseHead) → List Cookie
  | some (.ok head) => storedCookies host head
  | _ => []

@[simp] theorem replyCookies_none (host : Host) : replyCookies host none = [] := rfl

def verifyCookies (world : World) : List Cookie := replyCookies settings.authVerifyUrl.host world.verifyHead

def ownCookies (world : World) : List Cookie :=
  verifyCookies settings world ++ replyCookies settings.originBaseUrl.host world.dataHead

/-- An answer adds its cookies at the end of those the task brought in so far. -/
theorem ownCookies_feed {world : World} {answer : Answer}
    (hverify : answer.question = .verifyHead → world.verifyHead = none ∧ world.dataHead = none)
    (hdata : answer.question = .dataHead → world.dataHead = none) :
    ownCookies settings (world.feed answer) = ownCookies settings world ++ answer.cookies settings := by
  cases answer with
  | verifyHead reply =>
      obtain ⟨hhead, hasked⟩ := hverify rfl
      simp only [ownCookies, verifyCookies, World.feed, hhead, hasked, replyCookies_none]
      cases reply <;> simp [replyCookies, Answer.cookies]
  | dataHead reply =>
      have hasked := hdata rfl
      simp only [ownCookies, verifyCookies, World.feed, hasked, replyCookies_none]
      cases reply <;> simp [replyCookies, Answer.cookies]
  | _ => exact (List.append_nil _).symm

/-- The calls of a task whose jar holds its own cookies only: the first call goes out before any reply,
the second after that of auth-service. -/
def Task.ownWire (id : Nat) (task : Task) : List WireCall :=
  (verifyCalls settings task.scope).map (stamp id []) ++
    (decision settings decoders task.scope task.world).calls.map (stamp id (verifyCookies settings task.world))

/-- Whatever the label does, it brings no cookie into the jar unless for the task itself. -/
def Label.QuietFor (task : Nat) : Label → Prop
  | .arrive _ => True
  | .deliver other answer => other ≠ task → answer.cookies settings = []

/-- The jar and the wire, as far as the task's own answers explain them. -/
structure Task.Alone (task : Task) (id : Nat) (process : Process) : Prop where
  jar : process.jar = ownCookies settings task.world
  wire : process.callsOf id = task.ownWire settings decoders id
  dataHead : task.world.dataHead ≠ none →
    ∃ request, decision settings decoders task.scope task.world = .forward request

structure Process.AloneFor (id : Nat) (process : Process) : Prop where
  absent : process.tasks[id]? = none → process.jar = [] ∧ process.callsOf id = []
  present : ∀ task, process.tasks[id]? = some task → task.Alone settings decoders id process

theorem Task.alone_arrival (scope : Scope) (process : Process) (hjar : process.jar = [])
    (hcalls : process.callsOf process.tasks.length = []) :
    Task.Alone settings decoders { scope := scope } process.tasks.length
      (({ process with tasks := process.tasks ++ [{ scope := scope }] } : Process).dispatch
        process.tasks.length (Task.calls settings decoders { scope := scope })) where
  jar := hjar
  wire := by
    rw [callsOf_dispatch_self, Task.calls_eq, List.map_append, Task.ownWire]
    change process.callsOf process.tasks.length ++ _ = _
    rw [hcalls, hjar, List.nil_append]
    rfl
  dataHead h := absurd rfl h

/-- The step lemma for the task that is answered. -/
theorem Task.alone_resume {task : Task} {answer : Answer} {id : Nat} {process : Process}
    (halone : task.Alone settings decoders id process)
    (hsuspended : (task.run settings decoders).status = .suspended answer.question) :
    (task.resume answer).Alone settings decoders id
      (({ process with
        tasks := process.tasks.set id (task.resume answer)
        jar := process.jar ++ answer.cookies settings } : Process).dispatch id
          (task.newCalls settings decoders answer)) := by
  have hcases := Task.resume_cases settings decoders hsuspended
  obtain ⟨hwait, hnew⟩ | ⟨⟨request, hforward, hsame⟩, hnew, hdata⟩ := hcases
  · -- the decision falls now, if at all, so data-service has not been asked yet
    have hasked : task.world.dataHead = none := by
      by_contra hne
      obtain ⟨request, hforward⟩ := halone.dataHead hne
      rw [hwait] at hforward
      exact Decision.noConfusion hforward
    have hquestion := decision_wait settings decoders hwait
    have hcookies : process.jar ++ answer.cookies settings = ownCookies settings (task.resume answer).world := by
      rw [halone.jar]
      refine (ownCookies_feed settings (fun h => ⟨?_, hasked⟩) fun _ => hasked).symm
      simpa [h] using decision_wait settings decoders hwait
    have hstill : (task.resume answer).world.dataHead = none := by
      have hquestion := decision_wait settings decoders hwait
      cases answer <;> first | exact hasked | simp [Answer.question] at hquestion
    have hverify : process.jar ++ answer.cookies settings =
        verifyCookies settings (task.resume answer).world := by
      rw [hcookies, ownCookies, hstill, replyCookies_none, List.append_nil]
    refine ⟨hcookies, ?_, fun h => absurd hstill h⟩
    rw [callsOf_dispatch_self, hnew]
    change process.callsOf id ++ _ = _
    rw [halone.wire, Task.ownWire, hwait, hverify]
    change (_ ++ []) ++ _ = _
    rw [List.append_nil]
    rfl
  · -- the calls are all made, and auth-service has nothing more to say
    have hverify : verifyCookies settings (task.resume answer).world = verifyCookies settings task.world := by
      cases answer <;> first | rfl | simp [Answer.question] at hdata
    refine ⟨?_, ?_, fun _ => ⟨request, hsame⟩⟩
    · change process.jar ++ answer.cookies settings = _
      rw [halone.jar]
      refine (ownCookies_feed settings (fun h => ?_) fun h => ?_).symm
      · simp [h] at hdata
      · simpa [h] using hdata
    · rw [callsOf_dispatch_self, hnew, List.map_nil, List.append_nil]
      change process.callsOf id = (verifyCalls settings task.scope).map _ ++
        (decision settings decoders task.scope (task.resume answer).world).calls.map _
      rw [halone.wire, Task.ownWire, hverify, hsame, hforward]

/-- A step that does not touch the task, its calls or the jar keeps what is known of it. -/
theorem Process.AloneFor.frame {id : Nat} {process next : Process}
    (halone : process.AloneFor settings decoders id) (htasks : next.tasks[id]? = process.tasks[id]?)
    (hjar : next.jar = process.jar) (hcalls : next.callsOf id = process.callsOf id) :
    next.AloneFor settings decoders id where
  absent hnone := by
    rw [htasks] at hnone
    obtain ⟨hempty, hnocalls⟩ := halone.absent hnone
    exact ⟨hjar.trans hempty, hcalls.trans hnocalls⟩
  present task htask := by
    rw [htasks] at htask
    obtain ⟨hown, hwire, hdata⟩ := halone.present task htask
    exact ⟨hjar.trans hown, hcalls.trans hwire, hdata⟩

theorem Task.Alone.aloneFor {id : Nat} {task : Task} {process : Process}
    (halone : task.Alone settings decoders id process) (htask : process.tasks[id]? = some task) :
    process.AloneFor settings decoders id where
  absent hnone := by
    rw [htask] at hnone
    cases hnone
  present other hother := by
    rw [htask] at hother
    cases hother
    exact halone

theorem Process.step_aloneFor (id : Nat) (process : Process) (label : Label) (next : Process)
    (hquiet : label.QuietFor settings id) (halone : process.AloneFor settings decoders id)
    (h : process.step settings decoders label = some next) : next.AloneFor settings decoders id := by
  obtain ⟨scope, rfl, rfl⟩ | ⟨other, answer, task, rfl, htask, hsuspended, rfl⟩ :=
    Process.step_cases settings decoders h
  · by_cases hid : process.tasks.length = id
    · subst hid
      obtain ⟨hjar, hcalls⟩ := halone.absent (List.getElem?_eq_none (Nat.le_refl _))
      apply (Task.alone_arrival settings decoders scope process hjar hcalls).aloneFor
      rw [dispatch_tasks, List.getElem?_concat_length]
    · apply halone.frame
      · rw [dispatch_tasks, Transition.getElem?_snoc_of_ne (Ne.symm hid)]
      · rw [dispatch_jar]
      · exact callsOf_dispatch_of_ne _ hid _
  · by_cases hid : other = id
    · subst hid
      apply (Task.alone_resume settings decoders (halone.present task htask) hsuspended).aloneFor
      rw [dispatch_tasks, List.getElem?_set_self (List.getElem?_eq_some_iff.mp htask).1]
    · apply halone.frame
      · rw [dispatch_tasks, List.getElem?_set_ne hid]
      · rw [dispatch_jar, hquiet hid, List.append_nil]
      · exact callsOf_dispatch_of_ne _ hid _

theorem Process.run_aloneFor {id : Nat} {labels : List Label} {process : Process}
    (hquiet : ∀ label ∈ labels, label.QuietFor settings id)
    (h : Process.run settings decoders labels = some process) : process.AloneFor settings decoders id := by
  refine Transition.run_invariant_on _ (Process.step_aloneFor settings decoders id) hquiet ?_ h
  exact ⟨fun _ => ⟨rfl, rfl⟩, fun task htask => by simp at htask⟩

theorem seen_stamp (id other : Nat) (jar : List Cookie) (calls : List (Service × UpstreamRequest)) :
    (calls.map (stamp id jar)).map (fun call => (call.service, call.onWire)) =
      (calls.map (stamp other jar)).map fun call => (call.service, call.onWire) := by
  rw [List.map_map, List.map_map]
  rfl

/-- Two requests alike, answered alike by auth-service, make the same upstream calls, whatever came
before them or at the same time, as long as no response to another request put a cookie into the jar. -/
theorem seenOf_eq_of_quiet {labels others : List Label} {process other : Process} {id otherId : Nat}
    {task otherTask : Task}
    (hrun : Process.run settings decoders labels = some process)
    (hother : Process.run settings decoders others = some other)
    (hquiet : ∀ label ∈ labels, label.QuietFor settings id)
    (hotherQuiet : ∀ label ∈ others, label.QuietFor settings otherId)
    (htask : process.tasks[id]? = some task) (hotherTask : other.tasks[otherId]? = some otherTask)
    (hscope : task.scope = otherTask.scope) (hinbox : task.world.inbox = otherTask.world.inbox)
    (hhead : task.world.verifyHead = otherTask.world.verifyHead)
    (hbody : task.world.verifyBody = otherTask.world.verifyBody) :
    process.seenOf id = other.seenOf otherId := by
  have hwire := ((Process.run_aloneFor settings decoders hquiet hrun).present task htask).wire
  have hotherWire :=
    ((Process.run_aloneFor settings decoders hotherQuiet hother).present otherTask hotherTask).wire
  have hdecision := decision_congr settings decoders otherTask.scope hinbox hhead hbody
  have hcookies : verifyCookies settings task.world = verifyCookies settings otherTask.world := by
    rw [verifyCookies, verifyCookies, hhead]
  rw [seenOf, seenOf, hwire, hotherWire, Task.ownWire, Task.ownWire, hscope, hdecision, hcookies,
    List.map_append, List.map_append, seen_stamp id otherId, seen_stamp id otherId]

/-! ### Two clients of the catalogue -/

def itemsScope : Scope := ⟨"GET", "/items", []⟩

def firstClient : List Label := [.arrive itemsScope]

/-- One client asks for the catalogue and is answered, then another asks for it. -/
def twoClients (head : ResponseHead) : List Label :=
  [.arrive itemsScope, .deliver 0 (.dataHead (.ok head)), .arrive itemsScope]

/-- The process after the labels, with the settings of `docker-compose.yml`. -/
def composeProcess (labels : List Label) : Process :=
  (Process.run composeSettings noDecoders labels).getD {}

def plainHead : ResponseHead := ⟨200, []⟩

def sessionHead : ResponseHead := ⟨200, [(Bytes.utf8 "Set-Cookie", Bytes.utf8 "sid=alice; Path=/")]⟩

theorem firstClient_run : Process.run composeSettings noDecoders firstClient =
    some (composeProcess firstClient) := rfl

theorem twoClients_run (head : ResponseHead) : Process.run composeSettings noDecoders (twoClients head) =
    some (composeProcess (twoClients head)) := rfl

theorem seenOf_eq_of_quiet_plain :
    (composeProcess (twoClients plainHead)).seenOf 1 = (composeProcess firstClient).seenOf 0 := by
  have hquiet : ∀ label ∈ twoClients plainHead, label.QuietFor composeSettings 1 := by
    intro label hlabel
    simp only [twoClients, List.mem_cons, List.not_mem_nil, or_false] at hlabel
    obtain rfl | rfl | rfl := hlabel
    · trivial
    · exact fun _ => rfl
    · trivial
  have hfirst : ∀ label ∈ firstClient, label.QuietFor composeSettings 0 := by
    intro label hlabel
    obtain rfl := List.mem_singleton.mp hlabel
    trivial
  exact seenOf_eq_of_quiet composeSettings noDecoders (twoClients_run plainHead) firstClient_run hquiet
    hfirst rfl rfl rfl rfl rfl rfl

/-- The second client's request carries the first client's session. -/
theorem session_cookie_leaks :
    ¬ ∀ (settings : Settings) (decoders : Decoders) (labels others : List Label) (process other : Process)
        (id otherId : Nat) (task otherTask : Task),
      Process.run settings decoders labels = some process →
      Process.run settings decoders others = some other →
      process.tasks[id]? = some task → other.tasks[otherId]? = some otherTask →
      task.scope = otherTask.scope → task.world.inbox = otherTask.world.inbox →
      task.world.verifyHead = otherTask.world.verifyHead →
      task.world.verifyBody = otherTask.world.verifyBody →
      process.seenOf id = other.seenOf otherId := by
  intro h
  have hseen := h composeSettings noDecoders _ _ _ _ 1 0 { scope := itemsScope } { scope := itemsScope }
    (twoClients_run sessionHead) firstClient_run rfl rfl rfl rfl rfl rfl
  have hlengths := congrArg (List.map fun call => call.2.headers.length) hseen
  exact absurd hlengths (by decide)

end ApigateBenchmark.GatewayPython
