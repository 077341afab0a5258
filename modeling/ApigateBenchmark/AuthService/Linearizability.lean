import ApigateBenchmark.AuthService.Users
import ApigateBenchmark.Library.Linearizability

/-!
# The user store is linearizable

Any number of calls on one store, their steps interleaved in any order, against a plain map from
emails to users on which each call runs in one go. A failed hashing takes effect where it fails, a
`Create` with a hash where it holds the lock, and an `Authenticate` at its lookup: what it compares
later, through a pointer it no longer has a lock for, is still what the map held then.
-/

namespace ApigateBenchmark.AuthService

open Linearizability

/-! ### The plain map -/

/-- What a caller sees of a result: the user the pointer leads to. -/
abbrev Result := Except StoreError User

abbrev PlainMap := GoString → Option User

def PlainMap.create (bcrypt : Bcrypt) (users : PlainMap) (email password : GoString) (draw : Draw) :
    Result × PlainMap :=
  match bcrypt.generateFromPassword draw.salt password with
  | none => (.error .hashFailed, users)
  | some hash =>
      match users email with
      | some _ => (.error .emailTaken, users)
      | none =>
          (.ok ⟨draw.id, email, hash⟩, Function.update users email (some ⟨draw.id, email, hash⟩))

def PlainMap.authenticate (bcrypt : Bcrypt) (users : PlainMap) (email password : GoString) : Result :=
  match users email with
  | none => .error .invalidCredentials
  | some user =>
      if bcrypt.compareHashAndPassword user.passwordHash password then .ok user
      else .error .invalidCredentials

def PlainMap.call (bcrypt : Bcrypt) (users : PlainMap) : Op → Result × PlainMap
  | .create email password draw => PlainMap.create bcrypt users email password draw
  | .authenticate email password => (PlainMap.authenticate bcrypt users email password, users)

def plainMap (bcrypt : Bcrypt) : Spec PlainMap Op Result where
  init := fun _ => none
  allows users op result users' := PlainMap.call bcrypt users op = (result, users')

/-! ### Concurrent calls on one store -/

inductive Activity where
  | running (op : Op) (state : CallState)
  | answered (op : Op) (result : Except StoreError Nat)

structure Clients where
  store : Store
  calls : List Activity
  history : List (Event Op Result)

inductive ClientLabel where
  | invoke (op : Op)
  | advance (call : Nat)
  | answer (call : Nat)

def Clients.start : Clients := ⟨newStore, [], []⟩

/-- A result as its caller reads it, through the pointer. -/
def Store.read (store : Store) : Except StoreError Nat → Option Result
  | .error err => some (.error err)
  | .ok ptr => (store.heap[ptr]?).map .ok

def Clients.step (bcrypt : Bcrypt) (s : Clients) : ClientLabel → Option Clients
  | .invoke op =>
      some { s with
        calls := s.calls ++ [.running op .called]
        history := s.history ++ [.invoke s.calls.length op] }
  | .advance call =>
      match s.calls[call]? with
      | some (.running op state) =>
          (op.step bcrypt s.store state).map fun (store, state') =>
            { s with store, calls := s.calls.set call (.running op state') }
      | _ => none
  | .answer call =>
      match s.calls[call]? with
      | some (.running op (.returned result)) =>
          (s.store.read result).map fun read =>
            { s with
              calls := s.calls.set call (.answered op result)
              history := s.history ++ [.answer call read] }
      | _ => none

/-- All that a step can do. -/
inductive Clients.Steps (bcrypt : Bcrypt) (s : Clients) : Clients → Prop where
  | invokes (op : Op) :
      Steps bcrypt s { s with
        calls := s.calls ++ [.running op .called]
        history := s.history ++ [.invoke s.calls.length op] }
  | advances {call : Nat} {op : Op} {state state' : CallState} {store : Store}
      (hcall : s.calls[call]? = some (.running op state))
      (hsteps : op.Steps bcrypt s.store state store state') :
      Steps bcrypt s { s with store, calls := s.calls.set call (.running op state') }
  | answers {call : Nat} {op : Op} {result : Except StoreError Nat} {read : Result}
      (hcall : s.calls[call]? = some (.running op (.returned result)))
      (hread : s.store.read result = some read) :
      Steps bcrypt s { s with
        calls := s.calls.set call (.answered op result)
        history := s.history ++ [.answer call read] }

theorem Clients.step_spec {bcrypt : Bcrypt} {s s' : Clients} {label : ClientLabel}
    (h : s.step bcrypt label = some s') : s.Steps bcrypt s' := by
  cases label with
  | invoke op =>
      obtain rfl := Option.some.inj h
      exact .invokes op
  | advance call =>
      simp only [Clients.step] at h
      split at h
      · rename_i op state hcall
        obtain ⟨⟨store, state'⟩, hop, rfl⟩ := Option.map_eq_some_iff.mp h
        exact .advances hcall (Op.step_spec hop)
      · cases h
  | answer call =>
      simp only [Clients.step] at h
      split at h
      · rename_i op result hcall
        obtain ⟨read, hread, rfl⟩ := Option.map_eq_some_iff.mp h
        exact .answers hcall hread
      · cases h

/-! ### The linearization points -/

def Activity.phase (bcrypt : Bcrypt) (store : Store) : Activity → Phase Op Result
  | .running op .called => .pending op
  | .running op (.hashed _) => .pending op
  | .running op (.found _) => .decided op (PlainMap.call bcrypt store.user op).1
  | .running op (.returned result) => (store.read result).elim (.pending op) (.decided op)
  | .answered op result => (store.read result).elim (.pending op) (.returned op)

def Clients.view (bcrypt : Bcrypt) (s : Clients) : View PlainMap Op Result where
  abs := s.store.user
  phase call := (s.calls[call]?).elim .idle (Activity.phase bcrypt s.store)
  history := s.history

/-- The call knows what its state says. -/
def Activity.Sound (bcrypt : Bcrypt) (store : Store) : Activity → Prop
  | .running op state => op.Knows bcrypt store state
  | .answered op result => op.Knows bcrypt store (.returned result)

def Clients.Sound (bcrypt : Bcrypt) (s : Clients) : Prop :=
  ∀ activity ∈ s.calls, activity.Sound bcrypt s.store

theorem Store.Extends.read {old new : Store} (h : old.Extends new) {result : Except StoreError Nat}
    {read : Result} (hread : old.read result = some read) : new.read result = some read := by
  cases result with
  | error err => exact hread
  | ok ptr =>
      obtain ⟨user, huser, hok⟩ := Option.map_eq_some_iff.mp hread
      rw [Store.read, h.heap ptr user huser, Option.map_some, hok]

/-- A call that returned has a result to read. -/
theorem Op.Knows.read {bcrypt : Bcrypt} {store : Store} {op : Op} {result : Except StoreError Nat}
    (h : op.Knows bcrypt store (.returned result)) : ∃ read, store.read result = some read := by
  cases result with
  | error err => exact ⟨_, rfl⟩
  | ok ptr =>
      obtain ⟨user, huser⟩ := h.heap
      exact ⟨.ok user, by rw [Store.read, huser]; rfl⟩

theorem PlainMap.authenticate_of_user {bcrypt : Bcrypt} {users : PlainMap} {email password : GoString}
    {user : User} (huser : users email = some user) :
    PlainMap.authenticate bcrypt users email password =
      if bcrypt.compareHashAndPassword user.passwordHash password then .ok user
      else .error .invalidCredentials := by
  simp only [PlainMap.authenticate, huser]

theorem Activity.Sound.extends {bcrypt : Bcrypt} {old new : Store} {activity : Activity}
    (h : activity.Sound bcrypt old) (hext : old.Extends new) : activity.Sound bcrypt new := by
  cases activity with
  | running op state => exact Op.Knows.extends h hext
  | answered op result => exact Op.Knows.extends h hext

/-- What others do to the store does not change the phase of a call: this is where a call that acts
on its pointer without the lock agrees with every later state. -/
theorem Activity.phase_extends {bcrypt : Bcrypt} {old new : Store} {activity : Activity}
    (hsound : activity.Sound bcrypt old) (hext : old.Extends new) :
    activity.phase bcrypt new = activity.phase bcrypt old := by
  cases activity with
  | running op state =>
      cases state with
      | called => rfl
      | hashed hash => rfl
      | found ptr =>
          cases op with
          | create email password draw => exact hsound.elim
          | authenticate email password =>
              obtain ⟨user, hold, -⟩ := Store.user_of_byEmail hsound
              simp only [Activity.phase, PlainMap.call]
              rw [PlainMap.authenticate_of_user hold, PlainMap.authenticate_of_user (hext.user hold)]
      | returned result =>
          obtain ⟨read, hread⟩ := Op.Knows.read hsound
          rw [Activity.phase, Activity.phase, hread, hext.read hread]
  | answered op result =>
      obtain ⟨read, hread⟩ := Op.Knows.read hsound
      rw [Activity.phase, Activity.phase, hread, hext.read hread]

/-- One call moved, and the store only grew: the phases of the others are what they were. -/
theorem Clients.view_set {bcrypt : Bcrypt} {s : Clients} (hsound : s.Sound bcrypt) {store : Store}
    (hext : s.store.Extends store) {call : Nat} {activity : Activity}
    (hcall : s.calls[call]? = some activity) (activity' : Activity) (history : List (Event Op Result)) :
    Clients.view bcrypt ⟨store, s.calls.set call activity', history⟩ =
      ⟨store.user, (s.view bcrypt).setPhase call (activity'.phase bcrypt store), history⟩ := by
  have hlt : call < s.calls.length := (List.getElem?_eq_some_iff.mp hcall).1
  rw [Clients.view, View.mk.injEq]
  refine ⟨rfl, ?_, rfl⟩
  funext other
  by_cases hother : other = call
  · subst hother
    rw [View.setPhase, Function.update_self]
    simp only [List.getElem?_set_self hlt, Option.elim_some]
  · rw [View.setPhase, Function.update_of_ne hother]
    simp only [Clients.view, List.getElem?_set_ne (Ne.symm hother)]
    cases hactivity : s.calls[other]? with
    | none => rfl
    | some activity => exact Activity.phase_extends (hsound _ (List.mem_of_getElem? hactivity)) hext

theorem Clients.sound_set {bcrypt : Bcrypt} {s : Clients} (hsound : s.Sound bcrypt) {store : Store}
    (hext : s.store.Extends store) (call : Nat) (activity : Activity)
    (hactivity : activity.Sound bcrypt store) (history : List (Event Op Result)) :
    Clients.Sound bcrypt ⟨store, s.calls.set call activity, history⟩ := by
  intro other hother
  obtain hmem | rfl := List.mem_or_eq_of_mem_set hother
  · exact (hsound other hmem).extends hext
  · exact hactivity

/-- One step of a call is at most its linearization point. -/
theorem Clients.advance_move {bcrypt : Bcrypt} {s : Clients} (hsound : s.Sound bcrypt) {call : Nat}
    {op : Op} {state state' : CallState} {store : Store}
    (hcall : s.calls[call]? = some (.running op state))
    (hsteps : op.Steps bcrypt s.store state store state') :
    Move (plainMap bcrypt) (s.view bcrypt)
      (Clients.view bcrypt ⟨store, s.calls.set call (.running op state'), s.history⟩) := by
  have hknows : op.Knows bcrypt s.store state := hsound _ (List.mem_of_getElem? hcall)
  have hphase : (s.view bcrypt).phase call = Activity.phase bcrypt s.store (.running op state) := by
    simp only [Clients.view, hcall, Option.elim_some]
  have hstay (hsame : Activity.phase bcrypt s.store (.running op state') =
      Activity.phase bcrypt s.store (.running op state)) :
      Move (plainMap bcrypt) (s.view bcrypt)
        ⟨s.store.user, (s.view bcrypt).setPhase call
          (Activity.phase bcrypt s.store (.running op state')), s.history⟩ := by
    rw [hsame, ← hphase, View.setPhase_self]
    exact .stay
  rw [Clients.view_set hsound hsteps.extends hcall]
  cases hsteps with
  | hashFails hhash =>
      refine .decide call _ _ _ hphase ?_
      simp only [plainMap, PlainMap.call, PlainMap.create, hhash, Clients.view]
  | hashes hhash => exact hstay rfl
  | taken hptr =>
      obtain ⟨user, huser, -⟩ := Store.user_of_byEmail hptr
      have hhash : bcrypt.generateFromPassword _ _ = some _ := hknows
      refine .decide call _ _ _ hphase ?_
      simp only [plainMap, PlainMap.call, PlainMap.create, hhash, Clients.view, huser]
  | @inserts email password draw hash hptr =>
      have huser : s.store.user email = none := (s.store.user_eq_none_iff email).mpr hptr
      have hhash : bcrypt.generateFromPassword draw.salt password = some hash := hknows
      have hread : (s.store.insert ⟨draw.id, email, hash⟩).read (.ok s.store.heap.length) =
          some (.ok ⟨draw.id, email, hash⟩) := by simp [Store.read]
      rw [Activity.phase, hread, Store.user_insert]
      refine .decide call _ _ _ hphase ?_
      simp only [plainMap, PlainMap.call, PlainMap.create, hhash, Clients.view, huser]
  | @unknown email password hptr =>
      have huser : s.store.user email = none := (s.store.user_eq_none_iff email).mpr hptr
      refine .decide call _ _ _ hphase ?_
      simp only [plainMap, PlainMap.call, PlainMap.authenticate, Clients.view, huser]
  | finds hptr => exact .decide call _ _ _ hphase rfl
  | @accepts email password ptr user huser haccept =>
      obtain ⟨user', hmap, huser'⟩ := Store.user_of_byEmail hknows
      obtain rfl : user = user' := Option.some.inj (huser.symm.trans huser')
      refine hstay ?_
      simp only [Activity.phase, Store.read, huser, PlainMap.call,
        PlainMap.authenticate_of_user hmap, haccept]
      rfl
  | @rejects email password ptr user huser hreject =>
      obtain ⟨user', hmap, huser'⟩ := Store.user_of_byEmail hknows
      obtain rfl : user = user' := Option.some.inj (huser.symm.trans huser')
      refine hstay ?_
      simp only [Activity.phase, Store.read, PlainMap.call, PlainMap.authenticate_of_user hmap, hreject]
      rfl

/-- A call invoked now is the only one whose phase changes. -/
theorem Clients.view_invoke (bcrypt : Bcrypt) (s : Clients) (op : Op) (history : List (Event Op Result)) :
    Clients.view bcrypt ⟨s.store, s.calls ++ [.running op .called], history⟩ =
      ⟨s.store.user, (s.view bcrypt).setPhase s.calls.length (.pending op), history⟩ := by
  rw [Clients.view, View.mk.injEq]
  refine ⟨rfl, ?_, rfl⟩
  funext other
  by_cases hother : other = s.calls.length
  · subst hother
    rw [View.setPhase, Function.update_self, List.getElem?_concat_length]
    rfl
  · rw [View.setPhase, Function.update_of_ne hother]
    simp only [Clients.view, Transition.getElem?_snoc_of_ne hother]

theorem Clients.Steps.sound {bcrypt : Bcrypt} {s s' : Clients} (h : s.Steps bcrypt s')
    (hsound : s.Sound bcrypt) : s'.Sound bcrypt := by
  cases h with
  | invokes op =>
      intro activity hactivity
      obtain hmem | rfl := (List.mem_append.mp hactivity).imp id List.mem_singleton.mp
      · exact hsound activity hmem
      · exact trivial
  | @advances call op state state' store hcall hsteps =>
      have hknows : op.Knows bcrypt s.store state := hsound _ (List.mem_of_getElem? hcall)
      exact Clients.sound_set hsound hsteps.extends call (.running op state') (hsteps.knows hknows) s.history
  | @answers call op result read hcall hread =>
      have hknows : op.Knows bcrypt s.store (.returned result) := hsound _ (List.mem_of_getElem? hcall)
      exact Clients.sound_set hsound (Store.Extends.refl s.store) call (.answered op result) hknows _

theorem Clients.Steps.move {bcrypt : Bcrypt} {s s' : Clients} (h : s.Steps bcrypt s')
    (hsound : s.Sound bcrypt) : Move (plainMap bcrypt) (s.view bcrypt) (s'.view bcrypt) := by
  cases h with
  | invokes op =>
      have hidle : (s.view bcrypt).phase s.calls.length = .idle := by simp [Clients.view]
      rw [Clients.view_invoke]
      exact .invoke _ op hidle
  | advances hcall hsteps => exact Clients.advance_move hsound hcall hsteps
  | @answers call op result read hcall hread =>
      have hdecided : (s.view bcrypt).phase call = .decided op read := by
        simp only [Clients.view, hcall, Option.elim_some, Activity.phase, hread]
      rw [Clients.view_set hsound (Store.Extends.refl s.store) hcall, Activity.phase, hread]
      exact .answer call op read hdecided

/-! ### What the plain map promises -/

/-- The call creates the user of an email. -/
def Creates (email : GoString) (op : Op) (result : Result) : Prop :=
  ∃ password draw user, op = .create email password draw ∧ result = .ok user

theorem PlainMap.create_spec {bcrypt : Bcrypt} {users users' : PlainMap} {email password : GoString}
    {draw : Draw} {result : Result}
    (h : PlainMap.create bcrypt users email password draw = (result, users')) :
    (∃ err, result = .error err ∧ users' = users) ∨
      ∃ user, users email = none ∧ result = .ok user ∧ users' = Function.update users email (some user) := by
  simp only [PlainMap.create] at h
  split at h
  · cases h
    exact .inl ⟨_, rfl, rfl⟩
  · split at h
    · cases h
      exact .inl ⟨_, rfl, rfl⟩
    · rename_i hnone
      cases h
      exact .inr ⟨_, hnone, rfl, rfl⟩

theorem PlainMap.create_keeps {bcrypt : Bcrypt} (email : GoString) (users : PlainMap) (op : Op)
    (result : Result) (users' : PlainMap) (h : (plainMap bcrypt).allows users op result users')
    (hpresent : users email ≠ none) : users' email ≠ none ∧ ¬ Creates email op result := by
  cases op with
  | create email' password draw =>
      obtain ⟨err, rfl, rfl⟩ | ⟨user, hnone, rfl, rfl⟩ := PlainMap.create_spec h
      · refine ⟨hpresent, fun hcreates => ?_⟩
        obtain ⟨_, _, _, -, hok⟩ := hcreates
        cases hok
      · have hne : email ≠ email' := fun heq => hpresent (heq ▸ hnone)
        refine ⟨by rwa [Function.update_of_ne hne], fun hcreates => ?_⟩
        obtain ⟨_, _, _, hop, -⟩ := hcreates
        exact hne (Op.create.inj hop).1.symm
  | authenticate email' password =>
      cases h
      refine ⟨hpresent, fun hcreates => ?_⟩
      obtain ⟨_, _, _, hop, -⟩ := hcreates
      cases hop

theorem PlainMap.create_sets {bcrypt : Bcrypt} (email : GoString) (users : PlainMap) (op : Op)
    (result : Result) (users' : PlainMap) (h : (plainMap bcrypt).allows users op result users')
    (hcreates : Creates email op result) : users' email ≠ none := by
  obtain ⟨password, draw, user, rfl, rfl⟩ := hcreates
  obtain ⟨err, hok, -⟩ | ⟨user, -, -, rfl⟩ := PlainMap.create_spec h
  · cases hok
  · rw [Function.update_self]
    exact Option.some_ne_none user

/-- A `Create` whose hashing succeeded finds the email taken, or inserts its own user. -/
theorem PlainMap.create_hashed {bcrypt : Bcrypt} (users : PlainMap) (op : Op) (result : Result)
    (users' : PlainMap) (h : (plainMap bcrypt).allows users op result users') (email password : GoString)
    (draw : Draw) (hash : Bytes) (hop : op = .create email password draw)
    (hhash : bcrypt.generateFromPassword draw.salt password = some hash) :
    result = .error .emailTaken ∨ result = .ok ⟨draw.id, email, hash⟩ := by
  subst hop
  simp only [plainMap, PlainMap.call, PlainMap.create, hhash] at h
  split at h <;> cases h
  · exact .inl rfl
  · exact .inr rfl

/-! ### Every run -/

/-- The call was made and answered. -/
def Clients.Answered (s : Clients) (call : Nat) (op : Op) (result : Result) : Prop :=
  .invoke call op ∈ s.history ∧ .answer call result ∈ s.history

theorem Clients.Steps.extends {bcrypt : Bcrypt} {s s' : Clients} (h : s.Steps bcrypt s') :
    s.store.Extends s'.store := by
  cases h with
  | invokes op => exact Store.Extends.refl s.store
  | advances hcall hsteps => exact hsteps.extends
  | answers hcall hread => exact Store.Extends.refl s.store

theorem Clients.run_extends {bcrypt : Bcrypt} {s s' : Clients} {labels : List ClientLabel}
    (hrun : Transition.run (Clients.step bcrypt) s labels = some s') : s.store.Extends s'.store := by
  refine Transition.run_invariant (Clients.step bcrypt) (I := fun t => s.store.Extends t.store)
    (fun t label t' ht hstep => ?_) (Store.Extends.refl s.store) hrun
  exact ht.trans (Clients.step_spec hstep).extends

/-- The histories of the store are those of the plain map. So one `Create` of an email at most returns
a user, the others that had a hash find the email taken, and what is stored stays. -/
theorem store_linearizable (bcrypt : Bcrypt) {labels : List ClientLabel} {s : Clients}
    (hrun : Transition.run (Clients.step bcrypt) Clients.start labels = some s) :
    Linearizable (plainMap bcrypt) s.history ∧
      (∀ call email password draw result hash, s.Answered call (.create email password draw) result →
        bcrypt.generateFromPassword draw.salt password = some hash →
          result = .error .emailTaken ∨
            result = .ok ⟨draw.id, email, hash⟩ ∧
              ∀ other password' draw' user, s.Answered other (.create email password' draw') (.ok user) →
                other = call) ∧
      ∀ later s', Transition.run (Clients.step bcrypt) s later = some s' →
        ∀ email user, s.store.user email = some user → s'.store.user email = some user := by
  have hlinear : Linearizable (plainMap bcrypt) s.history := by
    refine linearizable_of_moves (Clients.step bcrypt) (plainMap bcrypt) (Clients.view bcrypt)
      (I := Clients.Sound bcrypt) (fun t label t' ht hstep => ?_) ?_ ?_ hrun
    · have hsteps := Clients.step_spec hstep
      exact ⟨hsteps.sound ht, hsteps.move ht⟩
    · intro activity hactivity
      cases hactivity
    · rfl
  refine ⟨hlinear, ?_, fun later s' hlater email user => (Clients.run_extends hlater).user⟩
  intro call email password draw result hash hcall hhash
  obtain ⟨order, horder⟩ := hlinear
  obtain ⟨users, hlegal⟩ := horder.legal
  have hentry := horder.entry hcall.1 hcall.2
  obtain rfl | rfl := hlegal.result PlainMap.create_hashed hentry email password draw hash rfl hhash
  · exact .inl rfl
  · refine .inr ⟨rfl, fun other password' draw' user hother => ?_⟩
    have hsame := hlegal.at_most_one (PlainMap.create_keeps email) (PlainMap.create_sets email)
      (horder.entry hother.1 hother.2) hentry ⟨password', draw', user, rfl, rfl⟩
      ⟨password, draw, _, rfl, rfl⟩
    exact congrArg Entry.call hsame

/-- Two registrations of one email, the later one first at the lock, and a login. -/
def raceLabels : List ClientLabel :=
  [.invoke (.create (Bytes.utf8 "ann") (Bytes.utf8 "secret1") ⟨[1], [1]⟩),
    .invoke (.create (Bytes.utf8 "ann") (Bytes.utf8 "secret2") ⟨[2], [2]⟩), .advance 0, .advance 1,
    .advance 1, .advance 0, .invoke (.authenticate (Bytes.utf8 "ann") (Bytes.utf8 "secret2")),
    .answer 0, .advance 2, .advance 2, .answer 2]

def raceEnd : Clients :=
  (Transition.run (Clients.step keyBcrypt) Clients.start raceLabels).getD Clients.start

theorem store_linearizable_race :
    .answer 0 (.error .emailTaken) ∈ raceEnd.history ∧
      .answer 2 (.ok ⟨[2], Bytes.utf8 "ann", bcryptKey (Bytes.utf8 "secret2")⟩) ∈ raceEnd.history ∧
      Linearizable (plainMap keyBcrypt) raceEnd.history := by
  have hrun : Transition.run (Clients.step keyBcrypt) Clients.start raceLabels = some raceEnd := rfl
  exact ⟨by decide +kernel, by decide +kernel, (store_linearizable keyBcrypt hrun).1⟩

end ApigateBenchmark.AuthService
