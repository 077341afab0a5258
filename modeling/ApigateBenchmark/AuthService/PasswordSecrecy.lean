import ApigateBenchmark.AuthService.VerifySoundness

/-!
# What the answers say about a password

Two runs of the service that differ in registered passwords alone, and in the salts of their hashes. As
long as no `Login` guesses the password of the one run and misses that of the other, every request is
answered alike in both: the stored hash leaves the process through the comparison only.
-/

namespace ApigateBenchmark.AuthService

open Transition

variable {bcrypt : Bcrypt} {guessed : Credentials → Prop}

/-! ### Related requests and related calls -/

/-- Credentials of one email, with passwords that no guess for the email tells apart and that the
hashing refuses alike. -/
structure Credentials.Alike (guessed : Credentials → Prop) (input input' : Credentials) : Prop where
  email : input.email = input'.email
  fits : input.password.length ≤ 72 ↔ input'.password.length ≤ 72
  guesses : ∀ guess, guessed ⟨input.email, guess⟩ →
    (bcryptKey input.password = bcryptKey guess ↔ bcryptKey input'.password = bcryptKey guess)

inductive Request.Alike (guessed : Credentials → Prop) : Request → Request → Prop where
  | register {body body' : Bytes} {draw draw' : Draw} {input input' : Credentials}
      (hinput : registerInput body = .ok input) (hinput' : registerInput body' = .ok input')
      (hid : draw.id = draw'.id) (halike : input.Alike guessed input') :
      Alike guessed (.register body draw) (.register body' draw')
  | refused {body body' : Bytes} {draw draw' : Draw} {response : Response}
      (hrefused : registerInput body = .error response)
      (hrefused' : registerInput body' = .error response) :
      Alike guessed (.register body draw) (.register body' draw')
  | login {body : Bytes} (hguessed : ∀ input, loginInput body = .ok input → guessed input) :
      Alike guessed (.login body) (.login body)
  | verify (auth : Bytes) : Alike guessed (.verify auth) (.verify auth)

/-- The two hashes answer every guess for the email alike. -/
def HashesAlike (bcrypt : Bcrypt) (guessed : Credentials → Prop) (email : GoString)
    (hash hash' : Bytes) : Prop :=
  ∀ guess, guessed ⟨email, guess⟩ →
    bcrypt.compareHashAndPassword hash guess = bcrypt.compareHashAndPassword hash' guess

/-- Two calls of the store at the same point. -/
inductive CallState.Alike (bcrypt : Bcrypt) (guessed : Credentials → Prop) :
    Op → CallState → Op → CallState → Prop where
  | creating {email password password' : GoString} {draw draw' : Draw} (hid : draw.id = draw'.id)
      (halike : Credentials.Alike guessed ⟨email, password⟩ ⟨email, password'⟩) :
      Alike bcrypt guessed (.create email password draw) .called (.create email password' draw') .called
  | hashed {email password password' : GoString} {draw draw' : Draw} {hash hash' : Bytes}
      (hid : draw.id = draw'.id) (hhashes : HashesAlike bcrypt guessed email hash hash') :
      Alike bcrypt guessed (.create email password draw) (.hashed hash)
        (.create email password' draw') (.hashed hash')
  | authenticating {email password : GoString} (hguessed : guessed ⟨email, password⟩)
      (state : CallState) :
      Alike bcrypt guessed (.authenticate email password) state (.authenticate email password) state
  | returned {op op' : Op} (result : Except StoreError Nat) :
      Alike bcrypt guessed op (.returned result) op' (.returned result)

inductive Progress.Alike (bcrypt : Bcrypt) (guessed : Credentials → Prop) :
    Progress → Progress → Prop where
  | arrived : Alike bcrypt guessed .arrived .arrived
  | inStore {op op' : Op} {state state' : CallState}
      (hcall : CallState.Alike bcrypt guessed op state op' state') :
      Alike bcrypt guessed (.inStore op state) (.inStore op' state')
  | responded (response : Response) (signed : Option Claims) :
      Alike bcrypt guessed (.responded response signed) (.responded response signed)

/-! ### Related states -/

/-- The users differ in their hashes alone. -/
structure User.Alike (bcrypt : Bcrypt) (guessed : Credentials → Prop) (user user' : User) : Prop where
  id : user.id = user'.id
  email : user.email = user'.email
  hashes : HashesAlike bcrypt guessed user.email user.passwordHash user'.passwordHash

structure Store.Alike (bcrypt : Bcrypt) (guessed : Credentials → Prop) (store store' : Store) :
    Prop where
  heap : List.Forall₂ (User.Alike bcrypt guessed) store.heap store'.heap
  byEmail : store.byEmail = store'.byEmail

structure Task.Alike (bcrypt : Bcrypt) (guessed : Credentials → Prop) (task task' : Task) : Prop where
  request : task.request.Alike guessed task'.request
  progress : task.progress.Alike bcrypt guessed task'.progress

structure Service.Alike (bcrypt : Bcrypt) (guessed : Credentials → Prop) (s s' : Service) : Prop where
  store : s.store.Alike bcrypt guessed s'.store
  now : s.now = s'.now
  tasks : List.Forall₂ (Task.Alike bcrypt guessed) s.tasks s'.tasks

inductive Label.Alike (guessed : Credentials → Prop) : Label → Label → Prop where
  | arrive {request request' : Request} (halike : request.Alike guessed request') :
      Alike guessed (.arrive request) (.arrive request')
  | advance (id : Nat) : Alike guessed (.advance id) (.advance id)
  | clock (now : Time) : Alike guessed (.clock now) (.clock now)

theorem Store.Alike.insert {store store' : Store} (h : store.Alike bcrypt guessed store')
    {user user' : User} (huser : user.Alike bcrypt guessed user') :
    (store.insert user).Alike bcrypt guessed (store'.insert user') where
  heap := List.rel_append h.heap (.cons huser .nil)
  byEmail := by
    rw [Store.insert_byEmail, Store.insert_byEmail, h.byEmail, h.heap.length_eq, huser.email]

/-! ### What a step keeps -/

/-- What hashing makes of passwords that no guess tells apart. -/
theorem Credentials.Alike.hash (hrefuses : bcrypt.RefusesLong) (hhashes : bcrypt.HashesShort)
    (hcompares : bcrypt.ComparesKeys) {email password password' : GoString}
    (h : Credentials.Alike guessed ⟨email, password⟩ ⟨email, password'⟩) (salt salt' : Bytes) :
    (bcrypt.generateFromPassword salt password = none ∧
        bcrypt.generateFromPassword salt' password' = none) ∨
      ∃ hash hash', bcrypt.generateFromPassword salt password = some hash ∧
        bcrypt.generateFromPassword salt' password' = some hash' ∧
        HashesAlike bcrypt guessed email hash hash' := by
  by_cases hfits : password.length ≤ 72
  · obtain ⟨hash, hhash⟩ := hhashes salt password hfits
    obtain ⟨hash', hhash'⟩ := hhashes salt' password' (h.fits.mp hfits)
    refine .inr ⟨hash, hash', hhash, hhash', fun guess hguess => Bool.eq_iff_iff.mpr ?_⟩
    rw [hcompares salt password hash hhash guess, hcompares salt' password' hash' hhash' guess]
    exact h.guesses guess hguess
  · have hlong : 72 < password'.length := Nat.lt_of_not_le fun hle => hfits (h.fits.mpr hle)
    exact .inl ⟨hrefuses salt password (Nat.lt_of_not_le hfits), hrefuses salt' password' hlong⟩

/-- A pointer leads to users of one ID and one email, or nowhere in both stores. -/
theorem Store.Alike.read {store store' : Store} (h : store.Alike bcrypt guessed store') (ptr : Nat) :
    (store.heap[ptr]? = none ∧ store'.heap[ptr]? = none) ∨
      ∃ user user' : User, store.heap[ptr]? = some user ∧ store'.heap[ptr]? = some user' ∧
        user.id = user'.id ∧ user.email = user'.email := by
  cases huser : store.heap[ptr]? with
  | none =>
      refine .inl ⟨rfl, List.getElem?_eq_none ?_⟩
      rw [← h.heap.length_eq]
      exact List.getElem?_eq_none_iff.mp huser
  | some user =>
      obtain ⟨user', huser', halike⟩ := forall₂_getElem? h.heap huser
      exact .inr ⟨user, user', rfl, huser', halike.id, halike.email⟩

/-- A pointer the map gave leads to users that answer a guess for the email alike. -/
theorem Store.Alike.found {store store' : Store} (h : store.Alike bcrypt guessed store')
    {email password : GoString} {ptr : Nat} {user : User} (hptr : store.byEmail email = some ptr)
    (hguessed : guessed ⟨email, password⟩) (huser : store.heap[ptr]? = some user) :
    ∃ user', store'.heap[ptr]? = some user' ∧
      bcrypt.compareHashAndPassword user.passwordHash password =
        bcrypt.compareHashAndPassword user'.passwordHash password := by
  obtain ⟨user', huser', halike⟩ := forall₂_getElem? h.heap huser
  obtain ⟨found, hfound, rfl⟩ := store.valid email ptr hptr
  rw [huser] at hfound
  cases hfound
  exact ⟨user', huser', halike.hashes password hguessed⟩

/-- A step of a call, taken in the one store, is taken by the related call in the other. -/
theorem CallState.Alike.step (hrefuses : bcrypt.RefusesLong) (hhashes : bcrypt.HashesShort)
    (hcompares : bcrypt.ComparesKeys) {store store' : Store} (hstore : store.Alike bcrypt guessed store')
    {op op' : Op} {state state' : CallState} (h : CallState.Alike bcrypt guessed op state op' state')
    (hknows : op.Knows bcrypt store state) {next : Store × CallState} (hstep : op.step bcrypt store state = some next) :
    ∃ next', op'.step bcrypt store' state' = some next' ∧ next.1.Alike bcrypt guessed next'.1 ∧
      CallState.Alike bcrypt guessed op next.2 op' next'.2 := by
  obtain ⟨after, state₁⟩ := next
  have hsteps := Op.step_spec hstep
  cases h with
  | @creating email password password' draw draw' hid halike =>
      obtain ⟨hnone, hnone'⟩ | ⟨hash, hash', hhash, hhash', hsame⟩ :=
        halike.hash hrefuses hhashes hcompares draw.salt draw'.salt
      · refine ⟨(store', .returned (.error .hashFailed)),
          by simp only [Op.step, Store.create, hnone'], ?_⟩
        cases hsteps with
        | hashFails => exact ⟨hstore, .returned _⟩
        | hashes hhash => rw [hnone] at hhash; cases hhash
      · refine ⟨(store', .hashed hash'), by simp only [Op.step, Store.create, hhash'], ?_⟩
        cases hsteps with
        | hashFails hnone => rw [hhash] at hnone; cases hnone
        | hashes hhash₁ =>
            rw [hhash] at hhash₁
            cases hhash₁
            exact ⟨hstore, .hashed hid hsame⟩
  | @hashed email password password' draw draw' hash hash' hid hsame =>
      cases hsteps with
      | @taken _ _ _ _ ptr hptr =>
          rw [hstore.byEmail] at hptr
          exact ⟨(store', .returned (.error .emailTaken)),
            by simp only [Op.step, Store.create, Store.insertLocked, hptr], hstore, .returned _⟩
      | inserts hptr =>
          rw [hstore.byEmail] at hptr
          refine ⟨(store'.insert ⟨draw'.id, email, hash'⟩, .returned (.ok store'.heap.length)),
            by simp only [Op.step, Store.create, Store.insertLocked, hptr],
            hstore.insert ⟨hid, rfl, hsame⟩, ?_⟩
          rw [hstore.heap.length_eq]
          exact .returned _
  | @authenticating email password hguessed state =>
      cases hsteps with
      | unknown hptr =>
          rw [hstore.byEmail] at hptr
          exact ⟨(store', .returned (.error .invalidCredentials)),
            by simp only [Op.step, Store.authenticate, hptr], hstore, .authenticating hguessed _⟩
      | @finds _ _ ptr hptr =>
          rw [hstore.byEmail] at hptr
          exact ⟨(store', .found ptr), by simp only [Op.step, Store.authenticate, hptr], hstore,
            .authenticating hguessed _⟩
      | @accepts _ _ ptr user huser haccept =>
          obtain ⟨user', huser', hsame⟩ := hstore.found hknows hguessed huser
          exact ⟨(store', .returned (.ok ptr)),
            by simp [Op.step, Store.authenticate, huser', ← hsame, haccept], hstore, .returned _⟩
      | @rejects _ _ ptr user huser hreject =>
          obtain ⟨user', huser', hsame⟩ := hstore.found hknows hguessed huser
          exact ⟨(store', .returned (.error .invalidCredentials)),
            by simp [Op.step, Store.authenticate, huser', ← hsame, hreject], hstore, .returned _⟩
  | returned result => cases hsteps

section

variable {jwt : Jwt} {issuer : Issuer}

/-- A handler answers alike from the store's result on. -/
theorem Request.Alike.leave {store store' : Store} (hstore : store.Alike bcrypt guessed store')
    {request request' : Request} (h : request.Alike guessed request') (now : Time)
    (result : Except StoreError Nat) :
    request'.leave jwt issuer now store' result = request.leave jwt issuer now store result := by
  cases result with
  | error err => cases h <;> cases err <;> rfl
  | ok ptr =>
      obtain ⟨hnone, hnone'⟩ | ⟨user, user', huser, huser', hid, hemail⟩ := hstore.read ptr
      · cases h <;> simp only [Request.leave, registerResult, loginResult, hnone, hnone', Option.map_none]
      · cases h <;> simp only [Request.leave, registerResult, loginResult, huser, huser', hid, hemail,
          Option.map_some]

theorem Request.Alike.enter {request request' : Request} (h : request.Alike guessed request')
    (now : Time) :
    (request.enter jwt issuer now).Alike bcrypt guessed (request'.enter jwt issuer now) := by
  cases h with
  | @register body body' draw draw' input input' hinput hinput' hid halike =>
      obtain ⟨email, password⟩ := input
      obtain ⟨email', password'⟩ := input'
      obtain rfl : email = email' := halike.email
      rw [Request.enter, Request.enter, hinput, hinput']
      exact .inStore (.creating hid halike)
  | refused hrefused hrefused' =>
      rw [Request.enter, Request.enter, hrefused, hrefused']
      exact .responded _ _
  | @login body hguessed =>
      cases hinput : loginInput body with
      | error response =>
          rw [Request.enter, hinput]
          exact .responded _ _
      | ok input =>
          rw [Request.enter, hinput]
          exact .inStore (.authenticating (hguessed input hinput) _)
  | verify auth => exact .responded _ _

/-- Related calls have both returned, with one result, or neither has. -/
theorem CallState.Alike.returned_or {op op' : Op} {state state' : CallState}
    (h : CallState.Alike bcrypt guessed op state op' state') :
    (∃ result, state = .returned result ∧ state' = .returned result) ∨
      (∀ result, state ≠ .returned result) ∧ ∀ result, state' ≠ .returned result := by
  cases h with
  | creating hid halike => exact .inr ⟨nofun, nofun⟩
  | hashed hid hhashes => exact .inr ⟨nofun, nofun⟩
  | returned result => exact .inl ⟨result, rfl, rfl⟩
  | authenticating hguessed state =>
      cases state with
      | returned result => exact .inl ⟨result, rfl, rfl⟩
      | _ => exact .inr ⟨nofun, nofun⟩

theorem Task.advance_running {now : Time} {store : Store} {request : Request} {op : Op}
    {state : CallState} (h : ∀ result, state ≠ .returned result) :
    Task.advance jwt bcrypt issuer now store ⟨request, .inStore op state⟩ =
      (op.step bcrypt store state).map fun next => (next.1, .inStore op next.2) := by
  cases state with
  | returned result => exact absurd rfl (h result)
  | _ => rfl

theorem Task.Alike.advance (hrefuses : bcrypt.RefusesLong) (hhashes : bcrypt.HashesShort)
    (hcompares : bcrypt.ComparesKeys) {store store' : Store} (hstore : store.Alike bcrypt guessed store')
    {task task' : Task} (h : task.Alike bcrypt guessed task')
    (hknows : Task.Knows jwt bcrypt issuer store task.request task.progress) (now : Time)
    {next : Store × Progress} (hadvance : task.advance jwt bcrypt issuer now store = some next) :
    ∃ next', task'.advance jwt bcrypt issuer now store' = some next' ∧
      next.1.Alike bcrypt guessed next'.1 ∧ next.2.Alike bcrypt guessed next'.2 := by
  obtain ⟨request, progress⟩ := task
  obtain ⟨request', progress'⟩ := task'
  obtain ⟨hrequest, hprogress⟩ := h
  cases hprogress with
  | arrived =>
      obtain rfl := Option.some.inj hadvance
      exact ⟨_, rfl, hstore, hrequest.enter now⟩
  | responded response signed => cases hadvance
  | @inStore op op' state state' hcall =>
      obtain ⟨result, rfl, rfl⟩ | ⟨hrunning, hrunning'⟩ := hcall.returned_or
      · obtain ⟨answer, hleave, rfl⟩ := Option.map_eq_some_iff.mp hadvance
        refine ⟨(store', .responded answer.1 answer.2), ?_, hstore, .responded _ _⟩
        simp only [Task.advance, hrequest.leave hstore, hleave, Option.map_some]
      · rw [Task.advance_running hrunning] at hadvance
        obtain ⟨call, hstep, rfl⟩ := Option.map_eq_some_iff.mp hadvance
        obtain ⟨call', hstep', hstores, hcalls⟩ :=
          hcall.step hrefuses hhashes hcompares hstore hknows.2 hstep
        refine ⟨(call'.1, .inStore op' call'.2), ?_, hstores, .inStore hcalls⟩
        rw [Task.advance_running hrunning', hstep', Option.map_some]

theorem Service.Alike.step (hrefuses : bcrypt.RefusesLong) (hhashes : bcrypt.HashesShort)
    (hcompares : bcrypt.ComparesKeys) {s s' t : Service} {label label' : Label}
    (h : s.Alike bcrypt guessed s') (hsound : s.Sound jwt bcrypt issuer)
    (hlabel : label.Alike guessed label') (hstep : s.step jwt bcrypt issuer label = some t) :
    ∃ t', s'.step jwt bcrypt issuer label' = some t' ∧ t.Alike bcrypt guessed t' := by
  cases hlabel with
  | @arrive request request' halike =>
      obtain rfl := Option.some.inj hstep
      exact ⟨_, rfl, h.store, h.now, List.rel_append h.tasks (.cons ⟨halike, .arrived⟩ .nil)⟩
  | clock now =>
      obtain rfl := Option.some.inj hstep
      exact ⟨_, rfl, h.store, rfl, h.tasks⟩
  | advance id =>
      obtain ⟨task, htask, hmap⟩ := Option.bind_eq_some_iff.mp hstep
      obtain ⟨next, hadvance, rfl⟩ := Option.map_eq_some_iff.mp hmap
      obtain ⟨task', htask', halike⟩ := forall₂_getElem? h.tasks htask
      obtain ⟨next', hadvance', hstores, hprogress⟩ := halike.advance hrefuses hhashes hcompares h.store
        (hsound task (List.mem_of_getElem? htask)) s.now hadvance
      have hnext : Task.Alike bcrypt guessed ⟨task.request, next.2⟩ ⟨task'.request, next'.2⟩ :=
        ⟨halike.request, hprogress⟩
      refine ⟨{ s' with store := next'.1, tasks := s'.tasks.set id ⟨task'.request, next'.2⟩ }, ?_,
        hstores, h.now, forall₂_set h.tasks hnext id⟩
      rw [Service.step, htask', Option.bind_some, ← h.now, hadvance', Option.map_some]

theorem Service.Alike.answer {s s' : Service} (h : s.Alike bcrypt guessed s') (id : Nat) :
    s'.answer id = s.answer id := by
  rw [Service.answer, Service.answer]
  cases htask : s.tasks[id]? with
  | none =>
      have hnone : s'.tasks[id]? = none := by
        rw [List.getElem?_eq_none_iff, ← h.tasks.length_eq]
        exact List.getElem?_eq_none_iff.mp htask
      rw [hnone]
  | some task =>
      obtain ⟨task', htask', -, hprogress⟩ := forall₂_getElem? h.tasks htask
      rw [htask', Option.bind_some, Option.bind_some]
      generalize task.progress = progress, task'.progress = progress' at hprogress
      cases hprogress <;> rfl

/-- In every interleaving, no answer depends on a registered password or on the salt of its hash: a run
whose labels differ in these alone goes as the first one went, and every request has the same answer and
the same signed claims in both, unless a `Login` guesses one password and not the other. -/
theorem answers_hide_passwords (hrefuses : bcrypt.RefusesLong) (hhashes : bcrypt.HashesShort)
    (hcompares : bcrypt.ComparesKeys) {labels labels' : List Label} {s : Service}
    (halike : List.Forall₂ (Label.Alike guessed) labels labels')
    (hrun : run (Service.step jwt bcrypt issuer) Service.start labels = some s) :
    ∃ s', run (Service.step jwt bcrypt issuer) Service.start labels' = some s' ∧
      s'.tasks.length = s.tasks.length ∧ ∀ id, s'.answer id = s.answer id := by
  have hstart : Service.start.Alike bcrypt guessed Service.start := ⟨⟨.nil, rfl⟩, rfl, .nil⟩
  have hsound : Service.start.Sound jwt bcrypt issuer := fun _ hmem => absurd hmem List.not_mem_nil
  obtain ⟨s', hrun', hend, -⟩ := run_lockstep (Service.step jwt bcrypt issuer)
    (S := fun s s' => s.Alike bcrypt guessed s' ∧ s.Sound jwt bcrypt issuer)
    (fun s s' label label' t hs hlabel hstep => by
      obtain ⟨t', hstep', ht⟩ := hs.1.step hrefuses hhashes hcompares hs.2 hlabel hstep
      exact ⟨t', hstep', ht, (Service.step_spec hstep).sound hs.2⟩)
    halike ⟨hstart, hsound⟩ hrun
  exact ⟨s', hrun', hend.tasks.length_eq.symm, hend.answer⟩

end

/-! ### A wrong guess -/

def guessBody (password : String) : Bytes :=
  Bytes.utf8 ("\x7b\"email\":\"ann\",\"password\":\"" ++ password ++ "\"\x7d")

/-- `ann` registers, and somebody tries `hunter2`. -/
def guessLabels (password : String) (salt : Bytes) : List Label :=
  [.arrive (.register (guessBody password) ⟨salt, [9]⟩), .advance 0, .advance 0, .advance 0, .advance 0,
    .arrive (.login (guessBody "hunter2")), .advance 1, .advance 1, .advance 1, .advance 1]

def guessRun : Option Service :=
  run (Service.step (oneTokenJwt visitClaims) keyBcrypt visitIssuer) Service.start
    (guessLabels "secret1" [1])

def guessEnd : Service := guessRun.getD Service.start

theorem guessRun_eq : guessRun = some guessEnd := eq_some_getD (by decide +kernel) Service.start

/-- The one guess of the run. -/
def Hunter2 (guess : Credentials) : Prop := guess.password = Bytes.utf8 "hunter2"

theorem answers_hide_passwords_guess : ∃ s',
    run (Service.step (oneTokenJwt visitClaims) keyBcrypt visitIssuer) Service.start
      (guessLabels "open sesame" [2]) = some s' ∧
    s'.tasks.length = guessEnd.tasks.length ∧ ∀ id, s'.answer id = guessEnd.answer id := by
  have hinput : registerInput (guessBody "secret1") = .ok ⟨Bytes.utf8 "ann", Bytes.utf8 "secret1"⟩ := by
    decide +kernel
  have hinput' : registerInput (guessBody "open sesame") =
      .ok ⟨Bytes.utf8 "ann", Bytes.utf8 "open sesame"⟩ := by decide +kernel
  have hlogin : loginInput (guessBody "hunter2") = .ok ⟨Bytes.utf8 "ann", Bytes.utf8 "hunter2"⟩ := by
    decide +kernel
  have halike : Credentials.Alike Hunter2 ⟨Bytes.utf8 "ann", Bytes.utf8 "secret1"⟩
      ⟨Bytes.utf8 "ann", Bytes.utf8 "open sesame"⟩ := by
    refine ⟨rfl, by decide +kernel, fun guess hguess => ?_⟩
    obtain rfl : guess = Bytes.utf8 "hunter2" := hguess
    decide +kernel
  have hguess : Request.Alike Hunter2 (.login (guessBody "hunter2")) (.login (guessBody "hunter2")) := by
    refine .login fun input h => ?_
    rw [hlogin] at h
    cases h
    rfl
  have hlabels : List.Forall₂ (Label.Alike Hunter2) (guessLabels "secret1" [1])
      (guessLabels "open sesame" [2]) :=
    .cons (.arrive (.register hinput hinput' rfl halike)) <| .cons (.advance 0) <|
      .cons (.advance 0) <| .cons (.advance 0) <| .cons (.advance 0) <| .cons (.arrive hguess) <|
      .cons (.advance 1) <| .cons (.advance 1) <| .cons (.advance 1) <| .cons (.advance 1) .nil
  exact answers_hide_passwords keyBcrypt_refusesLong keyBcrypt_hashesShort keyBcrypt_comparesKeys hlabels
    guessRun_eq

end ApigateBenchmark.AuthService
