import ApigateBenchmark.AuthService.Passwords

/-!
# Registering, and then logging in

A request that arrives is answered: from any reachable state its own steps lead there. What a
`Register` is answered with is settled by the hashing and by who held the lock first, and a `Login` with
the registered credentials is admitted in every later state, whatever other requests do meanwhile.
`Register` lets passwords through that are too long for the hashing.
-/

namespace ApigateBenchmark.AuthService

open Transition

variable {jwt : Jwt} {bcrypt : Bcrypt} {issuer : Issuer}

/-! ### Every request is answered -/

/-- The steps a task still has to take, at most. -/
def Progress.remaining : Progress → Nat
  | .arrived => 4
  | .inStore _ state => state.remaining + 1
  | .responded _ _ => 0

theorem Task.Knows.leave {store : Store} {request : Request} {op : Op} {result : Except StoreError Nat}
    (h : Task.Knows jwt bcrypt issuer store request (.inStore op (.returned result))) (now : Time) :
    ∃ answer, request.leave jwt issuer now store result = some answer := by
  obtain ⟨hasks, hknows⟩ := h
  cases result with
  | error err =>
      cases request with
      | register body draw => cases err <;> exact ⟨_, rfl⟩
      | login body => exact ⟨_, rfl⟩
      | verify auth => exact hasks.elim
  | ok ptr =>
      obtain ⟨user, huser⟩ := hknows.heap
      cases request with
      | register body draw =>
          exact ⟨_, by rw [Request.leave, registerResult, huser, Option.map_some, Option.map_some]⟩
      | login body => exact ⟨_, by rw [Request.leave, loginResult, huser, Option.map_some]⟩
      | verify auth => exact hasks.elim

theorem Task.Knows.advance {store : Store} {request : Request} {progress : Progress}
    (h : Task.Knows jwt bcrypt issuer store request progress) (now : Time)
    (hwaiting : 0 < progress.remaining) :
    ∃ store' progress', Task.advance jwt bcrypt issuer now store ⟨request, progress⟩ =
      some (store', progress') ∧ progress'.remaining < progress.remaining := by
  cases progress with
  | arrived =>
      refine ⟨store, request.enter jwt issuer now, rfl, ?_⟩
      obtain ⟨op, -, henter⟩ | ⟨response, henter⟩ := request.enter_cases jwt issuer now
      · rw [henter]
        exact Nat.lt_succ_self 3
      · rw [henter]
        exact Nat.zero_lt_succ 3
  | responded response signed => exact absurd hwaiting (Nat.lt_irrefl 0)
  | inStore op state =>
      by_cases hrunning : 0 < state.remaining
      · obtain ⟨store', state', hstep, hless⟩ := h.2.step hrunning
        refine ⟨store', .inStore op state', ?_, Nat.succ_lt_succ hless⟩
        cases state with
        | returned result => exact absurd hrunning (Nat.lt_irrefl 0)
        | called => simp only [Task.advance, hstep, Option.map_some]
        | hashed hash => simp only [Task.advance, hstep, Option.map_some]
        | found ptr => simp only [Task.advance, hstep, Option.map_some]
      · cases state with
        | returned result =>
            obtain ⟨answer, hanswer⟩ := h.leave now
            exact ⟨store, .responded answer.1 answer.2, by simp only [Task.advance, hanswer, Option.map_some],
              Nat.zero_lt_one⟩
        | called => exact absurd Nat.zero_lt_two hrunning
        | hashed hash => exact absurd Nat.zero_lt_one hrunning
        | found ptr => exact absurd Nat.zero_lt_one hrunning

/-- The steps of one task alone lead to its answer, and leave the other tasks as they are. -/
theorem Service.finish (n : Nat) {s : Service} (hsound : s.Sound jwt bcrypt issuer) {id : Nat}
    {request : Request} {progress : Progress} (htask : s.tasks[id]? = some ⟨request, progress⟩)
    (hn : progress.remaining ≤ n) :
    ∃ labels s' response signed, run (Service.step jwt bcrypt issuer) s labels = some s' ∧
      s'.tasks[id]? = some ⟨request, .responded response signed⟩ ∧
      ∀ other, other ≠ id → s'.tasks[other]? = s.tasks[other]? := by
  by_cases hwaiting : 0 < progress.remaining
  · cases n with
    | zero => omega
    | succ n =>
        have hknows : Task.Knows jwt bcrypt issuer s.store request progress :=
          hsound _ (List.mem_of_getElem? htask)
        obtain ⟨store, progress', hadvance, hless⟩ := hknows.advance s.now hwaiting
        have hstep : s.step jwt bcrypt issuer (.advance id) =
            some { s with store, tasks := s.tasks.set id ⟨request, progress'⟩ } := by
          simp only [Service.step, htask, Option.bind_some, hadvance, Option.map_some]
        have hnext := (Service.step_spec hstep).sound hsound
        have hset := List.getElem?_set_self (a := (⟨request, progress'⟩ : Task))
          (List.getElem?_eq_some_iff.mp htask).1
        obtain ⟨labels, s', response, signed, hrun, hanswer, hothers⟩ :=
          Service.finish n hnext hset (by omega)
        refine ⟨.advance id :: labels, s', response, signed, ?_, hanswer, fun other hother => ?_⟩
        · rw [run_cons, hstep]
          exact hrun
        · rw [hothers other hother]
          exact List.getElem?_set_ne (Ne.symm hother)
  · cases progress with
    | responded response signed => exact ⟨[], s, response, signed, rfl, htask, fun _ _ => rfl⟩
    | arrived => exact absurd (Nat.zero_lt_succ 3) hwaiting
    | inStore op state => exact absurd (Nat.zero_lt_succ _) hwaiting

/-- The request arrives in `s`, and in `s'`, after whatever else happened, it has its response. -/
def Service.Serves (jwt : Jwt) (bcrypt : Bcrypt) (issuer : Issuer) (s : Service) (request : Request)
    (s' : Service) (response : Response) : Prop :=
  ∃ labels signed, run (Service.step jwt bcrypt issuer) s (.arrive request :: labels) = some s' ∧
    s'.tasks[s.tasks.length]? = some ⟨request, .responded response signed⟩

theorem Service.Sound.serves {s : Service} (hsound : s.Sound jwt bcrypt issuer) (request : Request) :
    ∃ s' response, s.Serves jwt bcrypt issuer request s' response ∧
      ∀ other, other ≠ s.tasks.length → s'.createdBy other = s.createdBy other := by
  have hstep : s.step jwt bcrypt issuer (.arrive request) =
      some { s with tasks := s.tasks ++ [⟨request, .arrived⟩] } := rfl
  have hnext := (Service.step_spec hstep).sound hsound
  obtain ⟨labels, s', response, signed, hrun, hanswer, hothers⟩ :=
    Service.finish 4 hnext List.getElem?_concat_length (Nat.le_refl 4)
  refine ⟨s', response, ⟨labels, signed, ?_, hanswer⟩, fun other hother => ?_⟩
  · rw [run_cons, hstep]
    exact hrun
  · rw [Service.createdBy, hothers other hother, getElem?_snoc_of_ne hother]
    rfl

/-! ### What `Register` is answered -/

/-- The answer of `Register` to admitted credentials: the hash failed, the user is stored, or another
one is. -/
theorem Task.Knows.registered {store : Store} {body : Bytes} {draw : Draw} {response : Response}
    {signed : Option Claims} {email password : GoString}
    (h : Task.Knows jwt bcrypt issuer store (.register body draw) (.responded response signed))
    (hinput : registerInput body = .ok ⟨email, password⟩) :
    (bcrypt.generateFromPassword draw.salt password = none ∧ response = writeErr 500 "internal error") ∨
      (∃ hash, bcrypt.generateFromPassword draw.salt password = some hash) ∧
        (store.user email ≠ none ∧ response = writeErr 409 "email already registered" ∨
          (∃ user, store.user email = some user ∧ user.id = draw.id ∧
            bcrypt.generateFromPassword draw.salt password = some user.passwordHash) ∧
            response = ⟨201, .registered draw.id email⟩) := by
  obtain ⟨now, henter⟩ | ⟨now, op, result, hasks, hknows, hleave⟩ := h
  · rw [Request.enter, hinput] at henter
    cases henter
  · cases op with
    | authenticate email' password' => exact hasks.elim
    | create email' password' draw' =>
        obtain ⟨hasked, rfl⟩ := hasks
        rw [hinput] at hasked
        cases hasked
        obtain ⟨response', hresult, heq⟩ := Option.map_eq_some_iff.mp hleave
        cases heq
        cases result with
        | error err =>
            cases err with
            | hashFailed => exact .inl ⟨hknows, (Option.some.inj hresult).symm⟩
            | emailTaken =>
                obtain ⟨hhash, ptr, hptr⟩ := hknows
                obtain ⟨user, huser, -⟩ := Store.user_of_byEmail hptr
                exact .inr ⟨hhash, .inl ⟨by rw [huser]; exact Option.some_ne_none user,
                  (Option.some.inj hresult).symm⟩⟩
            | invalidCredentials => exact hknows.elim
        | ok ptr =>
            obtain ⟨hash, hhash, hptr, huser⟩ := hknows
            have hstored := (store.user_eq_some_iff email _).mpr ⟨ptr, hptr, huser⟩
            rw [registerResult, huser] at hresult
            exact .inr ⟨⟨hash, hhash⟩, .inr ⟨⟨_, hstored, rfl, hhash⟩, (Option.some.inj hresult).symm⟩⟩

/-- No other request created a user of the email. -/
def Service.Uncontested (s : Service) (id : Nat) (email : GoString) : Prop :=
  ∀ other password, s.createdBy other = some ⟨email, password⟩ → other = id

/-! ### What `Login` is answered -/

/-- The progress of a `Login` that goes well, for the user at `ptr`. -/
def Progress.GoesWell (issuer : Issuer) (op : Op) (ptr : Nat) : Progress → Prop
  | .arrived => True
  | .inStore op' state => op' = op ∧ (state = .called ∨ state = .found ptr ∨ state = .returned (.ok ptr))
  | .responded response _ => ∃ token, response = ⟨200, .login token "bearer" issuer.expiresIn⟩

theorem Task.Steps.goesWell (hsigns : jwt.Signs) {now : Time} {store store' : Store} {body : Bytes}
    {progress progress' : Progress} {email password : GoString} {ptr : Nat} {user : User}
    (h : Task.Steps jwt bcrypt issuer now store (.login body) progress store' progress')
    (hbody : unmarshalCredentials body = some ⟨email, password⟩)
    (hptr : store.byEmail email = some ptr) (huser : store.heap[ptr]? = some user)
    (haccept : bcrypt.compareHashAndPassword user.passwordHash password = true)
    (hwell : progress.GoesWell issuer (.authenticate email password) ptr) :
    progress'.GoesWell issuer (.authenticate email password) ptr := by
  cases h with
  | enters =>
      rw [Request.enter, loginInput, hbody]
      exact ⟨rfl, .inl rfl⟩
  | @works op state state' store' hsteps =>
      obtain ⟨rfl, hstate⟩ := hwell
      cases hsteps with
      | unknown hnone =>
          rw [hptr] at hnone
          cases hnone
      | finds hfound =>
          rw [hptr] at hfound
          cases hfound
          exact ⟨rfl, .inr (.inl rfl)⟩
      | accepts huser' haccept' =>
          obtain hstate | hstate | hstate := hstate <;> cases hstate
          exact ⟨rfl, .inr (.inr rfl)⟩
      | rejects huser' hreject =>
          obtain hstate | hstate | hstate := hstate <;> cases hstate
          rw [huser] at huser'
          cases huser'
          rw [haccept] at hreject
          cases hreject
  | @leaves op result response signed hleave =>
      obtain ⟨rfl, hstate⟩ := hwell
      obtain hstate | hstate | hstate := hstate <;> cases hstate
      obtain ⟨token, htoken⟩ := hsigns issuer.secret (issuer.claims now user.id user.email)
      rw [Request.leave, loginResult, huser, Option.map_some, Issuer.issue, htoken] at hleave
      cases hleave
      exact ⟨token, rfl⟩

/-- The `Login` at `id` goes well, for the user stored at `ptr`. -/
structure Service.GoesWell (issuer : Issuer) (id : Nat) (body : Bytes) (input : Credentials) (ptr : Nat)
    (user : User) (s : Service) : Prop where
  stored : s.store.byEmail input.email = some ptr
  heap : s.store.heap[ptr]? = some user
  task : ∃ progress, s.tasks[id]? = some ⟨.login body, progress⟩ ∧
    progress.GoesWell issuer (.authenticate input.email input.password) ptr

theorem Service.Steps.goesWell (hsigns : jwt.Signs) {s s' : Service} {label : Label} {id : Nat}
    {body : Bytes} {input : Credentials} {ptr : Nat} {user : User}
    (h : Service.Steps jwt bcrypt issuer s label s') (hbody : unmarshalCredentials body = some input)
    (haccept : bcrypt.compareHashAndPassword user.passwordHash input.password = true)
    (hwell : s.GoesWell issuer id body input ptr user) : s'.GoesWell issuer id body input ptr user := by
  obtain ⟨hptr, hheap, progress, htask, hprogress⟩ := hwell
  have hlt := (List.getElem?_eq_some_iff.mp htask).1
  refine ⟨h.extends.byEmail _ ptr hptr, h.extends.heap ptr user hheap, ?_⟩
  cases h with
  | arrives request => exact ⟨progress, by rw [List.getElem?_append_left hlt, htask], hprogress⟩
  | ticks now => exact ⟨progress, htask, hprogress⟩
  | @advances other request before after store hother hsteps =>
      by_cases hsame : other = id
      · subst hsame
        rw [htask] at hother
        cases hother
        exact ⟨after, List.getElem?_set_self hlt, hsteps.goesWell hsigns hbody hptr hheap haccept hprogress⟩
      · exact ⟨progress, by rw [List.getElem?_set_ne hsame, htask], hprogress⟩

/-- A `Login` that arrives when its user is stored and accepts its password is answered with a token. -/
theorem Service.Serves.login (hsigns : jwt.Signs) {s s' : Service} {body : Bytes} {response : Response}
    {input : Credentials} {user : User} (h : s.Serves jwt bcrypt issuer (.login body) s' response)
    (hbody : unmarshalCredentials body = some input) (huser : s.store.user input.email = some user)
    (haccept : bcrypt.compareHashAndPassword user.passwordHash input.password = true) :
    ∃ token, response = ⟨200, .login token "bearer" issuer.expiresIn⟩ := by
  obtain ⟨labels, signed, hrun, hanswer⟩ := h
  obtain ⟨t, harrive, hrest⟩ := run_cons_eq_some _ hrun
  obtain ⟨ptr, hptr, hheap⟩ := (s.store.user_eq_some_iff input.email user).mp huser
  have hstart : t.GoesWell issuer s.tasks.length body input ptr user := by
    obtain rfl := Option.some.inj harrive
    exact ⟨hptr, hheap, .arrived, List.getElem?_concat_length, trivial⟩
  have hend : s'.GoesWell issuer s.tasks.length body input ptr user :=
    run_invariant (Service.step jwt bcrypt issuer)
      (fun _ _ _ hwell hstep => (Service.step_spec hstep).goesWell hsigns hbody haccept hwell) hstart hrest
  obtain ⟨progress, htask, hprogress⟩ := hend.task
  rw [hanswer] at htask
  cases htask
  exact hprogress

/-! ### Admitted credentials -/

/-- What a client of `Register` is promised, from the state `s` on: it is answered, and unless another
request takes the email in between it is answered 201 with its user stored, and in every later state
`Login` with the same credentials is answered, with a token. -/
structure Service.Usable (jwt : Jwt) (bcrypt : Bcrypt) (issuer : Issuer) (s : Service) (body : Bytes)
    (draw : Draw) (input : Credentials) : Prop where
  answered : ∃ s' response, s.Serves jwt bcrypt issuer (.register body draw) s' response ∧
    s'.Uncontested s.tasks.length input.email
  registered : ∀ s' response, s.Serves jwt bcrypt issuer (.register body draw) s' response →
    s'.Uncontested s.tasks.length input.email →
      response = ⟨201, .registered draw.id input.email⟩ ∧
      (∃ user, s'.store.user input.email = some user ∧ user.id = draw.id) ∧
      ∀ s'' body', Reachable (Service.step jwt bcrypt issuer) s' s'' →
        unmarshalCredentials body' = some input →
          (∃ t response', s''.Serves jwt bcrypt issuer (.login body') t response') ∧
          ∀ t response', s''.Serves jwt bcrypt issuer (.login body') t response' →
            ∃ token, response' = ⟨200, .login token "bearer" issuer.expiresIn⟩

theorem registerInput_of_admitted {body : Bytes} {input : Credentials}
    (hbody : unmarshalCredentials body = some input) (hadmitted : input.admitted = true) :
    registerInput body = .ok input := by
  simp only [registerInput, hbody, if_pos hadmitted]

/-- The `Register` at `id` was answered, and knows how its answer came about. -/
theorem Service.Serves.registered {s s' : Service} {labels : List Label} {body : Bytes} {draw : Draw}
    {response : Response}
    (hrun : run (Service.step jwt bcrypt issuer) Service.start labels = some s)
    (h : s.Serves jwt bcrypt issuer (.register body draw) s' response) :
    ∃ later signed, run (Service.step jwt bcrypt issuer) Service.start later = some s' ∧
      s'.createdBy s.tasks.length = Task.created ⟨.register body draw, .responded response signed⟩ ∧
      Task.Knows jwt bcrypt issuer s'.store (.register body draw) (.responded response signed) := by
  obtain ⟨served, signed, hserved, hanswer⟩ := h
  have hwhole := run_trans _ hrun hserved
  refine ⟨_, signed, hwhole, ?_, Service.run_sound hwhole _ (List.mem_of_getElem? hanswer)⟩
  rw [Service.createdBy, hanswer, Option.bind_some]

/-- A `Register` for an email nobody has can be answered without another request taking the email. -/
theorem Service.serves_uncontested {s : Service} {labels : List Label} {email : GoString}
    (hrun : run (Service.step jwt bcrypt issuer) Service.start labels = some s)
    (habsent : s.store.user email = none) (request : Request) :
    ∃ s' response, s.Serves jwt bcrypt issuer request s' response ∧
      s'.Uncontested s.tasks.length email := by
  obtain ⟨s', response, hserves, hothers⟩ := (Service.run_sound hrun).serves request
  refine ⟨s', response, hserves, fun other password hother => ?_⟩
  by_contra hne
  rw [hothers other hne] at hother
  obtain ⟨user, salt, huser, -⟩ := (Service.run_accounts hrun).stored other _ hother
  rw [habsent] at huser
  cases huser

/-- A password that fits the hashing is registered, unless the email is contested. -/
theorem Service.Serves.created (hhashes : bcrypt.HashesShort) {s s' : Service} {labels : List Label}
    {body : Bytes} {draw : Draw} {input : Credentials} {response : Response}
    (hrun : run (Service.step jwt bcrypt issuer) Service.start labels = some s)
    (hserves : s.Serves jwt bcrypt issuer (.register body draw) s' response)
    (huncontested : s'.Uncontested s.tasks.length input.email) (hinput : registerInput body = .ok input)
    (hshort : input.password.length ≤ 72) :
    response = ⟨201, .registered draw.id input.email⟩ ∧
      ∃ user, s'.store.user input.email = some user ∧ user.id = draw.id ∧
        bcrypt.generateFromPassword draw.salt input.password = some user.passwordHash := by
  obtain ⟨later, signed, hlater, hcreated, hknows⟩ := hserves.registered hrun
  obtain ⟨hnone, -⟩ | ⟨-, ⟨htaken, rfl⟩ | ⟨hstored, rfl⟩⟩ := hknows.registered hinput
  · obtain ⟨hash, hhash⟩ := hhashes draw.salt input.password hshort
    rw [hnone] at hhash
    cases hhash
  · -- the email is taken, but by nobody else, and this request did not create its user
    obtain ⟨user, huser⟩ := Option.ne_none_iff_exists'.mp htaken
    obtain ⟨other, password, hother⟩ := (Service.run_accounts hlater).created input.email user huser
    rw [huncontested other password hother, hcreated] at hother
    cases hother
  · exact ⟨rfl, hstored⟩

/-- A password that does not fit the hashing is not. -/
theorem Service.Serves.refused (hrefuses : bcrypt.RefusesLong) {s s' : Service} {labels : List Label}
    {body : Bytes} {draw : Draw} {input : Credentials} {response : Response}
    (hrun : run (Service.step jwt bcrypt issuer) Service.start labels = some s)
    (hserves : s.Serves jwt bcrypt issuer (.register body draw) s' response)
    (hinput : registerInput body = .ok input) (hlong : 72 < input.password.length) :
    response = writeErr 500 "internal error" := by
  obtain ⟨later, signed, -, -, hknows⟩ := hserves.registered hrun
  obtain ⟨-, h500⟩ | ⟨⟨hash, hhash⟩, -⟩ := hknows.registered hinput
  · exact h500
  · rw [hrefuses draw.salt input.password hlong] at hhash
    cases hhash

/-- Of the credentials that pass the check of `Register`, those can be registered and used whose password
has at most 72 bytes. -/
theorem usable_iff (hrefuses : bcrypt.RefusesLong) (hhashes : bcrypt.HashesShort)
    (haccepts : bcrypt.AcceptsOwn) (hsigns : jwt.Signs) {labels : List Label} {s : Service}
    (hrun : run (Service.step jwt bcrypt issuer) Service.start labels = some s) {body : Bytes}
    (draw : Draw) {input : Credentials} (hbody : unmarshalCredentials body = some input)
    (hadmitted : input.admitted = true) (habsent : s.store.user input.email = none) :
    s.Usable jwt bcrypt issuer body draw input ↔ input.password.length ≤ 72 := by
  have hinput := registerInput_of_admitted hbody hadmitted
  constructor
  · intro husable
    obtain ⟨s', response, hserves, huncontested⟩ := husable.answered
    have h201 := (husable.registered s' response hserves huncontested).1
    apply Nat.le_of_not_lt
    intro hlong
    rw [hserves.refused hrefuses hrun hinput hlong] at h201
    cases h201
  · intro hshort
    refine ⟨Service.serves_uncontested hrun habsent _, fun s' response hserves huncontested => ?_⟩
    obtain ⟨later, signed, hlater, -, -⟩ := hserves.registered hrun
    obtain ⟨h201, user, huser, hid, hhash⟩ :=
      hserves.created hhashes hrun huncontested hinput hshort
    refine ⟨h201, ⟨user, huser, hid⟩, fun s'' body' hreachable hbody' => ?_⟩
    obtain ⟨more, hmore⟩ := hreachable
    have huser' := (Service.run_extends hmore).user huser
    have haccept := haccepts draw.salt input.password user.passwordHash hhash
    obtain ⟨t, response', hlogin, -⟩ := (Service.run_sound (run_trans _ hlater hmore)).serves (.login body')
    exact ⟨⟨t, response', hlogin⟩, fun t response' hlogin => hlogin.login hsigns hbody' huser' haccept⟩

theorem usable_iff_visit : Service.start.Usable (oneTokenJwt visitClaims) keyBcrypt visitIssuer visitBody
    ⟨[1], [9]⟩ ⟨Bytes.utf8 "ann", Bytes.utf8 "secret1"⟩ := by
  have hsigns : (oneTokenJwt visitClaims).Signs := fun _ _ => ⟨_, rfl⟩
  have hbody : unmarshalCredentials visitBody = some ⟨Bytes.utf8 "ann", Bytes.utf8 "secret1"⟩ := by
    decide +kernel
  have hstart : run (Service.step (oneTokenJwt visitClaims) keyBcrypt visitIssuer) Service.start [] =
      some Service.start := rfl
  exact (usable_iff keyBcrypt_refusesLong keyBcrypt_hashesShort keyBcrypt_acceptsOwn hsigns hstart ⟨[1], [9]⟩
    hbody (by decide) rfl).mpr (by decide)

/-! ### A password between the two bounds -/

def refusedRun : Option Service :=
  run (Service.step (oneTokenJwt visitClaims) keyBcrypt visitIssuer) Service.start
    [.arrive (.register (lettersBody 73) ⟨[1], [9]⟩), .advance 0, .advance 0, .advance 0]

def refusedEnd : Service := refusedRun.getD Service.start

theorem refusedRun_eq : refusedRun = some refusedEnd := eq_some_getD (by decide +kernel) Service.start

/-- 73 letters pass the check of `Register`, which then answers 500. -/
theorem admitted_not_usable :
    unmarshalCredentials (lettersBody 73) = some ⟨Bytes.utf8 "ann", letters 73⟩ ∧
      (Credentials.mk (Bytes.utf8 "ann") (letters 73)).admitted = true ∧
      refusedEnd.tasks = [⟨.register (lettersBody 73) ⟨[1], [9]⟩,
        .responded (writeErr 500 "internal error") none⟩] ∧
      ¬ Service.start.Usable (oneTokenJwt visitClaims) keyBcrypt visitIssuer (lettersBody 73) ⟨[1], [9]⟩
        ⟨Bytes.utf8 "ann", letters 73⟩ := by
  have htasks : refusedEnd.tasks = [⟨.register (lettersBody 73) ⟨[1], [9]⟩,
      .responded (writeErr 500 "internal error") none⟩] := by decide +kernel
  have hnone : refusedEnd.store.user (Bytes.utf8 "ann") = none := by decide +kernel
  refine ⟨by decide +kernel, by decide, htasks, fun husable => ?_⟩
  have hserves : Service.start.Serves (oneTokenJwt visitClaims) keyBcrypt visitIssuer
      (.register (lettersBody 73) ⟨[1], [9]⟩) refusedEnd (writeErr 500 "internal error") :=
    ⟨_, none, refusedRun_eq, by rw [htasks]; rfl⟩
  have huncontested : refusedEnd.Uncontested Service.start.tasks.length (Bytes.utf8 "ann") := by
    intro other password hother
    obtain ⟨user, salt, huser, -⟩ := (Service.run_accounts refusedRun_eq).stored other _ hother
    rw [hnone] at huser
    cases huser
  have h201 := (husable.registered refusedEnd _ hserves huncontested).1
  cases h201

end ApigateBenchmark.AuthService
