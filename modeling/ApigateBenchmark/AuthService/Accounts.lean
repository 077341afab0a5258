import ApigateBenchmark.AuthService.VerifySoundness

/-!
# Who created an account, and who may use it

Every stored user was created by exactly one `Register` of the run, with a password its hash was made
from. `Login` compares with that hash, and all the comparison sees of a password is its key: so `Login`
admits more than the password that was registered. `Register` bounds the length of a password, and the
hashing bounds it again; `Login` bounds nothing.
-/

namespace ApigateBenchmark.AuthService

variable {jwt : Jwt} {bcrypt : Bcrypt} {issuer : Issuer}

/-- The credentials of a `Register` whose `Create` returned a user. -/
def Task.created (task : Task) : Option Credentials :=
  match task.request, task.progress with
  | .register body _, .inStore _ (.returned (.ok _)) => unmarshalCredentials body
  | .register body _, .responded response _ =>
      if response.status = 201 then unmarshalCredentials body else none
  | _, _ => none

def Service.createdBy (s : Service) (id : Nat) : Option Credentials := (s.tasks[id]?).bind Task.created

/-- What is stored, against who created it. -/
structure Accounts (bcrypt : Bcrypt) (store : Store) (createdBy : Nat → Option Credentials) : Prop where
  stored : ∀ id input, createdBy id = some input → ∃ user salt, store.user input.email = some user ∧
    bcrypt.generateFromPassword salt input.password = some user.passwordHash
  created : ∀ email user, store.user email = some user → ∃ id password,
    createdBy id = some ⟨email, password⟩
  once : ∀ id id' input input', createdBy id = some input → createdBy id' = some input' →
    input.email = input'.email → id = id'

theorem Accounts.start : Accounts bcrypt newStore fun _ => none where
  stored _ _ h := nomatch h
  created _ _ h := nomatch h
  once _ _ _ _ h := nomatch h

theorem Accounts.insert {store : Store} {createdBy : Nat → Option Credentials}
    (h : Accounts bcrypt store createdBy) {id : Nat} {input : Credentials} {user : User} {salt : Bytes}
    (hnone : createdBy id = none) (habsent : store.user input.email = none)
    (hemail : user.email = input.email)
    (hhash : bcrypt.generateFromPassword salt input.password = some user.passwordHash) :
    Accounts bcrypt (store.insert user) (Function.update createdBy id (some input)) := by
  have hbefore {other : Nat} {input' : Credentials} (hcreated : createdBy other = some input') :
      other ≠ id ∧ input'.email ≠ input.email := by
    refine ⟨fun heq => ?_, fun heq => ?_⟩
    · rw [heq, hnone] at hcreated
      cases hcreated
    · obtain ⟨user', salt', huser', -⟩ := h.stored other input' hcreated
      rw [heq, habsent] at huser'
      cases huser'
  rw [← hemail] at habsent hbefore
  refine ⟨fun other input' hother => ?_, fun email user' huser' => ?_,
    fun first second input₁ input₂ hfirst hsecond heq => ?_⟩
  · rw [Store.user_insert]
    by_cases hid : other = id
    · subst hid
      rw [Function.update_self, Option.some.injEq] at hother
      subst hother
      exact ⟨user, salt, by rw [hemail, Function.update_self], hhash⟩
    · rw [Function.update_of_ne hid] at hother
      rw [Function.update_of_ne (hbefore hother).2]
      exact h.stored other input' hother
  · rw [Store.user_insert] at huser'
    by_cases hname : email = user.email
    · exact ⟨id, input.password, by rw [Function.update_self, hname, hemail]⟩
    · rw [Function.update_of_ne hname] at huser'
      obtain ⟨other, password, hother⟩ := h.created email user' huser'
      exact ⟨other, password, by rw [Function.update_of_ne (hbefore hother).1]; exact hother⟩
  · by_cases hid : first = id
    · by_cases hid' : second = id
      · rw [hid, hid']
      · rw [hid, Function.update_self, Option.some.injEq] at hfirst
        rw [Function.update_of_ne hid'] at hsecond
        exact absurd (hemail ▸ hfirst ▸ heq.symm) (hbefore hsecond).2
    · rw [Function.update_of_ne hid] at hfirst
      by_cases hid' : second = id
      · rw [hid', Function.update_self, Option.some.injEq] at hsecond
        exact absurd (hemail ▸ hsecond ▸ heq) (hbefore hfirst).2
      · rw [Function.update_of_ne hid'] at hsecond
        exact h.once first second input₁ input₂ hfirst hsecond heq

/-! ### How accounts come about -/

theorem Task.created_arrived (request : Request) : Task.created ⟨request, .arrived⟩ = none := by
  cases request <;> rfl

theorem Request.enter_created (request : Request) (now : Time) :
    Task.created ⟨request, request.enter jwt issuer now⟩ = none := by
  cases request with
  | register body draw =>
      cases hinput : registerInput body with
      | error response =>
          have hstatus := registerInput_error hinput
          simp only [Request.enter, hinput, Task.created, hstatus]
          rfl
      | ok input =>
          simp only [Request.enter, hinput, Task.created]
  | login body => rfl
  | verify auth => rfl

theorem Request.leave_created {now : Time} {store : Store} {request : Request} {op : Op}
    {result : Except StoreError Nat} {response : Response} {signed : Option Claims}
    (h : request.leave jwt issuer now store result = some (response, signed)) :
    Task.created ⟨request, .responded response signed⟩ =
      Task.created ⟨request, .inStore op (.returned result)⟩ := by
  cases request with
  | register body draw =>
      obtain ⟨response', hresponse, heq⟩ := Option.map_eq_some_iff.mp h
      cases heq
      cases result with
      | error err =>
          cases err <;> cases hresponse <;> rfl
      | ok ptr =>
          obtain ⟨user, -, rfl⟩ := Option.map_eq_some_iff.mp hresponse
          rfl
  | login body => rfl
  | verify auth => rfl

/-- A step of a task creates an account where `Create` holds the lock, and nowhere else. -/
theorem Task.Steps.created {now : Time} {store store' : Store} {request : Request}
    {progress progress' : Progress}
    (h : Task.Steps jwt bcrypt issuer now store request progress store' progress')
    (hknows : Task.Knows jwt bcrypt issuer store request progress) :
    (store' = store ∧ Task.created ⟨request, progress'⟩ = Task.created ⟨request, progress⟩) ∨
      ∃ input user salt, Task.created ⟨request, progress⟩ = none ∧
        Task.created ⟨request, progress'⟩ = some input ∧ store.user input.email = none ∧
        store' = store.insert user ∧ user.email = input.email ∧
        bcrypt.generateFromPassword salt input.password = some user.passwordHash := by
  cases h with
  | enters => exact .inl ⟨rfl, (request.enter_created now).trans (Task.created_arrived request).symm⟩
  | leaves hleave => exact .inl ⟨rfl, Request.leave_created hleave⟩
  | @works op state state' store' hsteps =>
      obtain ⟨hasks, hop⟩ := hknows
      cases request with
      | verify auth => exact hasks.elim
      | login body =>
          cases hsteps with
          | inserts hptr => exact hasks.elim
          | _ => exact .inl ⟨rfl, rfl⟩
      | register body draw =>
          cases hsteps with
          | @inserts email password draw' hash hptr =>
              obtain ⟨hinput, rfl⟩ := hasks
              refine .inr ⟨⟨email, password⟩, ⟨draw'.id, email, hash⟩, draw'.salt, rfl,
                (registerInput_ok hinput).1, (store.user_eq_none_iff email).mpr hptr, rfl, rfl, hop⟩
          | accepts huser haccept => exact hasks.elim
          | _ => exact .inl ⟨rfl, rfl⟩

theorem Service.Steps.accounts {s s' : Service} {label : Label}
    (h : Service.Steps jwt bcrypt issuer s label s') (hsound : s.Sound jwt bcrypt issuer)
    (haccounts : Accounts bcrypt s.store s.createdBy) : Accounts bcrypt s'.store s'.createdBy := by
  cases h with
  | ticks now => exact haccounts
  | arrives request =>
      have hsame : Service.createdBy { s with tasks := s.tasks ++ [⟨request, .arrived⟩] } = s.createdBy := by
        funext id
        by_cases hid : id = s.tasks.length
        · subst hid
          simp only [Service.createdBy, List.getElem?_concat_length, Option.bind_some,
            List.getElem?_eq_none (Nat.le_refl _), Option.bind_none, Task.created_arrived]
        · simp only [Service.createdBy, Transition.getElem?_snoc_of_ne hid]
      rw [hsame]
      exact haccounts
  | @advances id request progress progress' store htask hsteps =>
      have hlt := (List.getElem?_eq_some_iff.mp htask).1
      have hbefore : s.createdBy id = Task.created ⟨request, progress⟩ := by
        rw [Service.createdBy, htask, Option.bind_some]
      have hafter : Service.createdBy { s with store, tasks := s.tasks.set id ⟨request, progress'⟩ } =
          Function.update s.createdBy id (Task.created ⟨request, progress'⟩) := by
        funext other
        by_cases hother : other = id
        · subst hother
          rw [Function.update_self, Service.createdBy, List.getElem?_set_self hlt, Option.bind_some]
        · rw [Function.update_of_ne hother, Service.createdBy, List.getElem?_set_ne (Ne.symm hother)]
          rfl
      rw [hafter]
      obtain ⟨rfl, hsame⟩ | ⟨input, user, salt, hnone, hsome, habsent, rfl, hemail, hhash⟩ :=
        hsteps.created (hsound _ (List.mem_of_getElem? htask))
      · rw [hsame, ← hbefore, Function.update_eq_self]
        exact haccounts
      · rw [hsome]
        exact haccounts.insert (hbefore.trans hnone) habsent hemail hhash

theorem Service.run_accounts {s : Service} {labels : List Label}
    (hrun : Transition.run (Service.step jwt bcrypt issuer) Service.start labels = some s) :
    Accounts bcrypt s.store s.createdBy := by
  have hstart : Service.start.Sound jwt bcrypt issuer := fun _ hmem => absurd hmem List.not_mem_nil
  have hinv : s.Sound jwt bcrypt issuer ∧ Accounts bcrypt s.store s.createdBy := by
    refine Transition.run_invariant (Service.step jwt bcrypt issuer)
      (I := fun t => t.Sound jwt bcrypt issuer ∧ Accounts bcrypt t.store t.createdBy)
      (fun t label t' ht hstep => ?_) ⟨hstart, Accounts.start⟩ hrun
    have hsteps := Service.step_spec hstep
    exact ⟨hsteps.sound ht.1, hsteps.accounts ht.1 ht.2⟩
  exact hinv.2

end ApigateBenchmark.AuthService
