import ApigateBenchmark.AuthService.Service

/-!
# What a 200 of `Verify` proves

A token that `Verify` accepts was signed for a `Login` of the same run. That `Login` got its user from
the store, and nothing is ever taken out of the store or written over there, so the user behind the
token is still the one that logged in.
-/

namespace ApigateBenchmark.AuthService

open GoTime

variable {jwt : Jwt} {bcrypt : Bcrypt} {issuer : Issuer}

def Task.signed (task : Task) : Option Claims :=
  match task.progress with
  | .responded _ signed => signed
  | _ => none

/-- The claims signed so far. -/
def Service.Signed (s : Service) (claims : Claims) : Prop := ∃ task ∈ s.tasks, task.signed = some claims

/-- The bearer tokens that `Verify` was asked about so far. -/
def Service.Presented (s : Service) (raw : GoString) : Prop :=
  ∃ task ∈ s.tasks, task.request = .verify (bearerPrefix ++ raw)

/-- Claims are signed for a `Login` with the credentials of a stored user, and the token is its answer. -/
theorem Task.Knows.signed {store : Store} {request : Request} {response : Response} {claims : Claims}
    (h : Task.Knows jwt bcrypt issuer store request (.responded response (some claims))) :
    ∃ body email password user token now, request = .login body ∧
      unmarshalCredentials body = some ⟨email, password⟩ ∧ store.user email = some user ∧
      bcrypt.compareHashAndPassword user.passwordHash password = true ∧
      claims = issuer.claims now user.id email ∧ jwt.signedString issuer.secret claims = some token ∧
      response = ⟨200, .login token "bearer" issuer.expiresIn⟩ := by
  obtain ⟨now, henter⟩ | ⟨now, op, result, hasks, hknows, hleave⟩ := h
  · obtain ⟨op, -, hop⟩ | ⟨response', hnone⟩ := request.enter_cases jwt issuer now
    · rw [hop] at henter
      cases henter
    · rw [hnone] at henter
      cases henter
  · cases request with
    | register body draw =>
        obtain ⟨response', -, heq⟩ := Option.map_eq_some_iff.mp hleave
        cases heq
    | verify auth => cases hleave
    | login body =>
        obtain ⟨ptr, user, token, rfl, huser, hclaims, htoken, hresponse⟩ := loginResult_signed hleave
        cases op with
        | create email password draw => exact hasks.elim
        | authenticate email password =>
            obtain ⟨user', hptr, huser', haccept⟩ := hknows
            obtain rfl : user = user' := Option.some.inj (huser.symm.trans huser')
            have hstored : store.user email = some user :=
              (store.user_eq_some_iff email user).mpr ⟨ptr, hptr, huser⟩
            rw [Store.user_email hstored] at hclaims
            exact ⟨body, email, password, user, token, now, rfl, loginInput_ok hasks, hstored, haccept,
              hclaims, htoken, hresponse⟩

/-- For every `Authorization` value: a 200 of `Verify` leads back to a `Login` of the run that was
answered with a token for the same user and email, to its accepted password and to the stored user, and
the token has not expired. -/
theorem verify_sound {labels : List Label} {s s' : Service}
    (hrun : Transition.run (Service.step jwt bcrypt issuer) Service.start labels = some s)
    (hmac : jwt.ParsesOnlySigned issuer.secret s.Presented s.Signed) (hexpired : jwt.RejectsExpired)
    {id : Nat} {auth : Bytes} {userID email : GoString}
    (hverify : s.tasks[id]? = some ⟨.verify auth, .arrived⟩)
    (hstep : s.step jwt bcrypt issuer (.advance id) = some s')
    (hanswer : s'.tasks[id]? =
      some ⟨.verify auth, .responded ⟨200, .verified userID email⟩ none⟩) :
    ∃ body password claims token user exp,
      ⟨.login body, .responded ⟨200, .login token "bearer" issuer.expiresIn⟩ (some claims)⟩ ∈ s.tasks ∧
      jwt.signedString issuer.secret claims = some token ∧ claims.subject = userID ∧
      claims.email = email ∧ unmarshalCredentials body = some ⟨email, password⟩ ∧
      s'.store.user email = some user ∧ user.id = userID ∧ user.email = email ∧
      bcrypt.compareHashAndPassword user.passwordHash password = true ∧
      claims.expiresAt = some exp ∧ s.now < exp := by
  have hextends := (Service.step_spec hstep).extends
  have hresponse : verify jwt issuer s.now auth = ⟨200, .verified userID email⟩ := by
    have hlt := (List.getElem?_eq_some_iff.mp hverify).1
    simp only [Service.step, hverify, Option.bind_some, Task.advance, Option.map_some, Request.enter,
      Option.some.injEq] at hstep
    rw [← hstep] at hanswer
    simpa only [List.getElem?_set_self hlt, Option.some.injEq, Task.mk.injEq, Progress.responded.injEq,
      true_and, and_true] using hanswer
  obtain ⟨raw, claims, rfl, hdecode, hverified⟩ := verify_status (congrArg Response.status hresponse)
  obtain ⟨rfl, rfl⟩ : claims.subject = userID ∧ claims.email = email := by
    rw [hresponse] at hverified
    cases hverified
    exact ⟨rfl, rfl⟩
  obtain ⟨parsed, hparse, rfl⟩ := Issuer.decode_ok hdecode
  have hpresented : s.Presented raw := ⟨_, List.mem_of_getElem? hverify, rfl⟩
  obtain ⟨⟨request, progress⟩, hmem, hsigned⟩ := hmac s.now _ parsed hpresented hparse
  have hknows := Service.run_sound hrun _ hmem
  cases progress with
  | arrived => cases hsigned
  | inStore op state => cases hsigned
  | responded response signed =>
      obtain rfl : signed = some parsed.claims := hsigned
      obtain ⟨body, email, password, user, token, now, rfl, hbody, hstored, haccept, hclaims, htoken,
        rfl⟩ := hknows.signed
      have hexp : parsed.claims.expiresAt = some (newNumericDate (now + issuer.ttl)) := by rw [hclaims]; rfl
      have hemail : parsed.claims.email = email := by rw [hclaims]; rfl
      have hsubject : parsed.claims.subject = user.id := by rw [hclaims]; rfl
      rw [hemail, hsubject]
      exact ⟨body, password, parsed.claims, token, user, _, hmem, htoken, hsubject, hemail, hbody,
        hextends.user hstored, rfl, Store.user_email hstored, haccept, hexp,
        hexpired issuer.secret s.now _ parsed _ hparse hexp⟩

/-! ### A visit -/

/-- A golang-jwt that signs and knows one token. -/
def oneTokenJwt (claims : Claims) : Jwt where
  signedString _ signed := some (if signed = claims then Bytes.utf8 "token" else Bytes.utf8 "other")
  parseWithClaims _ now raw :=
    if raw = Bytes.utf8 "token" then
      if claims.expiresAt.all (now < ·) then .ok ⟨claims, true⟩ else .error .tokenExpired
    else .error .other

theorem oneTokenJwt_ok {claims : Claims} {secret : Bytes} {now : Time} {raw : GoString} {parsed : Parsed}
    (h : (oneTokenJwt claims).parseWithClaims secret now raw = .ok parsed) :
    parsed = ⟨claims, true⟩ ∧ claims.expiresAt.all (now < ·) := by
  simp only [oneTokenJwt] at h
  split at h
  · split at h <;> cases h
    exact ⟨rfl, ‹_›⟩
  · cases h

theorem oneTokenJwt_rejectsExpired (claims : Claims) : (oneTokenJwt claims).RejectsExpired := by
  intro secret now raw parsed exp hparse hexp
  obtain ⟨rfl, hall⟩ := oneTokenJwt_ok hparse
  rw [hexp] at hall
  exact of_decide_eq_true hall

theorem eq_some_getD {α : Type} {o : Option α} (h : o.isSome = true) (default : α) :
    o = some (o.getD default) :=
  (Option.getD_of_ne_none (Option.isSome_iff_ne_none.mp h) default).symm

def visitIssuer : Issuer := ⟨Bytes.utf8 "dev-secret-change-me", 3600 * second⟩

def visitClaims : Claims := visitIssuer.claims (7 * second) [9] (Bytes.utf8 "ann")

def visitBody : Bytes := Bytes.utf8 "\x7b\"email\":\"ann\",\"password\":\"secret1\"\x7d"

/-- A client registers, logs in and has its token verified. -/
def visitLabels : List Label :=
  [.clock (7 * second), .arrive (.register visitBody ⟨[1], [9]⟩), .advance 0, .advance 0, .advance 0,
    .advance 0, .arrive (.login visitBody), .advance 1, .advance 1, .advance 1, .advance 1,
    .arrive (.verify (Bytes.utf8 "Bearer token"))]

def visitRun : Option Service :=
  Transition.run (Service.step (oneTokenJwt visitClaims) keyBcrypt visitIssuer) Service.start visitLabels

def visitEnd : Service := visitRun.getD Service.start

theorem visitRun_eq : visitRun = some visitEnd := eq_some_getD (by decide +kernel) Service.start

def visitVerified : Service :=
  (visitEnd.step (oneTokenJwt visitClaims) keyBcrypt visitIssuer (.advance 2)).getD visitEnd

theorem verify_sound_visit : ∃ body password user,
    unmarshalCredentials body = some ⟨Bytes.utf8 "ann", password⟩ ∧
      visitVerified.store.user (Bytes.utf8 "ann") = some user ∧ user.id = [9] ∧
      keyBcrypt.compareHashAndPassword user.passwordHash password = true := by
  have hmac : (oneTokenJwt visitClaims).ParsesOnlySigned visitIssuer.secret visitEnd.Presented
      visitEnd.Signed := by
    intro now raw parsed _ hparse
    obtain ⟨rfl, -⟩ := oneTokenJwt_ok hparse
    have hsigned : ∃ task ∈ visitEnd.tasks, task.signed = some visitClaims := by decide +kernel
    exact hsigned
  have hverify : visitEnd.tasks[2]? = some ⟨.verify (Bytes.utf8 "Bearer token"), .arrived⟩ := by
    decide +kernel
  have hstep : visitEnd.step (oneTokenJwt visitClaims) keyBcrypt visitIssuer (.advance 2) =
      some visitVerified := rfl
  have hanswer : visitVerified.tasks[2]? = some ⟨.verify (Bytes.utf8 "Bearer token"),
      .responded ⟨200, .verified [9] (Bytes.utf8 "ann")⟩ none⟩ := by decide +kernel
  obtain ⟨body, password, claims, token, user, exp, -, -, -, -, hbody, huser, hid, -, haccept, -, -⟩ :=
    verify_sound visitRun_eq hmac (oneTokenJwt_rejectsExpired visitClaims) hverify hstep hanswer
  exact ⟨body, password, user, hbody, huser, hid, haccept⟩

end ApigateBenchmark.AuthService
