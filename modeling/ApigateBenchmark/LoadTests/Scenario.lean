import ApigateBenchmark.AuthService.Documents
import ApigateBenchmark.AuthService.JsonTokens

/-!
# How a load test gets its token

`setup` of `k6/scenario.js`. It registers one fixed account, whatever comes of that, logs in with the same
credentials, and hands the token to every iteration. So it can be run again against a service that has the
account already, next to other clients and next to itself.

`res.json` finds the first member of that name. What JavaScript makes of a token that is no string is a
parameter; `none` is a falsy value.
-/

namespace ApigateBenchmark.LoadTests

open AuthService GoJson Json Transition

structure HttpResponse where
  status : Nat
  body : Bytes

inductive SetupResult where
  | failed (message : String)
  /-- The authorization header of every iteration, if it gets one. -/
  | ready (authorization : Option String)
  deriving DecidableEq

def setupEmail : String := "loadtest@example.com"

def setupPassword : String := "hunter22"

/-- `JSON.stringify` of the credentials. -/
def creds : Bytes :=
  Bytes.utf8 "\x7b\"email\":\"loadtest@example.com\",\"password\":\"hunter22\"\x7d"

/-- `res.json(name)`; `none` is `undefined`. -/
def jsonField (name : String) (body : Bytes) : Option Denoted :=
  match (parse body).bind Value.denoted with
  | some (.obj members) => (members.find? fun member => member.1 == name).map Prod.snd
  | _ => none

/-- The text of a value in a template, unless it is falsy. -/
def tokenText (otherText : Denoted → Option String) : Denoted → Option String
  | .str text => if text = "" then none else some text
  | value => otherText value

/-- `setup`, from the answer to the second post on. -/
def setup (otherText : Denoted → Option String) (targetMode route : String) (res : HttpResponse) :
    SetupResult :=
  if targetMode ≠ "gateway" ∨ route ≠ "my-items" then .ready none
  else if res.status ≠ 200 then
    .failed ("login failed: " ++ toString res.status ++ " " ++ goText res.body)
  else
    match (jsonField "access_token" res.body).bind (tokenText otherText) with
    | none => .failed ("no access_token in response: " ++ goText res.body)
    | some token => .ready (some ("Bearer " ++ token))

variable {otherText : Denoted → Option String}

/-! ### What `setup` makes of an answer of `Login` -/

def setupOf (otherText : Denoted → Option String) (response : Response) : SetupResult :=
  setup otherText "gateway" "my-items" ⟨response.status, response.payload.marshal⟩

theorem jsonField_login (token : GoString) (kind : String) (expiresIn : Int) :
    jsonField "access_token" (Payload.login token kind expiresIn).marshal = some (.str (goText token)) := by
  rw [jsonField, (Payload.marshal_denotes _).parse_eq]
  rfl

/-- A token that is printable comes out of the answer as it was signed. -/
theorem setupOf_login {token : GoString} (hvisible : Bytes.IsVisible token) (kind : String)
    (expiresIn : Int) : setupOf otherText ⟨200, .login token kind expiresIn⟩ =
      .ready (some ("Bearer " ++ Bytes.latin1 token)) := by
  have htext : goText token = Bytes.latin1 token := by
    have hsame := goText_utf8 (Bytes.latin1 token)
    rwa [hvisible.utf8_latin1] at hsame
  have hne : Bytes.latin1 token ≠ "" := by
    intro hempty
    have hnil := congrArg Bytes.utf8 hempty
    rw [hvisible.utf8_latin1] at hnil
    exact hvisible.ne_nil hnil
  rw [setupOf, setup, if_neg (by decide), if_neg (fun h => h rfl), jsonField_login, Option.bind_some, htext,
    tokenText, if_neg hne]

/-- Any answer but a 200 fails the test before it begins. -/
theorem setupOf_ready {response : Response} {authorization : Option String}
    (h : setupOf otherText response = .ready authorization) : response.status = 200 := by
  by_contra hstatus
  rw [setupOf, setup, if_neg (by decide), if_pos hstatus] at h
  cases h

/-! ### The account -/

theorem creds_credentials :
    unmarshalCredentials creds = some ⟨Bytes.utf8 setupEmail, Bytes.utf8 setupPassword⟩ := by decide +kernel

theorem creds_registerInput :
    registerInput creds = .ok ⟨Bytes.utf8 setupEmail, Bytes.utf8 setupPassword⟩ :=
  registerInput_of_admitted creds_credentials (by decide +kernel)

section

variable {jwt : Jwt} {bcrypt : Bcrypt} {issuer : Issuer}

/-- Once the first post is answered the account is there, whoever has registered it. -/
theorem account_of_register (hhashes : bcrypt.HashesShort) {labels : List Label} {s s₁ : Service}
    (hrun : run (Service.step jwt bcrypt issuer) Service.start labels = some s) {draw : Draw}
    {response : Response} (hregister : s.Serves jwt bcrypt issuer (.register creds draw) s₁ response) :
    ∃ user, s₁.store.user (Bytes.utf8 setupEmail) = some user := by
  obtain ⟨later, signed, -, -, hknows⟩ := hregister.registered hrun
  obtain ⟨hnone, -⟩ | ⟨-, ⟨htaken, -⟩ | ⟨⟨user, huser, -, -⟩, -⟩⟩ := hknows.registered creds_registerInput
  · obtain ⟨hash, hhash⟩ := hhashes draw.salt (Bytes.utf8 setupPassword) (by decide +kernel)
    rw [hnone] at hhash
    cases hhash
  · exact Option.ne_none_iff_exists'.mp htaken
  · exact ⟨user, huser⟩

/-- The claims the `Login` signed, and the token it answered with. -/
structure LoggedIn (jwt : Jwt) (issuer : Issuer) (s : Service) (login : Nat) (response : Response)
    (user : User) (claims : Claims) (token : GoString) : Prop where
  stored : s.store.user (Bytes.utf8 setupEmail) = some user
  signed : s.tasks[login]? = some ⟨.login creds, .responded response (some claims)⟩
  issued : ∃ now, claims = issuer.claims now user.id (Bytes.utf8 setupEmail)
  signs : jwt.signedString issuer.secret claims = some token
  answer : response = ⟨200, .login token "bearer" issuer.expiresIn⟩

/-- What a 200 of the second post says. -/
theorem login_of_status {labels : List Label} {s s' : Service}
    (hrun : run (Service.step jwt bcrypt issuer) Service.start labels = some s) {response : Response}
    (hlogin : s.Serves jwt bcrypt issuer (.login creds) s' response) (hstatus : response.status = 200) :
    ∃ user claims token, LoggedIn jwt issuer s' s.tasks.length response user claims token ∧
      bcrypt.compareHashAndPassword user.passwordHash (Bytes.utf8 setupPassword) = true := by
  obtain ⟨more, signed, hserved, hanswer⟩ := hlogin
  have hknows := Service.run_sound (run_trans _ hrun hserved) _ (List.mem_of_getElem? hanswer)
  obtain ⟨claims, rfl⟩ := Task.Knows.login_ok hknows hstatus
  obtain ⟨body, email, password, user, token, now, hrequest, hbody, huser, haccept, hclaims, htoken,
    hresponse⟩ := Task.Knows.signed hknows
  cases hrequest
  rw [creds_credentials] at hbody
  cases hbody
  exact ⟨user, claims, token, ⟨huser, hanswer, ⟨now, hclaims⟩, htoken, hresponse⟩, haccept⟩

/-- The header holds the token of the `Login`, and `Verify` takes it for the account exactly until the
token's `exp` comes. -/
structure Authorizes (jwt : Jwt) (issuer : Issuer) (authorization : String) (user : User) (claims : Claims)
    (token : GoString) : Prop where
  bearer : authorization = "Bearer " ++ Bytes.latin1 token
  verifies : ∃ exp, claims.expiresAt = some exp ∧ ∀ now,
    verify jwt issuer now (Bytes.utf8 authorization) =
      ⟨200, .verified user.id (Bytes.utf8 setupEmail)⟩ ↔ now < exp

/-- `setup`, run against any state of auth-service while other clients go on, hands out a header exactly
if the account is registered with a password that bcrypt cannot tell from its own; the header holds the
token that its `Login` was answered with, and `Verify` takes it for that account until the token expires. -/
theorem setup_ready_iff (hhashes : bcrypt.HashesShort) (hcompares : bcrypt.ComparesKeys)
    (hsigns : jwt.Signs) (hcompact : jwt.Compact) (hround : jwt.RoundTrips) {labels : List Label}
    {s s₁ s₂ s₃ : Service} (hrun : run (Service.step jwt bcrypt issuer) Service.start labels = some s)
    {draw : Draw} {first second : Response}
    (hregister : s.Serves jwt bcrypt issuer (.register creds draw) s₁ first)
    (hlater : Reachable (Service.step jwt bcrypt issuer) s₁ s₂)
    (hlogin : s₂.Serves jwt bcrypt issuer (.login creds) s₃ second) (hdraws : s₃.DrawsProper) :
    ∃ id registered, s₁.createdBy id = some ⟨Bytes.utf8 setupEmail, registered⟩ ∧
      ((∃ authorization, setupOf otherText second = .ready (some authorization)) ↔
        bcryptKey registered = bcryptKey (Bytes.utf8 setupPassword)) ∧
      ∀ authorization, setupOf otherText second = .ready (some authorization) →
        ∃ user claims token, LoggedIn jwt issuer s₃ s₂.tasks.length second user claims token ∧
          Authorizes jwt issuer authorization user claims token := by
  obtain ⟨later, signed, hrun₁, -, -⟩ := hregister.registered hrun
  obtain ⟨more, hmore⟩ := hlater
  have hrun₂ := run_trans _ hrun₁ hmore
  obtain ⟨user, huser⟩ := account_of_register hhashes hrun hregister
  have haccounts := Service.run_accounts hrun₁
  obtain ⟨id, registered, hcreated⟩ := haccounts.created _ user huser
  obtain ⟨stored, salt, hstored, hhash⟩ := haccounts.stored id _ hcreated
  obtain rfl : user = stored := Option.some.inj (huser.symm.trans hstored)
  have hkey := hcompares salt registered user.passwordHash hhash (Bytes.utf8 setupPassword)
  have huser₂ := (Service.run_extends hmore).user huser
  have huser₃ : s₃.store.user (Bytes.utf8 setupEmail) = some user := by
    obtain ⟨served, -, hserved, -⟩ := hlogin
    exact (Service.run_extends hserved).user huser₂
  refine ⟨id, registered, hcreated, ⟨fun hready => ?_, fun hsame => ?_⟩, fun authorization hready => ?_⟩
  · obtain ⟨authorization, hready⟩ := hready
    obtain ⟨found, claims, token, hissued, haccept⟩ :=
      login_of_status hrun₂ hlogin (setupOf_ready hready)
    obtain rfl : user = found := Option.some.inj (huser₃.symm.trans hissued.stored)
    exact hkey.mp haccept
  · obtain ⟨token, rfl⟩ := hlogin.login hsigns creds_credentials huser₂ (hkey.mpr hsame)
    obtain ⟨found, claims, token', hissued, -⟩ := login_of_status hrun₂ hlogin rfl
    cases hissued.answer
    exact ⟨_, setupOf_login (hcompact _ _ _ hissued.signs) _ _⟩
  · obtain ⟨found, claims, token, hissued, -⟩ :=
      login_of_status hrun₂ hlogin (setupOf_ready hready)
    refine ⟨found, claims, token, hissued, ?_⟩
    have hvisible := hcompact _ _ _ hissued.signs
    rw [hissued.answer, setupOf_login hvisible] at hready
    cases hready
    obtain ⟨end₃, hrun₃⟩ : ∃ labels, run (Service.step jwt bcrypt issuer) Service.start labels = some s₃ := by
      obtain ⟨served, -, hserved, -⟩ := hlogin
      exact ⟨_, run_trans _ hrun₂ hserved⟩
    have henrolled := Service.run_enrolled hrun₃ hissued.stored
    obtain ⟨now, rfl⟩ := hissued.issued
    have hemail := henrolled.email
    have htoken := hissued.signs
    rw [← Store.user_email hissued.stored] at hemail htoken
    have hbytes : Bytes.utf8 ("Bearer " ++ Bytes.latin1 token) = bearerPrefix ++ token := by
      rw [Bytes.utf8_append, hvisible.utf8_latin1]
      rfl
    refine ⟨rfl, _, rfl, fun now => ?_⟩
    rw [hbytes, ← Store.user_email hissued.stored]
    exact verify_issued_iff hround (henrolled.id hdraws) hemail htoken now

end

/-! ### The second of two load tests -/

def againStep : Service → AuthService.Label → Option Service := Service.step jsonJwt keyBcrypt visitIssuer

/-- `setup` of the first test. -/
def firstLabels : List AuthService.Label :=
  [.arrive (.register creds ⟨[1], [7]⟩), .advance 0, .advance 0, .advance 0, .advance 0,
    .arrive (.login creds), .advance 1, .advance 1, .advance 1, .advance 1]

def firstEnd : Service := (run againStep Service.start firstLabels).getD Service.start

/-- The account is taken by now. -/
def againLabels : List AuthService.Label :=
  [.arrive (.register creds ⟨[2], [8]⟩), .advance 2, .advance 2, .advance 2, .advance 2]

def againEnd : Service := (run againStep firstEnd againLabels).getD Service.start

def againLoginLabels : List AuthService.Label :=
  [.arrive (.login creds), .advance 3, .advance 3, .advance 3, .advance 3]

def againLogin : Service := (run againStep againEnd againLoginLabels).getD Service.start

def againToken : GoString := lettered (visitIssuer.claims 0 [7] (Bytes.utf8 setupEmail)).marshal

theorem again_served : (run againStep Service.start firstLabels).isSome ∧
    (run againStep firstEnd againLabels).isSome ∧ (run againStep againEnd againLoginLabels).isSome ∧
    firstEnd.tasks.length = 2 ∧ againEnd.tasks.length = 3 ∧
    againEnd.tasks[2]? = some ⟨.register creds ⟨[2], [8]⟩,
      .responded (writeErr 409 "email already registered") none⟩ ∧
    againLogin.tasks[3]? = some ⟨.login creds, .responded ⟨200, .login againToken "bearer" 3600⟩
      (some (visitIssuer.claims 0 [7] (Bytes.utf8 setupEmail)))⟩ ∧
    againLogin.requests = [.register creds ⟨[1], [7]⟩, .login creds, .register creds ⟨[2], [8]⟩,
      .login creds] := by
  decide +kernel

theorem setup_ready_iff_again : ∃ id registered,
    againEnd.createdBy id = some ⟨Bytes.utf8 setupEmail, registered⟩ ∧
    ((∃ authorization, setupOf (fun _ => none) ⟨200, .login againToken "bearer" 3600⟩ =
        .ready (some authorization)) ↔ bcryptKey registered = bcryptKey (Bytes.utf8 setupPassword)) ∧
    ∀ authorization, setupOf (fun _ => none) ⟨200, .login againToken "bearer" 3600⟩ =
        .ready (some authorization) →
      ∃ user claims token, LoggedIn jsonJwt visitIssuer againLogin againEnd.tasks.length
          ⟨200, .login againToken "bearer" 3600⟩ user claims token ∧
        Authorizes jsonJwt visitIssuer authorization user claims token := by
  obtain ⟨hfirstRun, hagainRun, hloginRun, hfirst, hagain, htaken, hanswered, hrequests⟩ := again_served
  have hregister : firstEnd.Serves jsonJwt keyBcrypt visitIssuer (.register creds ⟨[2], [8]⟩) againEnd
      (writeErr 409 "email already registered") :=
    ⟨againLabels.tail, none, eq_some_getD hagainRun _, by rw [hfirst]; exact htaken⟩
  have hlogin : againEnd.Serves jsonJwt keyBcrypt visitIssuer (.login creds) againLogin
      ⟨200, .login againToken "bearer" 3600⟩ :=
    ⟨againLoginLabels.tail, _, eq_some_getD hloginRun _, by rw [hagain]; exact hanswered⟩
  have hdraws : againLogin.DrawsProper := by
    intro body draw hmem
    rw [hrequests] at hmem
    simp only [List.mem_cons, Request.register.injEq, List.not_mem_nil, or_false, reduceCtorEq,
      false_or] at hmem
    obtain ⟨-, rfl⟩ | ⟨-, rfl⟩ := hmem
    · exact ⟨⟨"\x07", by decide +kernel⟩, by decide⟩
    · exact ⟨⟨"\x08", by decide +kernel⟩, by decide⟩
  exact setup_ready_iff keyBcrypt_hashesShort keyBcrypt_comparesKeys jsonJwt_signs jsonJwt_compact
    jsonJwt_roundTrips (eq_some_getD hfirstRun _) hregister ⟨[], rfl⟩ hlogin hdraws

end ApigateBenchmark.LoadTests
