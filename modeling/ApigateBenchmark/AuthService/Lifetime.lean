import ApigateBenchmark.AuthService.Config
import ApigateBenchmark.AuthService.Enrolment

/-!
# How long a token is good for

The configured minutes become nanoseconds, are added to the clock, cut to the second, signed, read back
and compared. Every stretch of the way keeps the lifetime but the first: a number of minutes that does
not fit 63 bits of nanoseconds comes out a whole turn too low.
-/

namespace ApigateBenchmark.AuthService

open GoTime

variable {jwt : Jwt} {bcrypt : Bcrypt} {issuer : Issuer}

/-- The dates of the claims are numeric dates. -/
structure Claims.WholeSeconds (claims : Claims) : Prop where
  issuedAt : ∀ t ∈ claims.issuedAt, second ∣ t
  expiresAt : ∀ t ∈ claims.expiresAt, second ∣ t

/-- What is documented of a signed token: it is not empty, and until its `exp` comes it parses to its
claims. Text survives, and whole seconds. -/
structure Jwt.RoundTrips (jwt : Jwt) : Prop where
  nonempty : ∀ secret claims token, jwt.signedString secret claims = some token → token ≠ []
  parses : ∀ secret claims token exp now, IsText claims.email → IsText claims.subject →
    claims.WholeSeconds → jwt.signedString secret claims = some token → claims.expiresAt = some exp →
      jwt.parseWithClaims secret now token =
        if now < exp then .ok ⟨claims, true⟩ else .error .tokenExpired

/-- What the token that `Login` answers with at the time `t` is promised to do for its user. -/
structure Lifetime (jwt : Jwt) (issuer : Issuer) (user : User) (t : Time) (minutes : Int)
    (token : GoString) (expiresIn : Int) : Prop where
  stated : expiresIn = 60 * minutes
  verifies : ∀ t', t ≤ t' →
    (verify jwt issuer t' (bearerPrefix ++ token) = ⟨200, .verified user.id user.email⟩ ↔
      t' < newNumericDate t + 60 * minutes * second)
  fresh : verify jwt issuer t (bearerPrefix ++ token) = ⟨200, .verified user.id user.email⟩
  nonneg : 0 ≤ expiresIn

/-! ### Times -/

theorem newNumericDate_le (t : Time) : newNumericDate t ≤ t := by
  rw [newNumericDate]
  exact Int.ediv_mul_le t (by decide)

theorem lt_newNumericDate_add (t : Time) : t < newNumericDate t + second := by
  have hdiv := Int.lt_ediv_add_one_mul_self t (show 0 < second by decide)
  rw [Int.add_mul, Int.one_mul] at hdiv
  exact hdiv

/-- Whole seconds pass through the cut. -/
theorem newNumericDate_add (t : Time) (seconds : Int) :
    newNumericDate (t + seconds * second) = newNumericDate t + seconds * second := by
  rw [newNumericDate, newNumericDate, Int.add_mul_ediv_right t seconds (by decide), Int.add_mul]

theorem Issuer.claims_wholeSeconds (issuer : Issuer) (t : Time) (userID email : GoString) :
    (issuer.claims t userID email).WholeSeconds := by
  constructor
  · rintro t' ⟨⟩
    exact Int.dvd_mul_left _ _
  · rintro t' ⟨⟩
    exact Int.dvd_mul_left _ _

/-! ### A token and its `Verify` -/

theorem verify_issued (hround : jwt.RoundTrips) {user : User} {t : Time} {token : GoString}
    (hid : IsText user.id ∧ user.id ≠ []) (hemail : IsText user.email ∧ user.email ≠ [])
    (htoken : jwt.signedString issuer.secret (issuer.claims t user.id user.email) = some token)
    (t' : Time) :
    verify jwt issuer t' (bearerPrefix ++ token) =
      if t' < newNumericDate (t + issuer.ttl) then ⟨200, .verified user.id user.email⟩
      else writeErr 401 "token expired" := by
  have hparse := hround.parses issuer.secret _ token _ t' hemail.1 hid.1 (issuer.claims_wholeSeconds _ _ _)
    htoken rfl
  have hnonempty := hround.nonempty _ _ _ htoken
  have hprefix : bearerPrefix.isPrefixOf (bearerPrefix ++ token) = true :=
    List.isPrefixOf_iff_prefix.mpr (List.prefix_append _ _)
  rw [verify, if_neg (by simp [hnonempty, hprefix]), List.drop_left, Issuer.decode, hparse]
  by_cases hnow : t' < newNumericDate (t + issuer.ttl)
  · rw [if_pos hnow, if_pos hnow]
    have hnames : ¬ ((issuer.claims t user.id user.email).subject = [] ∨
        (issuer.claims t user.id user.email).email = []) := not_or.mpr ⟨hid.2, hemail.2⟩
    simp only [if_true, if_neg hnames]
    rfl
  · rw [if_neg hnow, if_neg hnow]

theorem writeErr_ne_verified (msg : String) (userID email : GoString) :
    writeErr 401 msg ≠ ⟨200, .verified userID email⟩ := by
  intro hsame
  have hstatus := congrArg Response.status hsame
  exact absurd hstatus (by simp [writeErr])

/-- `Verify` takes a token that was issued exactly until its `exp` comes. -/
theorem verify_issued_iff (hround : jwt.RoundTrips) {user : User} {t : Time} {token : GoString}
    (hid : IsText user.id ∧ user.id ≠ []) (hemail : IsText user.email ∧ user.email ≠ [])
    (htoken : jwt.signedString issuer.secret (issuer.claims t user.id user.email) = some token)
    (t' : Time) :
    verify jwt issuer t' (bearerPrefix ++ token) = ⟨200, .verified user.id user.email⟩ ↔
      t' < newNumericDate (t + issuer.ttl) := by
  rw [verify_issued hround hid hemail htoken]
  by_cases hnow : t' < newNumericDate (t + issuer.ttl)
  · rw [if_pos hnow]
    exact iff_of_true rfl hnow
  · rw [if_neg hnow]
    exact iff_of_false (writeErr_ne_verified _ _ _) hnow

/-- The token is good for the configured minutes exactly if their nanoseconds fit the duration. -/
theorem lifetime_iff (hround : jwt.RoundTrips) {user : User} {t : Time} {token : GoString}
    (hid : IsText user.id ∧ user.id ≠ []) (hemail : IsText user.email ∧ user.email ≠ [])
    (htoken : jwt.signedString issuer.secret (issuer.claims t user.id user.email) = some token)
    {n : Int} (hpos : 0 < n) (httl : issuer.ttl = int64 (n * minute)) :
    Lifetime jwt issuer user t n token issuer.expiresIn ↔ n * minute < (2 : Int) ^ 63 := by
  have hverify := verify_issued_iff hround hid hemail htoken
  have hnanos : n * minute = 60 * n * second := by
    rw [minute, ← Int.mul_assoc, Int.mul_comm n 60]
  have hsecond : second = 1000000000 := rfl
  have hminute : second ≤ 60 * n * second := by
    rw [hsecond]
    omega
  have hfresh : t < newNumericDate t + 60 * n * second :=
    Int.lt_of_lt_of_le (lt_newNumericDate_add t) (Int.add_le_add_left hminute _)
  rw [hnanos] at httl ⊢
  constructor
  · intro h
    apply Int.lt_of_not_ge
    intro hlong
    -- the token is refused from the later of `t` and the wrapped `exp` on, which is too early
    have hwrapped := int64_le_sub hlong
    rw [← httl] at hwrapped
    have hroom : second + issuer.ttl ≤ 60 * n * second := by
      rw [hsecond] at hwrapped ⊢
      omega
    have hearly : newNumericDate (t + issuer.ttl) < newNumericDate t + 60 * n * second :=
      calc newNumericDate (t + issuer.ttl) ≤ t + issuer.ttl := newNumericDate_le _
        _ < newNumericDate t + second + issuer.ttl := Int.add_lt_add_right (lt_newNumericDate_add t) _
        _ = newNumericDate t + (second + issuer.ttl) := Int.add_assoc _ _ _
        _ ≤ newNumericDate t + 60 * n * second := Int.add_le_add_left hroom _
    have hgood := (h.verifies _ (le_max_left _ _)).mpr (max_lt hfresh hearly)
    exact absurd ((hverify _).mp hgood) (not_lt.mpr (le_max_right _ _))
  · intro hfits
    have hlow : -(2 : Int) ^ 63 ≤ 60 * n * second := by
      rw [hsecond]
      omega
    have hexact : issuer.ttl = 60 * n * second := by
      rw [httl, int64_eq_self hlow hfits]
    have hexp : newNumericDate (t + issuer.ttl) = newNumericDate t + 60 * n * second := by
      rw [hexact, newNumericDate_add]
    have hexpires : issuer.expiresIn = 60 * n := by
      have hsmall : (60 * n).natAbs < 2 ^ 53 := by
        rw [hsecond] at hfits
        omega
      rw [Issuer.expiresIn, hexact, truncate_seconds hsmall]
    have hgood : ∀ t', verify jwt issuer t' (bearerPrefix ++ token) =
        ⟨200, .verified user.id user.email⟩ ↔ t' < newNumericDate t + 60 * n * second :=
      fun t' => hexp ▸ hverify t'
    exact ⟨hexpires, fun t' _ => hgood t', (hgood t).mpr hfresh, by omega⟩

/-! ### A `Login` of a run -/

/-- The token of a `Login` is signed for the stored user with the credentials it got. -/
theorem Service.login_answered {labels : List Label} {s s' : Service}
    (hrun : Transition.run (Service.step jwt bcrypt issuer) Service.start labels = some s)
    {id : Nat} {body : Bytes} {op : Op} {result : Except StoreError Nat} {token : GoString} {kind : String}
    {expiresIn : Int} {signed : Option Claims}
    (hlogin : s.tasks[id]? = some ⟨.login body, .inStore op (.returned result)⟩)
    (hstep : s.step jwt bcrypt issuer (.advance id) = some s')
    (hanswer : s'.tasks[id]? =
      some ⟨.login body, .responded ⟨200, .login token kind expiresIn⟩ signed⟩)
    {email password : GoString} (hbody : unmarshalCredentials body = some ⟨email, password⟩) {user : User}
    (huser : s.store.user email = some user) :
    jwt.signedString issuer.secret (issuer.claims s.now user.id user.email) = some token ∧
      expiresIn = issuer.expiresIn := by
  have hknows := Service.run_sound hrun _ (List.mem_of_getElem? hlogin)
  have hlt := (List.getElem?_eq_some_iff.mp hlogin).1
  obtain ⟨hasks, hop⟩ := hknows
  have hleave : ∃ answer, loginResult jwt issuer s.now s.store result = some answer ∧
      answer.1 = ⟨200, .login token kind expiresIn⟩ := by
    simp only [Service.step, hlogin, Option.bind_some, Task.advance, Request.leave, Option.map_map,
      Option.map_eq_some_iff] at hstep
    obtain ⟨answer, hleave, rfl⟩ := hstep
    refine ⟨answer, hleave, ?_⟩
    simp only [Function.comp, List.getElem?_set_self hlt, Option.some.injEq, Task.mk.injEq,
      Progress.responded.injEq, true_and] at hanswer
    exact hanswer.1
  obtain ⟨answer, hresult, hresponse⟩ := hleave
  cases result with
  | error err =>
      obtain rfl := Option.some.inj hresult
      cases hresponse
  | ok ptr =>
      cases op with
      | create email' password' draw => exact hasks.elim
      | authenticate email' password' =>
          obtain ⟨stored, hptr, hheap, -⟩ := hop
          have hinput := loginInput_ok hasks
          rw [hbody] at hinput
          cases hinput
          -- the pointer of the call leads to the user of that email
          have hstored : s.store.user email = some stored :=
            (s.store.user_eq_some_iff email stored).mpr ⟨ptr, hptr, hheap⟩
          rw [huser] at hstored
          cases hstored
          rw [loginResult, hheap, Option.map_some, Option.some.injEq] at hresult
          subst hresult
          split at hresponse
          · cases hresponse
          · rename_i tok htok
            obtain ⟨signedToken, hsigned, rfl⟩ := Option.map_eq_some_iff.mp htok
            cases hresponse
            exact ⟨hsigned, rfl⟩

theorem Service.lifetime_of_login (hround : jwt.RoundTrips) {labels : List Label} {s s' : Service}
    (hrun : Transition.run (Service.step jwt bcrypt issuer) Service.start labels = some s)
    (hdraws : s.DrawsProper) {id : Nat} {body : Bytes} {op : Op} {result : Except StoreError Nat}
    {token : GoString} {kind : String} {expiresIn : Int} {signed : Option Claims}
    (hlogin : s.tasks[id]? = some ⟨.login body, .inStore op (.returned result)⟩)
    (hstep : s.step jwt bcrypt issuer (.advance id) = some s')
    (hanswer : s'.tasks[id]? =
      some ⟨.login body, .responded ⟨200, .login token kind expiresIn⟩ signed⟩)
    {email password : GoString} (hbody : unmarshalCredentials body = some ⟨email, password⟩) {user : User}
    (huser : s.store.user email = some user) {n : Int} (hpos : 0 < n)
    (httl : issuer.ttl = int64 (n * minute)) :
    Lifetime jwt issuer user s.now n token expiresIn ↔ n * minute < (2 : Int) ^ 63 := by
  obtain ⟨hsigned, rfl⟩ := Service.login_answered hrun hlogin hstep hanswer hbody huser
  have henrolled := Service.run_enrolled hrun huser
  have hemail := henrolled.email
  rw [← Store.user_email huser] at hemail
  exact lifetime_iff hround (henrolled.id hdraws) hemail hsigned hpos httl

/-- Under every positive `JWT_TTL_MINUTES`: the token that a registered user gets from `Login` is good
for the configured minutes exactly if their nanoseconds fit 63 bits. -/
theorem token_lifetime_iff (hround : jwt.RoundTrips) {getenv : String → GoString} {n : Int}
    (hn : atoi (getenv "JWT_TTL_MINUTES") = some n) (hpos : 0 < n) {labels : List Label} {s s' : Service}
    (hrun : Transition.run (Service.step jwt bcrypt (load getenv).issuer) Service.start labels = some s)
    (hdraws : s.DrawsProper) {id : Nat} {body : Bytes} {op : Op} {result : Except StoreError Nat}
    {token : GoString} {kind : String} {expiresIn : Int} {signed : Option Claims}
    (hlogin : s.tasks[id]? = some ⟨.login body, .inStore op (.returned result)⟩)
    (hstep : s.step jwt bcrypt (load getenv).issuer (.advance id) = some s')
    (hanswer : s'.tasks[id]? =
      some ⟨.login body, .responded ⟨200, .login token kind expiresIn⟩ signed⟩)
    {email password : GoString} (hbody : unmarshalCredentials body = some ⟨email, password⟩) {user : User}
    (huser : s.store.user email = some user) :
    Lifetime jwt (load getenv).issuer user s.now n token expiresIn ↔ n * minute < (2 : Int) ^ 63 :=
  Service.lifetime_of_login hround hrun hdraws hlogin hstep hanswer hbody huser hpos (load_ttl hn hpos)

/-! ### An hour, and a minute too many -/

/-- A golang-jwt that signs one set of claims. -/
def soleTokenJwt (claims : Claims) : Jwt where
  signedString _ signed := if signed = claims then some (Bytes.utf8 "token") else none
  parseWithClaims := (oneTokenJwt claims).parseWithClaims

theorem soleTokenJwt_roundTrips (claims : Claims) : (soleTokenJwt claims).RoundTrips := by
  have hsole : ∀ secret signed token, (soleTokenJwt claims).signedString secret signed = some token →
      signed = claims ∧ token = Bytes.utf8 "token" := by
    intro secret signed token h
    simp only [soleTokenJwt] at h
    split at h
    · exact ⟨‹_›, (Option.some.inj h).symm⟩
    · cases h
  refine ⟨fun secret signed token h => ?_, fun secret signed token exp now _ _ _ h hexp => ?_⟩
  · rw [(hsole secret signed token h).2]
    decide
  · obtain ⟨rfl, rfl⟩ := hsole secret signed token h
    simp only [soleTokenJwt, oneTokenJwt, hexp, Option.all_some, decide_eq_true_eq, if_true]

def minutesEnv (minutes : String) (name : String) : GoString :=
  if name = "JWT_TTL_MINUTES" then Bytes.utf8 minutes else []

def minutesIssuer (minutes : String) : Issuer := (load (minutesEnv minutes)).issuer

def minutesJwt (minutes : String) : Jwt :=
  soleTokenJwt ((minutesIssuer minutes).claims (7 * second) [9] (Bytes.utf8 "ann"))

/-- A client registers, and logs in as far as the answer. -/
def loginLabels : List Label :=
  [.clock (7 * second), .arrive (.register visitBody ⟨[1], [9]⟩), .advance 0, .advance 0, .advance 0,
    .advance 0, .arrive (.login visitBody), .advance 1, .advance 1, .advance 1]

def loginRun (minutes : String) : Option Service :=
  Transition.run (Service.step (minutesJwt minutes) keyBcrypt (minutesIssuer minutes)) Service.start
    loginLabels

def loginEnd (minutes : String) : Service := (loginRun minutes).getD Service.start

def loginStep (minutes : String) : Option Service :=
  (loginEnd minutes).step (minutesJwt minutes) keyBcrypt (minutesIssuer minutes) (.advance 1)

def loginAnswered (minutes : String) : Service := (loginStep minutes).getD (loginEnd minutes)

def loginUser : User :=
  ⟨[9], Bytes.utf8 "ann", (keyBcrypt.generateFromPassword [1] (Bytes.utf8 "secret1")).getD []⟩

/-- The run comes to the step in which `Login` answers. -/
structure LoggingIn (minutes : String) (expiresIn : Int) : Prop where
  run : loginRun minutes = some (loginEnd minutes)
  step : loginStep minutes = some (loginAnswered minutes)
  draws : (loginEnd minutes).DrawsProper
  login : (loginEnd minutes).tasks[1]? = some ⟨.login visitBody,
    .inStore (.authenticate (Bytes.utf8 "ann") (Bytes.utf8 "secret1")) (.returned (.ok 0))⟩
  answer : (loginAnswered minutes).tasks[1]? = some ⟨.login visitBody,
    .responded ⟨200, .login (Bytes.utf8 "token") "bearer" expiresIn⟩
      (some ((minutesIssuer minutes).claims (7 * second) [9] (Bytes.utf8 "ann")))⟩
  now : (loginEnd minutes).now = 7 * second
  user : (loginEnd minutes).store.user (Bytes.utf8 "ann") = some loginUser

theorem loggingIn {minutes : String} {expiresIn : Int}
    (hran : (loginRun minutes).isSome = true ∧ (loginStep minutes).isSome = true)
    (hrequests : (loginEnd minutes).requests = [.register visitBody ⟨[1], [9]⟩, .login visitBody])
    (htasks : (loginEnd minutes).tasks[1]? = some ⟨.login visitBody,
        .inStore (.authenticate (Bytes.utf8 "ann") (Bytes.utf8 "secret1")) (.returned (.ok 0))⟩ ∧
      (loginAnswered minutes).tasks[1]? = some ⟨.login visitBody,
        .responded ⟨200, .login (Bytes.utf8 "token") "bearer" expiresIn⟩
          (some ((minutesIssuer minutes).claims (7 * second) [9] (Bytes.utf8 "ann")))⟩)
    (hnow : (loginEnd minutes).now = 7 * second)
    (huser : (loginEnd minutes).store.user (Bytes.utf8 "ann") = some loginUser) :
    LoggingIn minutes expiresIn := by
  refine ⟨eq_some_getD hran.1 _, eq_some_getD hran.2 _, ?_, htasks.1, htasks.2, hnow, huser⟩
  intro body draw hmem
  rw [hrequests] at hmem
  simp only [List.mem_cons, Request.register.injEq, List.not_mem_nil, or_false, reduceCtorEq] at hmem
  rw [hmem.2]
  exact ⟨⟨"\t", by decide +kernel⟩, by decide⟩

theorem visitBody_credentials :
    unmarshalCredentials visitBody = some ⟨Bytes.utf8 "ann", Bytes.utf8 "secret1"⟩ := by decide +kernel

theorem token_lifetime_hour :
    Lifetime (minutesJwt "60") (minutesIssuer "60") loginUser (7 * second) 60 (Bytes.utf8 "token") 3600 := by
  have hready : LoggingIn "60" 3600 := loggingIn (by decide +kernel) (by decide +kernel)
    (by decide +kernel) (by decide +kernel) (by decide +kernel)
  have hn : atoi (minutesEnv "60" "JWT_TTL_MINUTES") = some 60 := by decide +kernel
  rw [← hready.now]
  exact (token_lifetime_iff (soleTokenJwt_roundTrips _) hn (by decide) hready.run hready.draws hready.login
    hready.step hready.answer visitBody_credentials hready.user).mpr (by decide)

/-- With one minute more than fits, the token that `Login` answers with expired centuries ago. -/
theorem token_lifetime_overflow :
    ¬ ∀ (jwt : Jwt) (bcrypt : Bcrypt) (getenv : String → GoString) (n : Int) (labels : List Label)
        (s s' : Service) (id : Nat) (body : Bytes) (op : Op) (result : Except StoreError Nat)
        (token : GoString) (kind : String) (expiresIn : Int) (signed : Option Claims)
        (email password : GoString) (user : User),
      jwt.RoundTrips → atoi (getenv "JWT_TTL_MINUTES") = some n → 0 < n →
      Transition.run (Service.step jwt bcrypt (load getenv).issuer) Service.start labels = some s →
      s.DrawsProper → s.tasks[id]? = some ⟨.login body, .inStore op (.returned result)⟩ →
      s.step jwt bcrypt (load getenv).issuer (.advance id) = some s' →
      s'.tasks[id]? = some ⟨.login body, .responded ⟨200, .login token kind expiresIn⟩ signed⟩ →
      unmarshalCredentials body = some ⟨email, password⟩ → s.store.user email = some user →
      Lifetime jwt (load getenv).issuer user s.now n token expiresIn := by
  intro h
  have hready : LoggingIn "153722868" (-9223371993) := loggingIn (by decide +kernel) (by decide +kernel)
    (by decide +kernel) (by decide +kernel) (by decide +kernel)
  have hn : atoi (minutesEnv "153722868" "JWT_TTL_MINUTES") = some 153722868 := by decide +kernel
  have hround := soleTokenJwt_roundTrips
    ((minutesIssuer "153722868").claims (7 * second) [9] (Bytes.utf8 "ann"))
  have hlifetime := h _ _ _ _ _ _ _ _ _ _ _ _ _ _ _ _ _ _ hround hn (by decide) hready.run hready.draws
    hready.login hready.step hready.answer visitBody_credentials hready.user
  exact absurd hlifetime.nonneg (by decide)

end ApigateBenchmark.AuthService
