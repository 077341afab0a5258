import ApigateBenchmark.AuthService.Lifetime
import ApigateBenchmark.AuthService.Registration

/-!
# A registered user with a token that is still good

What `Register` and `Login` answered with is all `Verify` needs: until the token expires it is answered
200, with the ID and the email of the registration.
-/

namespace ApigateBenchmark.AuthService

variable {jwt : Jwt} {bcrypt : Bcrypt} {issuer : Issuer}

/-- What is documented of the compact serialization: base64url and dots. -/
def Jwt.Compact (jwt : Jwt) : Prop :=
  ∀ secret claims token, jwt.signedString secret claims = some token → Bytes.IsVisible token

/-- Every `Register` of the run draws, or would draw, an ID as `uuid.NewString` prints it. -/
def Service.DrawsUuids (s : Service) : Prop :=
  ∀ body draw, Request.register body draw ∈ s.requests → Bytes.IsVisible draw.id

/-- A `Register` with these credentials was answered 201, and a `Login` with their email was answered with
the token, for which the claims were signed. -/
structure Service.HasToken (s : Service) (input : Credentials) (userID token : GoString)
    (claims : Claims) : Prop where
  registered : ∃ body draw signed, unmarshalCredentials body = some input ∧
    ⟨.register body draw, .responded ⟨201, .registered userID input.email⟩ signed⟩ ∈ s.tasks
  loggedIn : ∃ body password kind expiresIn, unmarshalCredentials body = some ⟨input.email, password⟩ ∧
    ⟨.login body, .responded ⟨200, .login token kind expiresIn⟩ (some claims)⟩ ∈ s.tasks

/-- The token has not expired. -/
def Claims.Fresh (claims : Claims) (now : Time) : Prop := ∀ exp ∈ claims.expiresAt, now < exp

theorem Service.DrawsUuids.proper {s : Service} (h : s.DrawsUuids) : s.DrawsProper := by
  intro body draw hmem
  have hvisible := h body draw hmem
  exact ⟨⟨Bytes.latin1 draw.id, hvisible.utf8_latin1.symm⟩, hvisible.ne_nil⟩

/-- A `Register` that is answered 201 got past its checks. -/
theorem Task.Knows.admitted {store : Store} {body : Bytes} {draw : Draw} {response : Response}
    {signed : Option Claims}
    (h : Task.Knows jwt bcrypt issuer store (.register body draw) (.responded response signed))
    (hstatus : response.status = 201) : ∃ input, registerInput body = .ok input := by
  cases hinput : registerInput body with
  | ok input => exact ⟨input, rfl⟩
  | error refusal =>
      obtain ⟨now, henter⟩ | ⟨now, op, result, hasks, -⟩ := h
      · rw [Request.enter, hinput] at henter
        cases henter
        rw [registerInput_error hinput] at hstatus
        cases hstatus
      · cases op with
        | create email password draw' =>
            rw [hasks.1] at hinput
            cases hinput
        | authenticate email password => exact hasks.elim

theorem Task.Knows.enrolled {store : Store} {body : Bytes} {draw : Draw} {input : Credentials}
    {userID email : GoString} {signed : Option Claims}
    (h : Task.Knows jwt bcrypt issuer store (.register body draw)
      (.responded ⟨201, .registered userID email⟩ signed))
    (hbody : unmarshalCredentials body = some input) :
    userID = draw.id ∧ ∃ user, store.user input.email = some user ∧ user.id = userID := by
  obtain ⟨admitted, hinput⟩ := h.admitted rfl
  obtain rfl : input = admitted := Option.some.inj (hbody.symm.trans (registerInput_ok hinput).1)
  obtain ⟨-, h500⟩ | ⟨-, ⟨-, h409⟩ | ⟨⟨user, huser, hid, -⟩, h201⟩⟩ := h.registered hinput
  · cases h500
  · cases h409
  · cases h201
    exact ⟨rfl, user, huser, hid⟩

/-- The token was signed for the registered user. -/
theorem Service.HasToken.issued {s : Service} {labels : List Label}
    (hrun : Transition.run (Service.step jwt bcrypt issuer) Service.start labels = some s)
    {input : Credentials} {userID token : GoString} {claims : Claims}
    (h : s.HasToken input userID token claims) :
    ∃ user now, s.store.user input.email = some user ∧ user.id = userID ∧
      claims = issuer.claims now user.id user.email ∧ jwt.signedString issuer.secret claims = some token := by
  obtain ⟨body, draw, signed, hbody, hregistered⟩ := h.registered
  obtain ⟨loginBody, loginPassword, kind, expiresIn, hloginBody, hlogin⟩ := h.loggedIn
  obtain ⟨-, user, huser, hid⟩ := (Service.run_sound hrun _ hregistered).enrolled hbody
  obtain ⟨_, email, password, stored, _, now, hrequest, hcredentials, hstored, -, hclaims, hsigned,
    hresponse⟩ := (Service.run_sound hrun _ hlogin).signed
  cases hrequest
  cases hresponse
  rw [hloginBody] at hcredentials
  cases hcredentials
  -- both requests found the one user of the email
  obtain rfl : user = stored := Option.some.inj (huser.symm.trans hstored)
  rw [← Store.user_email huser] at hclaims
  exact ⟨user, now, huser, hid, hclaims, hsigned⟩

theorem Service.HasToken.visible_userID {s : Service} {labels : List Label}
    (hrun : Transition.run (Service.step jwt bcrypt issuer) Service.start labels = some s)
    (hdraws : s.DrawsUuids) {input : Credentials} {userID token : GoString} {claims : Claims}
    (h : s.HasToken input userID token claims) : Bytes.IsVisible userID := by
  obtain ⟨body, draw, signed, hbody, hregistered⟩ := h.registered
  obtain ⟨rfl, -⟩ := (Service.run_sound hrun _ hregistered).enrolled hbody
  exact hdraws body draw (List.mem_map.mpr ⟨_, hregistered, rfl⟩)

/-- `Verify` answers a fresh token with the ID and the email of the registration. -/
theorem Service.HasToken.verify_eq (hround : jwt.RoundTrips) {s : Service} {labels : List Label}
    (hrun : Transition.run (Service.step jwt bcrypt issuer) Service.start labels = some s)
    (hdraws : s.DrawsUuids) {input : Credentials} {userID token : GoString} {claims : Claims}
    (h : s.HasToken input userID token claims) {now : Time} (hfresh : claims.Fresh now) :
    verify jwt issuer now (bearerPrefix ++ token) = ⟨200, .verified userID input.email⟩ := by
  obtain ⟨user, issued, huser, rfl, rfl, hsigned⟩ := h.issued hrun
  have henrolled := Service.run_enrolled hrun huser
  have hemail := henrolled.email
  rw [← Store.user_email huser] at hemail ⊢
  rw [verify_issued hround (henrolled.id hdraws.proper) hemail hsigned, if_pos (hfresh _ rfl)]

end ApigateBenchmark.AuthService
