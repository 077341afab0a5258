import ApigateBenchmark.AuthService.Security
import ApigateBenchmark.Library.GoJson
import ApigateBenchmark.Library.GoMarshal

/-!
# The handlers of auth-service

`server/handlers.go`. `Register` and `Login` are cut where they enter the store: what comes before
reads the body alone, and what comes after gets the store's result. Responses keep the value that is
marshalled, and `marshal` is the body it becomes.
-/

namespace ApigateBenchmark.AuthService

open Json GoJson

structure Credentials where
  email : GoString
  password : GoString
  deriving DecidableEq

inductive Payload where
  | error (msg : String)
  | registered (id email : GoString)
  | login (accessToken : GoString) (tokenType : String) (expiresIn : Int)
  | verified (userID email : GoString)
  deriving DecidableEq

/-- The body `writeJSON` sets. -/
def Payload.marshal : Payload → Bytes
  | .error msg => marshalStruct [("error", marshalString (Bytes.utf8 msg))]
  | .registered id email => marshalStruct [("id", marshalString id), ("email", marshalString email)]
  | .login accessToken tokenType expiresIn =>
      marshalStruct [("access_token", marshalString accessToken),
        ("token_type", marshalString (Bytes.utf8 tokenType)), ("expires_in", marshalInt expiresIn)]
  | .verified userID email =>
      marshalStruct [("user_id", marshalString userID), ("email", marshalString email)]

structure Response where
  status : Nat
  payload : Payload
  deriving DecidableEq

def writeErr (status : Nat) (msg : String) : Response := ⟨status, .error msg⟩

def unmarshalCredentials (data : Bytes) : Option Credentials :=
  unmarshal ⟨[], []⟩ (fun members => do
    let email ← readField (isField "email") readString [] members
    let password ← readField (isField "password") readString [] members
    some ⟨email, password⟩) data

/-- The check of `Register`. -/
def Credentials.admitted (input : Credentials) : Bool :=
  !(input.email == [] || input.password.length < 6 || 128 < input.password.length)

/-! ### `Register` -/

/-- Up to `Store.Create`. -/
def registerInput (body : Bytes) : Except Response Credentials :=
  match unmarshalCredentials body with
  | none => .error (writeErr 400 "invalid json")
  | some input => if input.admitted then .ok input else .error (writeErr 400 "invalid payload")

/-- From `Store.Create` on. -/
def registerResult (store : Store) : Except StoreError Nat → Option Response
  | .error .emailTaken => some (writeErr 409 "email already registered")
  | .error _ => some (writeErr 500 "internal error")
  | .ok ptr => (store.heap[ptr]?).map fun user => ⟨201, .registered user.id user.email⟩

/-! ### `Login` -/

def loginInput (body : Bytes) : Except Response Credentials :=
  match unmarshalCredentials body with
  | none => .error (writeErr 400 "invalid json")
  | some input => .ok input

/-- From `Store.Authenticate` on, with the claims that were signed. -/
def loginResult (jwt : Jwt) (issuer : Issuer) (now : Time) (store : Store) :
    Except StoreError Nat → Option (Response × Option Claims)
  | .error _ => some (writeErr 401 "invalid credentials", none)
  | .ok ptr => (store.heap[ptr]?).map fun user =>
      match issuer.issue jwt now user.id user.email with
      | none => (writeErr 500 "token error", none)
      | some tok =>
          (⟨200, .login tok.accessToken "bearer" tok.expiresIn⟩,
            some (issuer.claims now user.id user.email))

/-! ### `Verify` -/

def bearerPrefix : Bytes := Bytes.utf8 "Bearer "

def verify (jwt : Jwt) (issuer : Issuer) (now : Time) (auth : Bytes) : Response :=
  if auth.length ≤ bearerPrefix.length || !bearerPrefix.isPrefixOf auth then
    writeErr 401 "missing bearer token"
  else
    match issuer.decode jwt now (auth.drop bearerPrefix.length) with
    | .error .expired => writeErr 401 "token expired"
    | .error .invalid => writeErr 401 "invalid token"
    | .ok claims =>
        if claims.subject = [] ∨ claims.email = [] then writeErr 401 "malformed token"
        else ⟨200, .verified claims.subject claims.email⟩

/-! ### What the answers say -/

theorem registerInput_ok {body : Bytes} {input : Credentials} (h : registerInput body = .ok input) :
    unmarshalCredentials body = some input ∧ input.admitted = true := by
  simp only [registerInput] at h
  split at h
  · cases h
  · rename_i decoded hdecoded
    split at h <;> cases h
    exact ⟨hdecoded, ‹_›⟩

theorem registerInput_error {body : Bytes} {response : Response}
    (h : registerInput body = .error response) : response.status = 400 := by
  simp only [registerInput] at h
  split at h
  · cases h
    rfl
  · split at h <;> cases h
    rfl

theorem loginInput_ok {body : Bytes} {input : Credentials} (h : loginInput body = .ok input) :
    unmarshalCredentials body = some input := by
  simp only [loginInput] at h
  split at h <;> cases h
  assumption

theorem loginInput_error {body : Bytes} {response : Response} (h : loginInput body = .error response) :
    response.status = 400 := by
  simp only [loginInput] at h
  split at h <;> cases h
  rfl

theorem append_drop_of_isPrefixOf {l m : Bytes} (h : l.isPrefixOf m = true) : m = l ++ m.drop l.length := by
  obtain ⟨rest, rfl⟩ := List.isPrefixOf_iff_prefix.mp h
  rw [List.drop_left]

/-- A 200 of `Verify` is the answer to a bearer token that decodes, and says what its claims say. -/
theorem verify_status {jwt : Jwt} {issuer : Issuer} {now : Time} {auth : Bytes}
    (h : (verify jwt issuer now auth).status = 200) :
    ∃ raw claims, auth = bearerPrefix ++ raw ∧ issuer.decode jwt now raw = .ok claims ∧
      verify jwt issuer now auth = ⟨200, .verified claims.subject claims.email⟩ := by
  rw [verify] at h ⊢
  split at h
  · cases h
  · rename_i hbearer
    rw [if_neg hbearer]
    simp only [Bool.or_eq_true, Bool.not_eq_true', decide_eq_true_eq, not_or, Bool.not_eq_false] at hbearer
    split at h
    · cases h
    · cases h
    · rename_i claims hdecode
      split at h
      · cases h
      · rename_i hnamed
        refine ⟨auth.drop bearerPrefix.length, claims, append_drop_of_isPrefixOf hbearer.2, hdecode, ?_⟩
        rw [if_neg hnamed]

/-- `Login` signs claims only for a user the store gave it, and with them answers 200. -/
theorem loginResult_signed {jwt : Jwt} {issuer : Issuer} {now : Time} {store : Store}
    {result : Except StoreError Nat} {response : Response} {claims : Claims}
    (h : loginResult jwt issuer now store result = some (response, some claims)) :
    ∃ ptr user token, result = .ok ptr ∧ store.heap[ptr]? = some user ∧
      claims = issuer.claims now user.id user.email ∧
      jwt.signedString issuer.secret claims = some token ∧
      response = ⟨200, .login token "bearer" issuer.expiresIn⟩ := by
  cases result with
  | error err => cases h
  | ok ptr =>
      obtain ⟨user, huser, hissue⟩ := Option.map_eq_some_iff.mp h
      split at hissue
      · cases hissue
      · rename_i tok htok
        obtain ⟨token, htoken, rfl⟩ := Option.map_eq_some_iff.mp htok
        cases hissue
        exact ⟨ptr, user, token, rfl, huser, rfl, htoken, rfl⟩

theorem loginResult_ok {jwt : Jwt} {issuer : Issuer} {now : Time} {store : Store}
    {result : Except StoreError Nat} {response : Response} {signed : Option Claims}
    (h : loginResult jwt issuer now store result = some (response, signed))
    (hstatus : response.status = 200) : ∃ claims, signed = some claims := by
  cases result with
  | error err =>
      cases h
      cases hstatus
  | ok ptr =>
      obtain ⟨user, huser, hissue⟩ := Option.map_eq_some_iff.mp h
      split at hissue <;> cases hissue
      · cases hstatus
      · exact ⟨_, rfl⟩

end ApigateBenchmark.AuthService
