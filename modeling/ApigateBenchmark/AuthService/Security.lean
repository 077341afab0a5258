import ApigateBenchmark.AuthService.Users
import ApigateBenchmark.Library.GoTime

/-!
# Tokens

`security/security.go`. Signing and parsing are golang-jwt's, which is not part of the repository:
`SignedString` with HS256, and `ParseWithClaims` under `hs256Only`, which reads the clock. Times are
nanoseconds since the epoch, and a numeric date is cut to whole seconds. A lifetime is a duration, so it
may be negative.
-/

namespace ApigateBenchmark.AuthService

open GoTime

abbrev Time := Int

structure Claims where
  email : GoString
  subject : GoString
  issuedAt : Option Time
  expiresAt : Option Time
  deriving DecidableEq

structure Parsed where
  claims : Claims
  valid : Bool

/-- Whether the error of the parser is `jwt.ErrTokenExpired`. -/
inductive JwtError where
  | tokenExpired
  | other
  deriving DecidableEq

structure Jwt where
  signedString : (secret : Bytes) → Claims → Option GoString
  parseWithClaims : (secret : Bytes) → (now : Time) → (raw : GoString) → Except JwtError Parsed

structure Issuer where
  secret : Bytes
  ttl : Int

structure IssuedToken where
  accessToken : GoString
  expiresIn : Int
  deriving DecidableEq

inductive DecodeError where
  | expired
  | invalid
  deriving DecidableEq

def newNumericDate (t : Time) : Time := t / second * second

/-- The claims `Issue` signs. -/
def Issuer.claims (issuer : Issuer) (now : Time) (userID email : GoString) : Claims where
  email := email
  subject := userID
  issuedAt := some (newNumericDate now)
  expiresAt := some (newNumericDate (now + issuer.ttl))

/-- `int(i.TTL.Seconds())` -/
def Issuer.expiresIn (issuer : Issuer) : Int := truncate (seconds issuer.ttl)

def Issuer.issue (jwt : Jwt) (issuer : Issuer) (now : Time) (userID email : GoString) :
    Option IssuedToken :=
  (jwt.signedString issuer.secret (issuer.claims now userID email)).map fun signed =>
    ⟨signed, issuer.expiresIn⟩

def Issuer.decode (jwt : Jwt) (issuer : Issuer) (now : Time) (raw : GoString) :
    Except DecodeError Claims :=
  match jwt.parseWithClaims issuer.secret now raw with
  | .error .tokenExpired => .error .expired
  | .error .other => .error .invalid
  | .ok parsed => if parsed.valid then .ok parsed.claims else .error .invalid

theorem Issuer.decode_ok {jwt : Jwt} {issuer : Issuer} {now : Time} {raw : GoString} {claims : Claims}
    (h : issuer.decode jwt now raw = .ok claims) :
    ∃ parsed, jwt.parseWithClaims issuer.secret now raw = .ok parsed ∧ parsed.claims = claims := by
  simp only [Issuer.decode] at h
  split at h
  · cases h
  · cases h
  · rename_i parsed hparse
    split at h <;> cases h
    exact ⟨parsed, hparse, rfl⟩

/-! ### What is documented of golang-jwt -/

/-- A token whose `exp` has come is an error. -/
def Jwt.RejectsExpired (jwt : Jwt) : Prop :=
  ∀ secret now raw parsed exp, jwt.parseWithClaims secret now raw = .ok parsed →
    parsed.claims.expiresAt = some exp → now < exp

/-- HS256 as an ideal MAC: what is presented and parses under the secret was signed with it. -/
def Jwt.ParsesOnlySigned (jwt : Jwt) (secret : Bytes) (presented : GoString → Prop)
    (signed : Claims → Prop) : Prop :=
  ∀ now raw parsed, presented raw → jwt.parseWithClaims secret now raw = .ok parsed → signed parsed.claims

/-- HS256 with a key of bytes does not fail to sign. -/
def Jwt.Signs (jwt : Jwt) : Prop := ∀ secret claims, ∃ token, jwt.signedString secret claims = some token

end ApigateBenchmark.AuthService
