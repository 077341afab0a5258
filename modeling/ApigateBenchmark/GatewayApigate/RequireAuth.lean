import ApigateBenchmark.GatewayApigate.Routes
import ApigateBenchmark.GatewayLua.RequireAuth
import ApigateBenchmark.Library.JsonValue

/-!
# The auth hook of the Rust gateway

`auth_client.rs` and `require_auth` of `hooks.rs`. `VerifiedUser` owns its strings, so unlike those of a
body they may be spelled with escapes; apart from that serde reads it as it reads a body. Every failure
of the call is a 401. The framework lets a hook see a header value as a `&str` only, and refuses a text
that cannot be a header value: which ones is the parameter `PartsCtx`.
-/

namespace ApigateBenchmark.GatewayApigate

open Json
open GatewayLua (Header getHeader clearHeader putHeader valuesOf)

/-! ### The auth client -/

structure VerifiedUser where
  userId : String
  email : String
  deriving DecidableEq

/-- `String` -/
def readString : Value → Option (Option String)
  | .str lit => lit.decoded.map some
  | _ => none

def decodeVerifiedUser (body : Bytes) : Option VerifiedUser :=
  match parse body with
  | some (.obj members) => do
      let userId ← readOnce "user_id" readString members
      let email ← readOnce "email" readString members
      some ⟨← userId, ← email⟩
  | some (.arr [first, second]) => do
      let userId ← readString first
      let email ← readString second
      some ⟨← userId, ← email⟩
  | _ => none

/-- What `send` returns with; the body may break off. -/
structure Response where
  status : Nat
  body : Option Bytes

/-- `StatusCode::is_success` -/
def isSuccess (status : Nat) : Bool := 200 ≤ status && status < 300

inductive ApigateError where
  | unauthorized (message : String)
  /-- What `set_header` fails with. -/
  | invalidHeader
  deriving DecidableEq

/-- `AuthClient::verify`; an error of `send` is its text. -/
def authClientVerify : Except String Response → Except ApigateError VerifiedUser
  | .error e => .error (.unauthorized ("auth verify failed: " ++ e))
  | .ok resp =>
      if isSuccess resp.status = false then .error (.unauthorized "invalid or expired token")
      else match resp.body.bind decodeVerifiedUser with
        | none => .error (.unauthorized "bad verify response")
        | some user => .ok user

/-! ### The hook -/

/-- What the framework makes of header values. -/
structure PartsCtx where
  /-- `header` of a value that is there. -/
  toStr : Bytes → Option String
  /-- The value `set_header` writes for a text, if it takes it. -/
  fromStr : String → Option Bytes

def setHeader (ctx : PartsCtx) (name value : String) (headers : List Header) :
    Except ApigateError (List Header) :=
  match ctx.fromStr value with
  | none => .error .invalidHeader
  | some bytes => .ok (putHeader name [bytes] headers)

/-- `require_auth`: the headers that go on, or the error the request ends with. -/
def requireAuth (ctx : PartsCtx) (headers : List Header) (send : String → Except String Response) :
    Except ApigateError (List Header) :=
  match (getHeader "authorization" headers).bind ctx.toStr with
  | none => .error (.unauthorized "missing authorization header")
  | some token => do
      let user ← authClientVerify (send token)
      let headers ← setHeader ctx "x-user-id" user.userId headers
      let headers ← setHeader ctx "x-user-email" user.email headers
      .ok (clearHeader "authorization" headers)

/-- Visible ASCII and spaces. -/
def Printable (value : Bytes) : Prop := ∀ x ∈ value, 0x20 ≤ x ∧ x < 0x7f

instance (value : Bytes) : Decidable (Printable value) :=
  List.decidableBAll (fun x => 0x20 ≤ x ∧ x < 0x7f) value

/-- What is documented of the header values of the `http` crate: printable values, which may hold tabs
too, are texts, printable texts are values, and neither way changes the bytes. -/
structure PartsCtx.Documented (ctx : PartsCtx) : Prop where
  reads : ∀ value : Bytes, (∀ x ∈ value, x = 0x09 ∨ 0x20 ≤ x ∧ x < 0x7f) → ∃ text, ctx.toStr value = some text
  read : ∀ value text, ctx.toStr value = some text → Bytes.utf8 text = value
  writes : ∀ text, Printable (Bytes.utf8 text) → ctx.fromStr text = some (Bytes.utf8 text)

/-! ### What comes of a reply -/

theorem readString_of_denotes {member : Member} {name text : String}
    (h : Denotes member (name, .str text)) : readString member.2 = some (some text) := by
  obtain ⟨lit, hvalue, hdecoded⟩ := eq_str_of_denoted h.value
  rw [hvalue, readString, hdecoded, Option.map_some]

variable {ctx : PartsCtx} {headers : List Header} {send : String → Except String Response}

theorem requireAuth_refused {token : String} {resp : Response}
    (htoken : (getHeader "authorization" headers).bind ctx.toStr = some token)
    (hsend : send token = .ok resp) (hstatus : isSuccess resp.status = false) :
    requireAuth ctx headers send = .error (.unauthorized "invalid or expired token") := by
  simp only [requireAuth, htoken, hsend, authClientVerify, hstatus, if_true]
  rfl

/-- The user of the reply takes the place of whatever the client said of itself, and of its token. -/
theorem requireAuth_forwards (hctx : ctx.Documented) {token : String} {resp : Response} {body : Bytes}
    {user : VerifiedUser} (htoken : (getHeader "authorization" headers).bind ctx.toStr = some token)
    (hsend : send token = .ok resp) (hstatus : isSuccess resp.status = true) (hbody : resp.body = some body)
    (huser : decodeVerifiedUser body = some user) (hid : Printable (Bytes.utf8 user.userId))
    (hemail : Printable (Bytes.utf8 user.email)) :
    requireAuth ctx headers send = .ok (clearHeader "authorization"
      (putHeader "x-user-email" [Bytes.utf8 user.email]
        (putHeader "x-user-id" [Bytes.utf8 user.userId] headers))) := by
  have hverify : authClientVerify (send token) = .ok user := by
    simp only [hsend, authClientVerify, hstatus, hbody, Option.bind_some, huser, Bool.true_eq_false,
      if_false]
  have hset : ∀ (name text : String) (block : List Header), Printable (Bytes.utf8 text) →
      setHeader ctx name text block = .ok (putHeader name [Bytes.utf8 text] block) := by
    intro name text block htext
    rw [setHeader, hctx.writes text htext]
  simp only [requireAuth, htoken, hverify]
  show (setHeader ctx "x-user-id" user.userId headers >>= fun block =>
    setHeader ctx "x-user-email" user.email block >>= fun block =>
      .ok (clearHeader "authorization" block)) = _
  rw [hset _ _ _ hid]
  show (setHeader ctx "x-user-email" user.email _ >>= fun block =>
    .ok (clearHeader "authorization" block)) = _
  rw [hset _ _ _ hemail]
  rfl

end ApigateBenchmark.GatewayApigate
