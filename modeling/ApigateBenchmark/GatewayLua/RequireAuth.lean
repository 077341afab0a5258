import ApigateBenchmark.GatewayLua.Transforms

/-!
# The auth hooks of Kong and APISIX

`run` of the two `require_auth.lua`. The hooks trust the type of nothing they get: the body of the
verify reply is whatever cjson makes of it, and Lua finds out by indexing it. They differ in what the
two header interfaces do with a value that is `nil`: Kong's raises, nginx's removes the header. What
either does with a number, a boolean, a table or the `null` sentinel is the parameter `other`: the values
the header gets, or `none` if the call raises.
-/

namespace ApigateBenchmark.GatewayLua

open Json

abbrev Header := Bytes × Bytes

/-! ### Headers -/

def isNamed (name : String) (entry : Header) : Bool :=
  Bytes.lower entry.1 == Bytes.lower (Bytes.utf8 name)

def valuesOf (name : String) (headers : List Header) : List Bytes :=
  (headers.filter (isNamed name)).map Prod.snd

/-- `kong.request.get_header` and `ngx.var.http_...`: the first value. -/
def getHeader (name : String) (headers : List Header) : Option Bytes := (valuesOf name headers).head?

def clearHeader (name : String) (headers : List Header) : List Header :=
  headers.filter fun entry => !isNamed name entry

def putHeader (name : String) (values : List Bytes) (headers : List Header) : List Header :=
  clearHeader name headers ++ values.map fun value => (Bytes.utf8 name, value)

/-! ### Lua values -/

variable (doubles : Doubles)

def LuaValue.truthy : LuaValue doubles → Bool
  | .nil => false
  | .boolean value => value
  | _ => true

/-- `value.name`: indexing a string looks into the string library, and what is neither a string nor a
table raises. -/
def LuaValue.index (name : String) : LuaValue doubles → Option (LuaValue doubles)
  | .table array fields => some ((LuaValue.table array fields).get doubles name)
  | .string _ => some .nil
  | _ => none

/-! ### The hooks -/

/-- What `request_uri` returns with. -/
structure Reply where
  status : Nat
  body : Bytes

inductive Outcome where
  | exit (status : Nat) (error : String)
  | forward (headers : List Header)
  /-- A Lua error. -/
  | raised
  deriving DecidableEq

variable (cjson : Cjson doubles) (other : LuaValue doubles → Option (List Bytes))

/-- `kong.service.request.set_header`: the values the header gets. -/
def kongSetHeader : LuaValue doubles → Option (List Bytes)
  | .string value => some [value]
  | .nil => none
  | value => other value

/-- `ngx.req.set_header`: the values the header gets. -/
def ngxSetHeader : LuaValue doubles → Option (List Bytes)
  | .string value => some [value]
  | .nil => some []
  | value => other value

/-- The end of `M.run`, after the last test. -/
def injectIdentity (setHeader : LuaValue doubles → Option (List Bytes)) (headers : List Header)
    (userId email : LuaValue doubles) : Outcome :=
  match setHeader userId with
  | none => .raised
  | some userIds => match setHeader email with
      | none => .raised
      | some emails =>
          .forward (clearHeader "Authorization"
            (putHeader "x-user-email" emails (putHeader "x-user-id" userIds headers)))

/-- `M.run` from `cjson.decode` on. -/
def letThrough (setHeader : LuaValue doubles → Option (List Bytes)) (headers : List Header)
    (parsed : LuaValue doubles) : Outcome :=
  if parsed.truthy = false then .exit 401 "bad verify response"
  else match parsed.index doubles "user_id" with
    | none => .raised
    | some userId =>
        if userId.truthy = false then .exit 401 "bad verify response"
        else match parsed.index doubles "email" with
          | none => .raised
          | some email => injectIdentity doubles setHeader headers userId email

/-- `M.run`; `verify` is what comes of the call for an `Authorization` value, an error being the text of
the transport failure. -/
def runWith (setHeader : LuaValue doubles → Option (List Bytes)) (headers : List Header)
    (verify : Bytes → Except String Reply) : Outcome :=
  match getHeader "authorization" headers with
  | none => .exit 401 "missing authorization header"
  | some authorization => match verify authorization with
      | .error err => .exit 401 ("auth verify failed: " ++ err)
      | .ok reply =>
          if reply.status ≥ 300 then .exit 401 "invalid or expired token"
          else letThrough doubles setHeader headers ((cjson reply.body).getD .nil)

def kongRun (headers : List Header) (verify : Bytes → Except String Reply) : Outcome :=
  runWith doubles cjson (kongSetHeader doubles other) headers verify

def apisixRun (headers : List Header) (verify : Bytes → Except String Reply) : Outcome :=
  runWith doubles cjson (ngxSetHeader doubles other) headers verify

/-! ### Failing closed -/

/-- The two members of the decoded reply are those strings. -/
def Names (parsed : LuaValue doubles) (userId email : Bytes) : Prop :=
  parsed.get doubles "user_id" = .string userId ∧ parsed.get doubles "email" = .string email

/-- The request ended with 401, or went on under the identity of the reply and without the token. -/
def FailsClosed (parsed : LuaValue doubles) : Outcome → Prop
  | .exit status _ => status = 401
  | .forward headers => ∃ userId email, Names doubles parsed userId email ∧
      valuesOf "x-user-id" headers = [userId] ∧ valuesOf "x-user-email" headers = [email] ∧
      valuesOf "Authorization" headers = []
  | .raised => False

/-- The decoded reply is nothing Lua stumbles over: it is no value, `false` or a string, or a table
that has no `user_id` or has both members as strings. -/
def Handled : LuaValue doubles → Prop
  | .nil => True
  | .boolean value => value = false
  | .string _ => True
  | .table array fields =>
      ((LuaValue.table array fields).get doubles "user_id").truthy = false ∨
        ∃ userId email, Names doubles (.table array fields) userId email
  | _ => False

/-- The reply the hook got, if it came to the call and the call did not fail. -/
def replyTo (headers : List Header) (verify : Bytes → Except String Reply) : Option Reply :=
  (getHeader "authorization" headers).bind fun authorization => (verify authorization).toOption

/-- What cjson makes of the reply. -/
def parsedReply (headers : List Header) (verify : Bytes → Except String Reply) : LuaValue doubles :=
  ((replyTo headers verify).bind fun reply => cjson reply.body).getD .nil

/-- A reply below 300 decodes to something the hook can handle. -/
def ReplyHandled (headers : List Header) (verify : Bytes → Except String Reply) : Prop :=
  ∀ reply ∈ replyTo headers verify, reply.status < 300 → Handled doubles ((cjson reply.body).getD .nil)

/-! ### The headers sent on -/

theorem valuesOf_putHeader (name : String) (values : List Bytes) (headers : List Header) :
    valuesOf name (putHeader name values headers) = values := by
  have hnone : (clearHeader name headers).filter (isNamed name) = [] := by
    rw [clearHeader, List.filter_filter, List.filter_eq_nil_iff]
    simp
  have hall : (values.map fun value => (Bytes.utf8 name, value)).filter (isNamed name) =
      values.map fun value => (Bytes.utf8 name, value) := by
    rw [List.filter_eq_self]
    intro entry hentry
    obtain ⟨value, -, rfl⟩ := List.mem_map.mp hentry
    exact beq_self_eq_true _
  rw [valuesOf, putHeader, List.filter_append, hnone, hall, List.nil_append, List.map_map]
  exact List.map_id' values

/-- Headers of another name are not touched. -/
theorem valuesOf_clearHeader_of_ne {name cleared : String}
    (hne : Bytes.lower (Bytes.utf8 name) ≠ Bytes.lower (Bytes.utf8 cleared)) (headers : List Header) :
    valuesOf name (clearHeader cleared headers) = valuesOf name headers := by
  have hkeep : ∀ entry : Header, isNamed name entry = true → (!isNamed cleared entry) = true := by
    intro entry hname
    rw [isNamed, beq_iff_eq] at hname
    simpa [isNamed, hname] using hne
  rw [valuesOf, valuesOf, clearHeader, List.filter_filter]
  congr 1
  refine List.filter_congr fun entry _ => ?_
  cases hname : isNamed name entry with
  | false => rfl
  | true => rw [hkeep entry hname, Bool.and_true]

theorem valuesOf_putHeader_of_ne {name put : String}
    (hne : Bytes.lower (Bytes.utf8 name) ≠ Bytes.lower (Bytes.utf8 put)) (values : List Bytes)
    (headers : List Header) : valuesOf name (putHeader put values headers) = valuesOf name headers := by
  have hnone : (values.map fun value => (Bytes.utf8 put, value)).filter (isNamed name) = [] := by
    rw [List.filter_eq_nil_iff]
    intro entry hentry
    obtain ⟨value, -, rfl⟩ := List.mem_map.mp hentry
    simpa [isNamed] using hne.symm
  rw [valuesOf, putHeader, List.filter_append, hnone, List.append_nil]
  exact valuesOf_clearHeader_of_ne hne headers

theorem valuesOf_clearHeader (name : String) (headers : List Header) :
    valuesOf name (clearHeader name headers) = [] := by
  rw [valuesOf, clearHeader, List.filter_filter, List.map_eq_nil_iff, List.filter_eq_nil_iff]
  simp

/-- The values under the two names once both are set and the token is cleared. -/
theorem valuesOf_injected (userIds emails : List Bytes) (headers : List Header) :
    valuesOf "x-user-id" (clearHeader "Authorization"
        (putHeader "x-user-email" emails (putHeader "x-user-id" userIds headers))) = userIds ∧
      valuesOf "x-user-email" (clearHeader "Authorization"
        (putHeader "x-user-email" emails (putHeader "x-user-id" userIds headers))) = emails := by
  have hdiffer : Bytes.lower (Bytes.utf8 "x-user-id") ≠ Bytes.lower (Bytes.utf8 "x-user-email") := by
    decide +kernel
  have htoken : Bytes.lower (Bytes.utf8 "x-user-id") ≠ Bytes.lower (Bytes.utf8 "Authorization") := by
    decide +kernel
  have htoken' : Bytes.lower (Bytes.utf8 "x-user-email") ≠ Bytes.lower (Bytes.utf8 "Authorization") := by
    decide +kernel
  constructor
  · rw [valuesOf_clearHeader_of_ne htoken, valuesOf_putHeader_of_ne hdiffer, valuesOf_putHeader]
  · rw [valuesOf_clearHeader_of_ne htoken', valuesOf_putHeader]

/-! ### When the hooks fail closed -/

/-- With two strings the identity is set and the token gone; without, whatever is sent on is wrong. -/
theorem injectIdentity_failsClosed_iff {setHeader : LuaValue doubles → Option (List Bytes)}
    (hstring : ∀ value, setHeader (.string value) = some [value]) (headers : List Header)
    (parsed : LuaValue doubles) :
    FailsClosed doubles parsed (injectIdentity doubles setHeader headers (parsed.get doubles "user_id")
        (parsed.get doubles "email")) ↔ ∃ userId email, Names doubles parsed userId email := by
  constructor
  · intro h
    rw [injectIdentity] at h
    split at h
    · exact h.elim
    · split at h
      · exact h.elim
      · obtain ⟨userId, email, hnames, -⟩ := h
        exact ⟨userId, email, hnames⟩
  · rintro ⟨userId, email, huser, hemail⟩
    obtain ⟨huserIds, hemails⟩ := valuesOf_injected [userId] [email] headers
    rw [injectIdentity, huser, hemail, hstring, hstring]
    exact ⟨userId, email, ⟨huser, hemail⟩, huserIds, hemails, valuesOf_clearHeader _ _⟩

theorem letThrough_table (setHeader : LuaValue doubles → Option (List Bytes)) (headers : List Header)
    (array : List (LuaValue doubles)) (fields : List (Bytes × LuaValue doubles)) :
    letThrough doubles setHeader headers (.table array fields) =
      if ((LuaValue.table array fields).get doubles "user_id").truthy = false then
        .exit 401 "bad verify response"
      else injectIdentity doubles setHeader headers ((LuaValue.table array fields).get doubles "user_id")
        ((LuaValue.table array fields).get doubles "email") := rfl

theorem letThrough_failsClosed_iff {setHeader : LuaValue doubles → Option (List Bytes)}
    (hstring : ∀ value, setHeader (.string value) = some [value]) (headers : List Header)
    (parsed : LuaValue doubles) :
    FailsClosed doubles parsed (letThrough doubles setHeader headers parsed) ↔ Handled doubles parsed := by
  cases parsed with
  | nil => exact iff_of_true rfl trivial
  | userdata => exact iff_of_false not_false not_false
  | number value => exact iff_of_false not_false not_false
  | string value => exact iff_of_true rfl trivial
  | boolean value => cases value with
    | false => exact iff_of_true rfl rfl
    | true => exact iff_of_false not_false (by simp [Handled])
  | table array fields =>
      have hinject := injectIdentity_failsClosed_iff doubles hstring headers (.table array fields)
      rw [letThrough_table, Handled]
      cases huser : ((LuaValue.table array fields).get doubles "user_id").truthy with
      | false =>
          rw [if_pos rfl]
          exact iff_of_true rfl (Or.inl rfl)
      | true =>
          rw [if_neg (by simp), hinject]
          exact (or_iff_right (by simp)).symm

theorem runWith_failsClosed_iff {setHeader : LuaValue doubles → Option (List Bytes)}
    (hstring : ∀ value, setHeader (.string value) = some [value]) (headers : List Header)
    (verify : Bytes → Except String Reply) :
    FailsClosed doubles (parsedReply doubles cjson headers verify)
        (runWith doubles cjson setHeader headers verify) ↔ ReplyHandled doubles cjson headers verify := by
  rw [runWith, parsedReply, ReplyHandled, replyTo]
  cases getHeader "authorization" headers with
  | none => exact iff_of_true rfl (by simp)
  | some authorization =>
      dsimp only [Option.bind_some]
      cases verify authorization with
      | error err => exact iff_of_true rfl (by simp [Except.toOption])
      | ok reply =>
          simp only [Except.toOption, Option.bind_some, Option.mem_some_iff, forall_eq']
          by_cases hstatus : reply.status ≥ 300
          · rw [if_pos hstatus]
            exact iff_of_true rfl fun hbelow => absurd hstatus (by omega)
          · rw [if_neg hstatus, letThrough_failsClosed_iff doubles hstring]
            exact (imp_iff_right (by omega)).symm

/-- What the two header interfaces make of a reply that leaves the email out. -/
theorem letThrough_without_email (headers : List Header) {array : List (LuaValue doubles)}
    {fields : List (Bytes × LuaValue doubles)} {userId : Bytes}
    (huser : (LuaValue.table array fields).get doubles "user_id" = .string userId)
    (hemail : (LuaValue.table array fields).get doubles "email" = .nil) :
    letThrough doubles (kongSetHeader doubles other) headers (.table array fields) = .raised ∧
      ∃ sent, letThrough doubles (ngxSetHeader doubles other) headers (.table array fields) = .forward sent ∧
        valuesOf "x-user-id" sent = [userId] ∧ valuesOf "x-user-email" sent = [] := by
  have htruthy : ¬ (LuaValue.string userId : LuaValue doubles).truthy = false := by simp [LuaValue.truthy]
  rw [letThrough_table, letThrough_table, huser, hemail, if_neg htruthy, if_neg htruthy]
  exact ⟨rfl, _, rfl, valuesOf_injected [userId] [] headers⟩

/-- Each hook fails closed exactly when the reply it takes for a success decodes to nothing Lua stumbles
over, and to two strings where there is a `user_id`. -/
theorem require_auth_fails_closed_iff (headers : List Header) (verify : Bytes → Except String Reply) :
    (FailsClosed doubles (parsedReply doubles cjson headers verify)
        (kongRun doubles cjson other headers verify) ↔ ReplyHandled doubles cjson headers verify) ∧
      (FailsClosed doubles (parsedReply doubles cjson headers verify)
        (apisixRun doubles cjson other headers verify) ↔ ReplyHandled doubles cjson headers verify) :=
  ⟨runWith_failsClosed_iff doubles cjson (fun _ => rfl) headers verify,
    runWith_failsClosed_iff doubles cjson (fun _ => rfl) headers verify⟩

/-- A client's request with a token and an address of its own. -/
def spoofingHeaders : List Header :=
  [(Bytes.utf8 "Authorization", Bytes.utf8 "Bearer t"), (Bytes.utf8 "x-user-email", Bytes.utf8 "a@b")]

/-- A reply that names the user and leaves the email out. -/
def namelessReply : Reply := ⟨200, Bytes.utf8 "\x7b\"user_id\":\"u1\"\x7d"⟩

def namelessTree : Value := .obj [((Bytes.utf8 "user_id").map .raw, .str ((Bytes.utf8 "u1").map .raw))]

def namelessFields : List (Bytes × LuaValue decimals) :=
  [(Bytes.utf8 "user_id", .string (Bytes.utf8 "u1"))]

/-- A reply without an email makes Kong raise. -/
theorem require_auth_without_email :
    ¬ ∀ (doubles : Doubles) (cjson : Cjson doubles) (other : LuaValue doubles → Option (List Bytes))
        (headers : List Header) (verify : Bytes → Except String Reply),
      FailsClosed doubles (parsedReply doubles cjson headers verify)
          (kongRun doubles cjson other headers verify) ∧
        FailsClosed doubles (parsedReply doubles cjson headers verify)
          (apisixRun doubles cjson other headers verify) := by
  intro h
  have huser : (LuaValue.table [] namelessFields).get decimals "user_id" = .string (Bytes.utf8 "u1") := rfl
  have hemail : (LuaValue.table [] namelessFields).get decimals "email" = .nil := rfl
  have hheader : getHeader "authorization" spoofingHeaders = some (Bytes.utf8 "Bearer t") := by
    decide +kernel
  have hstatus : ¬ namelessReply.status ≥ 300 := by decide
  -- for any decoder, as nothing evaluates a concrete one beside its value
  have hopen : ∀ cjson : Cjson decimals, cjson namelessReply.body = some (.table [] namelessFields) →
      ¬ ∀ (headers : List Header) (verify : Bytes → Except String Reply),
        FailsClosed decimals (parsedReply decimals cjson headers verify)
          (kongRun decimals cjson (fun _ => none) headers verify) := by
    intro cjson hparsed hclosed
    have hraised := hclosed spoofingHeaders fun _ => .ok namelessReply
    rw [kongRun, runWith, hheader] at hraised
    change FailsClosed decimals _ (if namelessReply.status ≥ 300 then _ else _) at hraised
    rw [if_neg hstatus, hparsed, Option.getD_some, letThrough_table, huser, hemail] at hraised
    exact hraised
  have hparse : parse namelessReply.body = some namelessTree := rfl
  have hvalue : toLua decimals namelessTree = some (.table [] namelessFields) := rfl
  have hparsed : strictCjson namelessReply.body = some (.table [] namelessFields) :=
    strictCjson_decodes.decodes _ _ _ hparse (by decide) hvalue
  exact hopen strictCjson hparsed fun headers verify =>
    (h decimals strictCjson (fun _ => none) headers verify).1

end ApigateBenchmark.GatewayLua
