import ApigateBenchmark.Contract.PrivateListings
import ApigateBenchmark.GatewayApigate.RequireAuth

/-!
# `GET /my-items` through each of the four gateways

The hooks differ in how they read a header, in what they take for a success and in how they decode the
reply. On the replies of auth-service none of this shows: either all four send the request on under the
identity of one user, the one a `Login` of the run signed the token for, or all four answer 401.

Each gateway asks on its own. The `Cookie` entry that the client session of the Python gateway may add is
left out here; no service reads it.
-/

namespace ApigateBenchmark.AuthService

variable {jwt : Jwt} {issuer : Issuer} {now : Time}

/-- A token is three words of base64url with dots between them, so it is printable. -/
def Jwt.ParsesVisible (jwt : Jwt) : Prop :=
  ∀ secret now raw parsed, jwt.parseWithClaims secret now raw = .ok parsed → Bytes.IsVisible raw

theorem verify_accepts {raw : GoString} {claims : Claims} (hraw : raw ≠ [])
    (hdecode : issuer.decode jwt now raw = .ok claims) (hsubject : claims.subject ≠ [])
    (hemail : claims.email ≠ []) :
    verify jwt issuer now (bearerPrefix ++ raw) = ⟨200, .verified claims.subject claims.email⟩ := by
  have hprefix : bearerPrefix.isPrefixOf (bearerPrefix ++ raw) = true :=
    List.isPrefixOf_iff_prefix.mpr (List.prefix_append _ _)
  rw [verify, if_neg (by simp [hraw, hprefix]), List.drop_left, hdecode]
  simp only [if_neg (not_or.mpr ⟨hsubject, hemail⟩)]

/-- `Verify` answers 200 to a printable bearer token that decodes, and 401 to everything else. -/
theorem verify_cases (hvisible : jwt.ParsesVisible) (auth : Bytes) :
    (∃ raw claims, Bytes.IsVisible raw ∧ auth = bearerPrefix ++ raw ∧
        issuer.decode jwt now raw = .ok claims ∧
        verify jwt issuer now auth = ⟨200, .verified claims.subject claims.email⟩) ∨
      (verify jwt issuer now auth).status = 401 := by
  by_cases hstatus : (verify jwt issuer now auth).status = 200
  · obtain ⟨raw, claims, hauth, hdecode, hverify⟩ := verify_status hstatus
    obtain ⟨parsed, hparse, -⟩ := Issuer.decode_ok hdecode
    exact .inl ⟨raw, claims, hvisible _ _ _ _ hparse, hauth, hdecode, hverify⟩
  · right
    rw [verify] at hstatus ⊢
    split
    · rfl
    · rename_i hbearer
      rw [if_neg hbearer] at hstatus
      split
      · rfl
      · rfl
      · rename_i claims hdecode
        rw [hdecode] at hstatus
        simp only at hstatus
        split
        · rfl
        · rename_i hnamed
          rw [if_neg hnamed] at hstatus
          exact absurd rfl hstatus

end ApigateBenchmark.AuthService

namespace ApigateBenchmark.Contract

open Coroutine GatewayPython Json
open GatewayLua (Doubles Cjson LuaValue DecodesJson getHeader putHeader clearHeader valuesOf)

/-! ### The four hooks -/

inductive Gateway where
  | python
  | apigate
  | kong
  | apisix

/-- What the gateways are built on. -/
structure Gateways where
  settings : Settings
  msgspec : Msgspec
  decoders : Decoders
  writes : String → Bool
  ctx : GatewayApigate.PartsCtx
  doubles : Doubles
  cjson : Cjson doubles
  other : LuaValue doubles → Option (List Bytes)

structure Gateways.Documented (g : Gateways) : Prop where
  verify : g.decoders.DecodesVerify g.msgspec
  writes : WritesPrintable g.writes
  ctx : g.ctx.Documented
  cjson : DecodesJson g.doubles g.cjson

/-- What becomes of the client's request. -/
inductive Ruling where
  /-- data-service gets this one. -/
  | passed (request : DataService.Request)
  | refused (status : Nat)
  | failed

/-- The header block as the server at the other end parses it. -/
def arrive (headers : List Header) : DataService.Request :=
  ⟨headers.map fun entry => (entry.1, trimOws entry.2), []⟩

def myItemsScope (headers : List Header) : Scope := ⟨"GET", "/my-items", headers⟩

/-- What the auth client of the Python gateway is told, if auth-service answers every call that reaches
it. -/
def answeredWorld (g : Gateways) (answer : Bytes → AuthService.Response) (authorization : String) : World :=
  let call := verifyRequest g.settings authorization
  if Serializable g.writes call then
    let reply := answer ((transmit call).peek (Bytes.utf8 "Authorization"))
    { verifyHead := some (.ok ⟨reply.status, []⟩), verifyBody := some (.ok reply.payload.marshal) }
  else { verifyHead := some (.error (.valueError "")) }

def pythonRules (g : Gateways) (answer : Bytes → AuthService.Response) (headers : List Header) : Ruling :=
  let world := ((extractAuthorization (myItemsScope headers)).map (answeredWorld g answer)).getD {}
  match decision g.settings g.decoders (myItemsScope headers) world with
  | .answer status _ => .refused status
  | .forward request => if Serializable g.writes request then .passed (transmit request) else .failed
  | _ => .failed

def apigateReply (answer : Bytes → AuthService.Response) (token : String) :
    Except String GatewayApigate.Response :=
  let reply := answer (trimOws (Bytes.utf8 token))
  .ok ⟨reply.status, some reply.payload.marshal⟩

def apigateRules (g : Gateways) (answer : Bytes → AuthService.Response) (headers : List Header) : Ruling :=
  match GatewayApigate.requireAuth g.ctx headers (apigateReply answer) with
  | .ok headers => .passed (arrive headers)
  | .error (.unauthorized _) => .refused 401
  | .error .invalidHeader => .failed

def ofOutcome : GatewayLua.Outcome → Ruling
  | .exit status _ => .refused status
  | .forward headers => .passed (arrive headers)
  | .raised => .failed

def luaReply (answer : Bytes → AuthService.Response) (authorization : Bytes) :
    Except String GatewayLua.Reply :=
  let reply := answer (trimOws authorization)
  .ok ⟨reply.status, reply.payload.marshal⟩

/-- What the gateway does with a `GET /my-items`, if auth-service answers every `Authorization` with
`answer`. -/
def Gateways.rules (g : Gateways) (answer : Bytes → AuthService.Response) (headers : List Header) :
    Gateway → Ruling
  | .python => pythonRules g answer headers
  | .apigate => apigateRules g answer headers
  | .kong => ofOutcome (GatewayLua.kongRun g.doubles g.cjson g.other headers (luaReply answer))
  | .apisix => ofOutcome (GatewayLua.apisixRun g.doubles g.cjson g.other headers (luaReply answer))

/-- aiohttp writes the values of the client's headers. -/
def WritesValues (writes : String → Bool) (headers : List Header) : Prop :=
  ∀ entry ∈ headers, writes (Bytes.latin1 entry.2) = true

theorem WritesValues.passesOn {writes : String → Bool} {headers : List Header}
    (h : WritesValues writes headers) : PassesOn writes (myItemsScope headers) := by
  intro entry hentry _ _
  obtain ⟨entry, hmem, rfl⟩ := List.mem_map.mp hentry
  exact h entry (List.mem_filter.mp hmem).1

/-- The request names one user, and holds no token. -/
structure Identifies (request : DataService.Request) (userId email : Bytes) : Prop where
  userId : request.values (Bytes.utf8 "X-User-Id") = [userId]
  email : request.values (Bytes.utf8 "X-User-Email") = [trimOws email]
  authorization : request.values (Bytes.utf8 "Authorization") = []

/-! ### The one authorization -/

/-- In a lower-case block the four take the same entry for the authorization. -/
theorem getHeader_authorization {headers : List Header} (hlower : (myItemsScope headers).LowerNames) :
    extractAuthorization (myItemsScope headers) = (getHeader "authorization" headers).map Bytes.latin1 := by
  have hname : Bytes.lower (Bytes.utf8 "authorization") = Bytes.utf8 "authorization" := by decide
  have hsame : ∀ entry ∈ headers, (entry.1 == Bytes.utf8 "authorization") =
      GatewayLua.isNamed "authorization" entry := by
    intro entry hentry
    rw [GatewayLua.isNamed, hname, hlower entry hentry]
  have hfind : headers.find? (fun entry => entry.1 == Bytes.utf8 "authorization") =
      headers.find? (GatewayLua.isNamed "authorization") := by
    clear hlower
    induction headers with
    | nil => rfl
    | cons entry headers ih =>
        rw [List.find?_cons, List.find?_cons, hsame entry List.mem_cons_self,
          ih fun other hother => hsame other (List.mem_cons_of_mem _ hother)]
  rw [extractAuthorization, myItemsScope, hfind, getHeader, valuesOf, List.head?_map,
    List.head?_filter, Option.map_map]
  rfl

/-! ### The value on its way -/

theorem mem_dropWhile_or {p : UInt8 → Bool} {x : UInt8} {l : Bytes} (h : x ∈ l) :
    x ∈ l.dropWhile p ∨ p x = true := by
  induction l with
  | nil => exact absurd h List.not_mem_nil
  | cons y l ih =>
      rw [List.dropWhile_cons]
      split
      · rename_i hy
        obtain rfl | hrest := List.mem_cons.mp h
        · exact .inr hy
        · exact ih hrest
      · exact .inl h

theorem mem_trimOws_or {x : UInt8} {value : Bytes} (h : x ∈ value) :
    x ∈ trimOws value ∨ isOws x = true := by
  obtain hleft | hows := mem_dropWhile_or (p := isOws) h
  · obtain hright | hows := mem_dropWhile_or (p := isOws) (List.mem_reverse.mpr hleft)
    · exact .inl (List.mem_reverse.mpr hright)
    · exact .inr hows
  · exact .inr hows

/-- A value that comes down to a printable bearer token is printable itself. -/
theorem printable_of_trimOws {value raw : Bytes} (hraw : Bytes.IsVisible raw)
    (htrim : trimOws value = AuthService.bearerPrefix ++ raw) :
    ∀ x ∈ value, x = 0x09 ∨ 0x20 ≤ x ∧ x < 0x7f := by
  intro x hx
  obtain hmem | hows := mem_trimOws_or hx
  · rw [htrim] at hmem
    exact .inr (printable_bearer hraw x hmem)
  · rw [isOws, Bool.or_eq_true, beq_iff_eq, beq_iff_eq] at hows
    obtain rfl | rfl := hows
    · exact .inr (by decide)
    · exact .inl rfl

theorem isAscii_of_trimOws {value raw : Bytes} (hraw : Bytes.IsVisible raw)
    (htrim : trimOws value = AuthService.bearerPrefix ++ raw) : Bytes.IsAscii value := by
  intro x hx
  obtain rfl | ⟨-, hlow⟩ := printable_of_trimOws hraw htrim x hx
  · decide
  · have hlow := UInt8.lt_iff_toNat_lt.mp hlow
    exact UInt8.lt_iff_toNat_lt.mpr (Nat.lt_trans hlow (by decide))

/-- A byte above ASCII does not become ASCII on the way through the Python gateway. -/
theorem isAscii_of_utf8_latin1 {value : Bytes} (h : Bytes.IsAscii (Bytes.utf8 (Bytes.latin1 value))) :
    Bytes.IsAscii value := by
  intro x hx
  by_contra hbig
  have hchar : Char.ofNat x.toNat ∈ (Bytes.latin1 value).toList := (Bytes.mem_latin1_iff x value).mpr hx
  have hcode : (Char.ofNat x.toNat).toNat = x.toNat := by
    have hvalid : x.toNat.isValidChar := .inl (Nat.lt_trans x.toNat_lt (by decide))
    rw [Char.ofNat, dif_pos hvalid]
    rfl
  obtain ⟨y, hy⟩ := List.exists_mem_of_ne_nil _ (List.ne_nil_of_length_pos
    (String.length_utf8EncodeChar (c := Char.ofNat x.toNat) ▸ Char.utf8Size_pos _))
  have hlow := h y (List.mem_flatMap.mpr ⟨_, hchar, hy⟩)
  have hx80 : 0x7f < (Char.ofNat x.toNat).toNat := by
    rw [hcode]
    have := mt UInt8.lt_iff_toNat_lt.mpr hbig
    simp at this
    omega
  have hhigh := Bytes.le_of_mem_utf8EncodeChar hx80 hy
  exact absurd hlow (UInt8.not_lt.mpr hhigh)

theorem values_arrive (name : String) {spelled : String}
    (hname : Bytes.lower (Bytes.utf8 spelled) = Bytes.lower (Bytes.utf8 name)) (headers : List Header) :
    (arrive headers).values (Bytes.utf8 spelled) = (valuesOf name headers).map trimOws := by
  rw [DataService.Request.values, arrive, valuesOf, List.filter_map, List.map_map, List.map_map, hname]
  rfl

/-! ### The reply of `Verify` -/

theorem decodeVerifiedUser_marshal (userID email : String) :
    GatewayApigate.decodeVerifiedUser
      (AuthService.Payload.verified (Bytes.utf8 userID) (Bytes.utf8 email)).marshal =
        some ⟨userID, email⟩ := by
  obtain ⟨first, second, hparse, hid, hemail⟩ := verified_members userID email
  obtain ⟨hfirst, hfirst', hsecond, hsecond'⟩ := verified_keys hid hemail
  simp only [GatewayApigate.decodeVerifiedUser, hparse, GatewayApigate.readOnce, List.filter_cons, hfirst,
    hfirst', hsecond, hsecond', if_true, Bool.false_eq_true, if_false, List.filter_nil,
    GatewayApigate.readString_of_denotes hid, GatewayApigate.readString_of_denotes hemail,
    Option.bind_eq_bind, Option.bind_some]

theorem cjson_marshal {doubles : Doubles} {cjson : Cjson doubles} (hcjson : DecodesJson doubles cjson)
    (userID email : String) : ∃ fields,
    cjson (AuthService.Payload.verified (Bytes.utf8 userID) (Bytes.utf8 email)).marshal =
        some (.table [] fields) ∧
      GatewayLua.Names doubles (.table [] fields) (Bytes.utf8 userID) (Bytes.utf8 email) := by
  obtain ⟨⟨idKey, idValue⟩, ⟨emailKey, emailValue⟩, hparse, hid, hemail⟩ := verified_members userID email
  obtain ⟨idLit, rfl, hidLit⟩ := eq_str_of_denoted hid.value
  obtain ⟨emailLit, rfl, hemailLit⟩ := eq_str_of_denoted hemail.value
  have hidName : idKey.decoded = some "user_id" := hid.name
  have hemailName : emailKey.decoded = some "email" := hemail.name
  have hne : (Bytes.utf8 "user_id" == Bytes.utf8 "email") = false := by decide
  have hne' : (Bytes.utf8 "email" == Bytes.utf8 "user_id") = false := by decide
  refine ⟨[(Bytes.utf8 "user_id", .string (Bytes.utf8 userID)),
    (Bytes.utf8 "email", .string (Bytes.utf8 email))], hcjson.decodes _ _ _ hparse ?_ ?_, ?_, ?_⟩
  · simp [Value.depth, membersDepth, GatewayLua.decodeMaxDepth]
  · simp only [GatewayLua.toLua, GatewayLua.membersToLua, hidName, hemailName, hidLit, hemailLit,
      Option.map_some, Option.bind_eq_bind, Option.bind_some]
  · simp only [LuaValue.get, List.filter_cons, List.filter_nil, beq_self_eq_true, hne', if_true,
      Bool.false_eq_true, if_false]
    rfl
  · simp only [LuaValue.get, List.filter_cons, List.filter_nil, beq_self_eq_true, hne, if_true,
      Bool.false_eq_true, if_false]
    rfl

/-! ### Each gateway on each answer -/

variable {g : Gateways} {answer : Bytes → AuthService.Response} {headers : List Header} {value : Bytes}

theorem python_world (g : Gateways) (answer : Bytes → AuthService.Response)
    (hlower : (myItemsScope headers).LowerNames) (hpasses : WritesValues g.writes headers)
    (hvalue : getHeader "authorization" headers = some value) :
    extractAuthorization (myItemsScope headers) = some (Bytes.latin1 value) ∧
      answeredWorld g answer (Bytes.latin1 value) =
        { verifyHead := some (.ok ⟨(answer (trimOws (Bytes.utf8 (Bytes.latin1 value)))).status, []⟩)
          verifyBody :=
            some (.ok (answer (trimOws (Bytes.utf8 (Bytes.latin1 value)))).payload.marshal) } := by
  have hname : Bytes.lower (Bytes.utf8 "Authorization") = Bytes.utf8 "authorization" := by decide
  have hkey : Bytes.lowerText "Authorization" = "authorization" := by decide
  have hpeek : (transmit (verifyRequest g.settings (Bytes.latin1 value))).peek (Bytes.utf8 "Authorization") =
      trimOws (Bytes.utf8 (Bytes.latin1 value)) := by
    rw [DataService.Request.peek, values_transmit hname, verifyRequest, named_cons_of_pos hkey, List.map_cons,
      List.headD_cons]
  have hserializable : Serializable g.writes (verifyRequest g.settings (Bytes.latin1 value)) := by
    intro entry hentry
    obtain rfl := List.mem_singleton.mp hentry
    obtain ⟨entry, hmem, rfl⟩ := List.mem_map.mp (List.mem_of_mem_head? hvalue)
    exact hpasses entry (List.mem_filter.mp hmem).1
  constructor
  · rw [getHeader_authorization hlower, hvalue, Option.map_some]
  · simp only [answeredWorld, if_pos hserializable, hpeek]

theorem decision_myItems (g : Gateways) (headers : List Header) (world : World) :
    decision g.settings g.decoders (myItemsScope headers) world =
      myItemsDecision g.settings g.decoders (myItemsScope headers) world := by
  rw [decision, if_neg (by simp [myItemsScope]), if_pos ⟨rfl, rfl⟩]

theorem python_refuses (hlower : (myItemsScope headers).LowerNames)
    (hpasses : WritesValues g.writes headers) (hvalue : getHeader "authorization" headers = some value)
    (hstatus : (answer (trimOws (Bytes.utf8 (Bytes.latin1 value)))).status = 401) :
    g.rules answer headers .python = .refused 401 := by
  obtain ⟨hextract, hworld⟩ := python_world g answer hlower hpasses hvalue
  have hdecision : decision g.settings g.decoders (myItemsScope headers)
      (answeredWorld g answer (Bytes.latin1 value)) = .answer 401 "invalid or expired token" := by
    rw [decision_myItems, myItemsDecision, hextract, if_neg (by simp), verdict, hworld]
    simp only [hstatus]
    rfl
  rw [Gateways.rules, pythonRules, hextract, Option.map_some, Option.getD_some]
  simp only [hdecision]

theorem python_passes (hg : g.Documented) (hlower : (myItemsScope headers).LowerNames)
    (hpasses : WritesValues g.writes headers) (hvalue : getHeader "authorization" headers = some value)
    {userID : Bytes} (hid : Bytes.IsVisible userID) {email : String}
    (hemail : GatewayApigate.Printable (Bytes.utf8 email))
    (hreply : answer (trimOws (Bytes.utf8 (Bytes.latin1 value))) =
      ⟨200, .verified userID (Bytes.utf8 email)⟩) :
    ∃ request, g.rules answer headers .python = .passed request ∧
      Identifies request userID (Bytes.utf8 email) := by
  obtain ⟨hextract, hworld⟩ := python_world g answer hlower hpasses hvalue
  rw [hreply] at hworld
  have hdecoded := verify_marshal hg.verify hid email
  have hdecision : decision g.settings g.decoders (myItemsScope headers)
      (answeredWorld g answer (Bytes.latin1 value)) =
        .forward (myItemsRequest g.settings (myItemsScope headers) ⟨Bytes.latin1 userID, email⟩) := by
    rw [decision_myItems, myItemsDecision, hextract, if_neg (by simp), verdict, hworld]
    simp only [ne_eq, not_true_eq_false, if_false, verdictOnBody, hdecoded]
  have hserializable : Serializable g.writes
      (myItemsRequest g.settings (myItemsScope headers) ⟨Bytes.latin1 userID, email⟩) :=
    (serializable_myItemsRequest_iff _ _ _ _).mpr
      ⟨hg.writes.printable _ hemail, hg.writes.latin1 hid, hpasses.passesOn⟩
  refine ⟨transmit (myItemsRequest g.settings (myItemsScope headers) ⟨Bytes.latin1 userID, email⟩), ?_,
    values_myItemsRequest g.settings _ hid email, ?_, ?_⟩
  · rw [Gateways.rules, pythonRules, hextract, Option.map_some, Option.getD_some]
    simp only [hdecision, if_pos hserializable]
  · have hname : Bytes.lower (Bytes.utf8 "X-User-Email") = Bytes.utf8 "x-user-email" := by decide
    rw [values_transmit hname, (named_myItemsRequest g.settings hlower _).2.1]
    rfl
  · have hname : Bytes.lower (Bytes.utf8 "Authorization") = Bytes.utf8 "authorization" := by decide
    rw [values_transmit hname, (named_myItemsRequest g.settings hlower _).2.2]
    rfl

/-- The two identity headers set and the token cleared, as data-service gets them. -/
theorem identifies_injected {userID : Bytes} (hid : Bytes.IsVisible userID) (email : Bytes)
    (headers : List Header) : Identifies (arrive (clearHeader "Authorization"
      (putHeader "x-user-email" [email] (putHeader "x-user-id" [userID] headers)))) userID email := by
  obtain ⟨huserId, hemail⟩ := GatewayLua.valuesOf_injected [userID] [email] headers
  constructor
  · rw [values_arrive "x-user-id" (by decide), huserId, List.map_singleton,
      trimOws_of_visible hid]
  · rw [values_arrive "x-user-email" (by decide), hemail]
    rfl
  · rw [values_arrive "Authorization" rfl, GatewayLua.valuesOf_clearHeader]
    rfl

/-- Names are cleared in any spelling. -/
theorem clearHeader_authorization (headers : List Header) :
    clearHeader "authorization" headers = clearHeader "Authorization" headers := by
  have hname : Bytes.lower (Bytes.utf8 "authorization") = Bytes.lower (Bytes.utf8 "Authorization") := by
    decide
  simp only [clearHeader, GatewayLua.isNamed, hname]

theorem apigate_refuses (hctx : g.ctx.Documented) (hvalue : getHeader "authorization" headers = some value)
    (hstatus : (answer (trimOws value)).status = 401) : g.rules answer headers .apigate = .refused 401 := by
  rw [Gateways.rules, apigateRules]
  cases htext : g.ctx.toStr value with
  | none => simp only [GatewayApigate.requireAuth, hvalue, Option.bind_some, htext]
  | some text =>
      have htoken : (getHeader "authorization" headers).bind g.ctx.toStr = some text := by
        rw [hvalue, Option.bind_some, htext]
      have hread := hctx.read value text htext
      rw [GatewayApigate.requireAuth_refused htoken rfl (by rw [hread, hstatus]; rfl)]

theorem apigate_passes (hctx : g.ctx.Documented) (hvalue : getHeader "authorization" headers = some value)
    (hprintable : ∀ x ∈ value, x = 0x09 ∨ 0x20 ≤ x ∧ x < 0x7f) {userID : Bytes}
    (hid : Bytes.IsVisible userID) {email : String} (hemail : GatewayApigate.Printable (Bytes.utf8 email))
    (hreply : answer (trimOws value) = ⟨200, .verified userID (Bytes.utf8 email)⟩) :
    ∃ request, g.rules answer headers .apigate = .passed request ∧
      Identifies request userID (Bytes.utf8 email) := by
  obtain ⟨text, htext⟩ := hctx.reads value hprintable
  have htoken : (getHeader "authorization" headers).bind g.ctx.toStr = some text := by
    rw [hvalue, Option.bind_some, htext]
  have huser := decodeVerifiedUser_marshal (Bytes.latin1 userID) email
  rw [hid.utf8_latin1] at huser
  have hidText : GatewayApigate.Printable (Bytes.utf8 (Bytes.latin1 userID)) := by
    rw [hid.utf8_latin1]
    exact fun x hx => ⟨UInt8.le_of_lt (hid.visible x hx).1, (hid.visible x hx).2⟩
  have hsend : apigateReply answer text =
      .ok ⟨200, some (AuthService.Payload.verified userID (Bytes.utf8 email)).marshal⟩ := by
    simp only [apigateReply, hctx.read value text htext, hreply]
  have hforwards := GatewayApigate.requireAuth_forwards hctx htoken hsend rfl rfl huser hidText hemail
  rw [hid.utf8_latin1, clearHeader_authorization] at hforwards
  refine ⟨_, ?_, identifies_injected hid (Bytes.utf8 email) headers⟩
  rw [Gateways.rules, apigateRules, hforwards]

theorem lua_refuses {doubles : Doubles} {cjson : Cjson doubles}
    {setHeader : LuaValue doubles → Option (List Bytes)}
    (hvalue : getHeader "authorization" headers = some value)
    (hstatus : (answer (trimOws value)).status = 401) :
    ofOutcome (GatewayLua.runWith doubles cjson setHeader headers (luaReply answer)) = .refused 401 := by
  have hhigh : (answer (trimOws value)).status ≥ 300 := by omega
  simp only [GatewayLua.runWith, hvalue, luaReply, if_pos hhigh]
  rfl

theorem lua_passes {doubles : Doubles} {cjson : Cjson doubles} (hcjson : DecodesJson doubles cjson)
    {setHeader : LuaValue doubles → Option (List Bytes)}
    (hstring : ∀ text, setHeader (.string text) = some [text])
    (hvalue : getHeader "authorization" headers = some value) {userID : Bytes}
    (hid : Bytes.IsVisible userID) {email : String}
    (hreply : answer (trimOws value) = ⟨200, .verified userID (Bytes.utf8 email)⟩) :
    ∃ request,
      ofOutcome (GatewayLua.runWith doubles cjson setHeader headers (luaReply answer)) = .passed request ∧
      Identifies request userID (Bytes.utf8 email) := by
  obtain ⟨fields, hdecoded, huser, hemail⟩ := cjson_marshal hcjson (Bytes.latin1 userID) email
  rw [hid.utf8_latin1] at hdecoded huser
  have hverify : luaReply answer value =
      .ok ⟨200, (AuthService.Payload.verified userID (Bytes.utf8 email)).marshal⟩ := by
    simp only [luaReply, hreply]
  have htruthy : ¬ (LuaValue.string userID : LuaValue doubles).truthy = false := by
    simp [LuaValue.truthy]
  have hrun : GatewayLua.runWith doubles cjson setHeader headers (luaReply answer) =
      .forward (clearHeader "Authorization" (putHeader "x-user-email" [Bytes.utf8 email]
        (putHeader "x-user-id" [userID] headers))) := by
    simp only [GatewayLua.runWith, hvalue, hverify, if_neg (show ¬ 200 ≥ 300 by omega), hdecoded,
      Option.getD_some, GatewayLua.letThrough_table, huser, hemail, if_neg htruthy,
      GatewayLua.injectIdentity, hstring]
  exact ⟨_, congrArg ofOutcome hrun, identifies_injected hid (Bytes.utf8 email) headers⟩

/-! ### The four together -/

variable {jwt : AuthService.Jwt} {bcrypt : AuthService.Bcrypt} {issuer : AuthService.Issuer}

theorem rules_without_token (hlower : (myItemsScope headers).LowerNames)
    (hnone : getHeader "authorization" headers = none) (gateway : Gateway) :
    g.rules answer headers gateway = .refused 401 := by
  have hextract : extractAuthorization (myItemsScope headers) = none := by
    rw [getHeader_authorization hlower, hnone, Option.map_none]
  cases gateway with
  | python =>
      rw [Gateways.rules, pythonRules, hextract, Option.map_none, Option.getD_none, decision_myItems,
        myItemsDecision, if_pos hextract]
  | apigate => simp only [Gateways.rules, apigateRules, GatewayApigate.requireAuth, hnone, Option.bind_none]
  | kong => simp only [Gateways.rules, GatewayLua.kongRun, GatewayLua.runWith, hnone, ofOutcome]
  | apisix => simp only [Gateways.rules, GatewayLua.apisixRun, GatewayLua.runWith, hnone, ofOutcome]

/-- Where `Verify` refuses what the client sent, every gateway does. -/
theorem rules_refused (hg : g.Documented) (hvisible : jwt.ParsesVisible) (now : AuthService.Time)
    (hlower : (myItemsScope headers).LowerNames) (hpasses : WritesValues g.writes headers)
    (hvalue : getHeader "authorization" headers = some value)
    (hstatus : (AuthService.verify jwt issuer now (trimOws value)).status = 401) (gateway : Gateway) :
    g.rules (AuthService.verify jwt issuer now) headers gateway = .refused 401 := by
  cases gateway with
  | python =>
      refine python_refuses hlower hpasses hvalue ?_
      obtain ⟨raw, claims, hraw, htrim, -⟩ | hrefused :=
        @AuthService.verify_cases jwt issuer now hvisible (trimOws (Bytes.utf8 (Bytes.latin1 value)))
      · -- a token that is printable after the two encodings was so before, and is the same
        have hascii := isAscii_of_utf8_latin1 (isAscii_of_trimOws hraw htrim)
        rw [(Bytes.utf8_latin1_eq_iff value).mpr hascii]
        exact hstatus
      · exact hrefused
  | apigate => exact apigate_refuses hg.ctx hvalue hstatus
  | kong => exact lua_refuses hvalue hstatus
  | apisix => exact lua_refuses hvalue hstatus

/-- Where `Verify` names a user whose email a header can hold, every gateway passes the request on as that
user's. -/
theorem rules_passed (hg : g.Documented) {now : AuthService.Time}
    (hlower : (myItemsScope headers).LowerNames) (hpasses : WritesValues g.writes headers)
    (hvalue : getHeader "authorization" headers = some value) {raw : Bytes} (hraw : Bytes.IsVisible raw)
    (htrim : trimOws value = AuthService.bearerPrefix ++ raw) {userID : Bytes}
    (hid : Bytes.IsVisible userID) {email : String} (hemail : GatewayApigate.Printable (Bytes.utf8 email))
    (hverify : AuthService.verify jwt issuer now (trimOws value) =
      ⟨200, .verified userID (Bytes.utf8 email)⟩) (gateway : Gateway) :
    ∃ request, g.rules (AuthService.verify jwt issuer now) headers gateway = .passed request ∧
      Identifies request userID (Bytes.utf8 email) := by
  cases gateway with
  | python =>
      refine python_passes hg hlower hpasses hvalue hid hemail ?_
      rw [(Bytes.utf8_latin1_eq_iff value).mpr (isAscii_of_trimOws hraw htrim)]
      exact hverify
  | apigate =>
      exact apigate_passes hg.ctx hvalue (printable_of_trimOws hraw htrim) hid hemail hverify
  | kong => exact lua_passes hg.cjson (fun _ => rfl) hvalue hid hverify
  | apisix => exact lua_passes hg.cjson (fun _ => rfl) hvalue hid hverify

/-- The client's authorization is this bearer token. -/
def Bears (headers : List Header) (raw : Bytes) : Prop :=
  ∃ value, getHeader "authorization" headers = some value ∧
    trimOws value = AuthService.bearerPrefix ++ raw

/-- It carries the claims. -/
def Presents (jwt : AuthService.Jwt) (issuer : AuthService.Issuer) (now : AuthService.Time)
    (headers : List Header) (claims : AuthService.Claims) : Prop :=
  ∃ raw, Bears headers raw ∧ issuer.decode jwt now raw = .ok claims

/-- Next to any state of auth-service in which every email can stand in a header, the four gateways admit
the same requests, each as the user a `Login` signed the presented claims for, and data-service lists that
user's products to all of them. Every other request is answered 401 by all four. -/
theorem my_items_agree (hg : g.Documented) (hvisible : jwt.ParsesVisible)
    {labels : List AuthService.Label} {s : AuthService.Service}
    (hrun : Transition.run (AuthService.Service.step jwt bcrypt issuer) AuthService.Service.start labels =
      some s)
    (hmac : jwt.ParsesOnlySigned issuer.secret (Bears headers) s.Signed) (hdraws : s.DrawsUuids)
    (hemails : ∀ email user, s.store.user email = some user → GatewayApigate.Printable email)
    (hlower : (myItemsScope headers).LowerNames) (hpasses : WritesValues g.writes headers)
    (now : AuthService.Time) (toLower : Bytes → Bytes) (products : List DataService.Product) :
    (∀ claims, Presents jwt issuer now headers claims →
      ∃ user, s.LoggedInAs jwt bcrypt issuer claims user ∧ ∀ gateway, ∃ request,
        g.rules (AuthService.verify jwt issuer now) headers gateway = .passed request ∧
        Identifies request user.id user.email ∧
        DataService.listMine (DataService.newStore toLower products) request =
          ⟨200, .products ((DataService.newStore toLower products).byOwner user.id)⟩) ∧
      ((∀ claims, ¬ Presents jwt issuer now headers claims) →
        ∀ gateway, g.rules (AuthService.verify jwt issuer now) headers gateway = .refused 401) := by
  constructor
  · rintro claims ⟨raw, ⟨value, hvalue, htrim⟩, hdecode⟩
    obtain ⟨user, huser⟩ := AuthService.Service.loggedInAs_of_decode hrun hmac ⟨value, hvalue, htrim⟩ hdecode
    have henrolled := AuthService.Service.run_enrolled hrun huser.stored
    obtain ⟨⟨email, hemail⟩, hemailNe⟩ := henrolled.email
    have hid : Bytes.IsVisible user.id := by
      obtain ⟨body, draw, input, hmem, -, -, hid⟩ := henrolled
      rw [hid]
      exact hdraws body draw hmem
    have hraw : Bytes.IsVisible raw := by
      obtain ⟨parsed, hparse, -⟩ := AuthService.Issuer.decode_ok hdecode
      exact hvisible _ _ _ _ hparse
    have hverify := AuthService.verify_accepts hraw.ne_nil hdecode (huser.subject ▸ hid.ne_nil)
      (huser.email ▸ hemailNe)
    have hprintable := hemails _ _ huser.stored
    rw [huser.subject, huser.email, ← htrim, hemail] at hverify
    rw [hemail] at hprintable
    refine ⟨user, huser, fun gateway => ?_⟩
    obtain ⟨request, hpassed, hidentifies⟩ :=
      rules_passed hg hlower hpasses hvalue hraw htrim hid hprintable hverify gateway
    refine ⟨request, hpassed, hemail ▸ hidentifies, ?_⟩
    rw [DataService.byOwner_newStore]
    exact DataService.listMine_of_values hidentifies.userId hid.ne_nil
  · intro hnone gateway
    cases hvalue : getHeader "authorization" headers with
    | none => exact rules_without_token hlower hvalue gateway
    | some value =>
        refine rules_refused hg hvisible now hlower hpasses hvalue ?_ gateway
        obtain ⟨raw, claims, -, htrim, hdecode, -⟩ | hrefused :=
          @AuthService.verify_cases jwt issuer now hvisible (trimOws value)
        · exact absurd ⟨raw, ⟨value, hvalue, htrim⟩, hdecode⟩ (hnone claims)
        · exact hrefused

/-! ### One client at four gateways -/

def isHeaderText (value : Bytes) : Bool := value.all fun x => x == 0x09 || 0x20 ≤ x && x < 0x7f

theorem isHeaderText_iff {value : Bytes} :
    isHeaderText value = true ↔ ∀ x ∈ value, x = 0x09 ∨ 0x20 ≤ x ∧ x < 0x7f := by
  simp only [isHeaderText, List.all_eq_true, Bool.or_eq_true, beq_iff_eq, Bool.and_eq_true, decide_eq_true_eq]

def printableCtx : GatewayApigate.PartsCtx where
  toStr value := if isHeaderText value then some (Bytes.latin1 value) else none
  fromStr text := if GatewayApigate.Printable (Bytes.utf8 text) then some (Bytes.utf8 text) else none

theorem printableCtx_documented : printableCtx.Documented where
  reads value hvalue := ⟨_, if_pos (isHeaderText_iff.mpr hvalue)⟩
  read value text htext := by
    simp only [printableCtx] at htext
    split at htext
    · rename_i hvalue
      obtain rfl := Option.some.inj htext
      apply (Bytes.utf8_latin1_eq_iff value).mpr
      intro x hx
      obtain rfl | ⟨-, hlow⟩ := isHeaderText_iff.mp hvalue x hx
      · decide
      · have hlow := UInt8.lt_iff_toNat_lt.mp hlow
        exact UInt8.lt_iff_toNat_lt.mpr (Nat.lt_trans hlow (by decide))
    · cases htext
  writes text htext := if_pos htext

def composeGateways : Gateways :=
  ⟨composeSettings, plainMsgspec, accountDecoders, accountWrites, printableCtx, GatewayLua.decimals,
    GatewayLua.strictCjson, fun _ => none⟩

theorem composeGateways_documented : composeGateways.Documented :=
  ⟨accountDecoders_decodes, accountWrites_printable, printableCtx_documented, GatewayLua.strictCjson_decodes⟩

/-- The client claims to be somebody else on the way. -/
def annHeaders : List Header :=
  [(Bytes.utf8 "x-user-id", Bytes.utf8 "u2"), (Bytes.utf8 "authorization", Bytes.utf8 " Bearer token")]

theorem my_items_agree_ann : ∃ user,
    (accountEnd annEmail).LoggedInAs (accountJwt annEmail) AuthService.keyBcrypt AuthService.visitIssuer
      (accountClaims annEmail) user ∧
    ∀ gateway, ∃ request,
      composeGateways.rules (AuthService.verify (accountJwt annEmail) AuthService.visitIssuer 0) annHeaders
        gateway = .passed request ∧
      Identifies request user.id user.email ∧
      DataService.listMine (DataService.newStore id DataService.seed) request =
        ⟨200, .products ((DataService.newStore id DataService.seed).byOwner user.id)⟩ := by
  have henrolled : Enrolled annEmail := enrolled_ann
  have hrun : accountRun annEmail = some (accountEnd annEmail) :=
    AuthService.eq_some_getD henrolled.run AuthService.Service.start
  have hvisible : (accountJwt annEmail).ParsesVisible := by
    intro secret now raw parsed hparse
    by_cases htoken : raw = Bytes.utf8 "token"
    · rw [htoken]
      decide
    · simp only [accountJwt, AuthService.soleTokenJwt, AuthService.oneTokenJwt, if_neg htoken] at hparse
      cases hparse
  have hmac : (accountJwt annEmail).ParsesOnlySigned AuthService.visitIssuer.secret
      (Bears annHeaders) (accountEnd annEmail).Signed := by
    intro now raw parsed _ hparse
    have hone : (AuthService.oneTokenJwt (accountClaims annEmail)).parseWithClaims
        AuthService.visitIssuer.secret now raw = .ok parsed := hparse
    obtain ⟨rfl, -⟩ := AuthService.oneTokenJwt_ok hone
    refine ⟨⟨.login (accountBody annEmail), .responded ⟨200, .login (Bytes.utf8 "token") "bearer" 3600⟩
      (some (accountClaims annEmail))⟩, ?_, rfl⟩
    rw [henrolled.tasks]
    exact List.mem_cons_of_mem _ List.mem_cons_self
  have hemails : ∀ email user, (accountEnd annEmail).store.user email = some user →
      GatewayApigate.Printable email := by
    intro email user huser
    obtain ⟨body, draw, input, hmem, hinput, rfl, -⟩ := AuthService.Service.run_enrolled hrun huser
    rw [AuthService.Service.requests, henrolled.tasks] at hmem
    simp only [List.map_cons, List.map_nil, List.mem_cons, AuthService.Request.register.injEq,
      List.not_mem_nil, or_false, reduceCtorEq] at hmem
    have hcredentials := (AuthService.registerInput_ok hinput).1
    rw [hmem.1, henrolled.body] at hcredentials
    rw [← Option.some.inj hcredentials]
    decide
  have hpresents : Presents (accountJwt annEmail) AuthService.visitIssuer 0 annHeaders
      (accountClaims annEmail) :=
    ⟨Bytes.utf8 "token", ⟨Bytes.utf8 " Bearer token", by decide +kernel, by decide +kernel⟩,
      by decide +kernel⟩
  have hwrites : WritesValues composeGateways.writes annHeaders := by
    have hall : ∀ entry ∈ annHeaders, accountWrites (Bytes.latin1 entry.2) = true := by decide +kernel
    exact hall
  exact (my_items_agree composeGateways_documented hvisible hrun hmac henrolled.drawsUuids hemails
    (by decide +kernel) hwrites 0 id DataService.seed).1 _ hpresents

end ApigateBenchmark.Contract
