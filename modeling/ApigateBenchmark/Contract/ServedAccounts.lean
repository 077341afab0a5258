import ApigateBenchmark.AuthService.FreshTokens
import ApigateBenchmark.GatewayPython.Identity
import ApigateBenchmark.GatewayPython.ResponseProtocol
import ApigateBenchmark.GatewayPython.Schemas
import ApigateBenchmark.Library.GoDocument
import ApigateBenchmark.Library.JsonText

/-!
# From a registered email to a listing

The email of an account goes from the check of `Register` into the claims of a token, from there into the
reply of `Verify`, and from there into a header of the request for data-service. Every hop but the last
takes any text: JSON escapes what it must, and UTF-8 has bytes for all of it. aiohttp does not write every
text into a header, so the accounts that the gateway can serve are those whose email it does; the others
end in an exception that no clause of the dispatcher covers.
-/

namespace ApigateBenchmark.Contract

open Coroutine GatewayPython GoJson Json

variable (writes : String → Bool) (settings : Settings) (decoders : Decoders)

/-! ### Header values -/

/-- What is documented of the values aiohttp writes: printable ASCII it does, and with a carriage return, a
line feed or a NUL it raises. Versions differ on the other control characters. -/
structure WritesPrintable : Prop where
  printable : ∀ value, (∀ x ∈ Bytes.utf8 value, 0x20 ≤ x ∧ x < 0x7f) → writes value = true
  refuses : ∀ value x, x ∈ Bytes.utf8 value → x = 0x0d ∨ x = 0x0a ∨ x = 0x00 → writes value = false

/-- aiohttp serialises a request if it writes all of its header values. -/
def Serializable (request : UpstreamRequest) : Prop := ∀ entry ∈ request.headers, writes entry.2 = true

instance (request : UpstreamRequest) : Decidable (Serializable writes request) :=
  inferInstanceAs (Decidable (∀ entry ∈ request.headers, writes entry.2 = true))

variable {writes} in
theorem WritesPrintable.latin1 (h : WritesPrintable writes) {b : Bytes} (hb : Bytes.IsVisible b) :
    writes (Bytes.latin1 b) = true := by
  apply h.printable
  rw [hb.utf8_latin1]
  exact fun x hx => ⟨UInt8.le_of_lt (hb.visible x hx).1, (hb.visible x hx).2⟩

/-! ### What the services answer -/

/-- What auth-service answers to the call of the auth client. -/
def verifyReply (jwt : AuthService.Jwt) (issuer : AuthService.Issuer) (now : AuthService.Time)
    (request : UpstreamRequest) : AuthService.Response :=
  AuthService.verify jwt issuer now ((transmit request).peek (Bytes.utf8 "Authorization"))

/-- Both services answer the calls of the task that reach them, and aiohttp raises for a request that it
cannot serialise. -/
structure Working (jwt : AuthService.Jwt) (issuer : AuthService.Issuer) (now : AuthService.Time)
    (store : DataService.Store) (task : Task) : Prop where
  verifies : ∀ request, (.auth, request) ∈ task.calls settings decoders → Serializable writes request →
    (∃ rawHeaders,
      task.world.verifyHead = some (.ok ⟨(verifyReply jwt issuer now request).status, rawHeaders⟩)) ∧
    task.world.verifyBody = some (.ok (verifyReply jwt issuer now request).payload.marshal)
  lists : ∀ request, (.data, request) ∈ task.calls settings decoders → Serializable writes request →
    (∃ rawHeaders, task.world.dataHead =
      some (.ok ⟨(DataService.listMine store (transmit request)).status, rawHeaders⟩)) ∧
    task.world.dataChunks.flatten = (DataService.listMine store (transmit request)).payload.marshal ∧
    task.world.dataEnd = some .complete
  listFails : ∀ request, (.data, request) ∈ task.calls settings decoders → ¬ Serializable writes request →
    ∃ text, task.world.dataHead = some (.error (.valueError text))

/-- The run ends, and has sent the listing as the body of a complete response. -/
structure ServedListing (run : Py Unit) (listing : GoSlice DataService.Product) : Prop where
  returned : run.status = .returned ()
  relayed : ∃ (headers : List Header) (chunks : List Bytes),
    sent run.log = .start 200 headers :: (chunks.map (fun chunk => AsgiEvent.body chunk true) ++
      [endBodyMessage]) ∧
    chunks.flatten = (DataService.Payload.products listing).marshal

/-! ### The reply of `Verify` -/

theorem readText_of_denotes {member : Member} {name text : String} (h : Denotes member (name, .str text)) :
    readText member.2 = some (some text) := by
  obtain ⟨lit, hvalue, hdecoded⟩ := eq_str_of_denoted h.value
  rw [hvalue, readText, hdecoded, Option.map_some]

/-- The two members of a 200 of `Verify`, whatever the characters of the identity. -/
theorem verified_members (userID email : String) : ∃ first second,
    parse (AuthService.Payload.verified (Bytes.utf8 userID) (Bytes.utf8 email)).marshal =
        some (.obj [first, second]) ∧
      Denotes first ("user_id", .str userID) ∧ Denotes second ("email", .str email) := by
  have hid := marshalString_denotes (Bytes.utf8 userID)
  have hemail := marshalString_denotes (Bytes.utf8 email)
  rw [goText_utf8] at hid hemail
  have hdocument : WritesDenoted (AuthService.Payload.verified (Bytes.utf8 userID) (Bytes.utf8 email)).marshal
      (.obj [("user_id", .str userID), ("email", .str email)]) :=
    marshalStruct_denotes (.cons ⟨rfl, hid⟩ (.cons ⟨rfl, hemail⟩ .nil))
  obtain ⟨members, hparse, hdenotes⟩ := hdocument.parse_obj
  obtain _ | ⟨hfirst, hrest⟩ := hdenotes
  obtain _ | ⟨hsecond, hnone⟩ := hrest
  cases hnone
  exact ⟨_, _, hparse, hfirst, hsecond⟩

/-- Which of the two each decoder finds under its names. -/
theorem verified_keys {first second : Member} {userID email : Denoted}
    (hid : Denotes first ("user_id", userID)) (hemail : Denotes second ("email", email)) :
    isKey "user_id" first.1 = true ∧ isKey "email" first.1 = false ∧
      isKey "user_id" second.1 = false ∧ isKey "email" second.1 = true := by
  simp only [← Bool.not_eq_true, hid.isKey_iff, hemail.isKey_iff]
  decide

/-- What `Verify` marshals is what the auth client decodes. -/
theorem decodeVerifyOut_marshal (msgspec : Msgspec) (userID email : String) :
    decodeVerifyOut msgspec (AuthService.Payload.verified (Bytes.utf8 userID) (Bytes.utf8 email)).marshal =
      some ⟨userID, email⟩ := by
  obtain ⟨first, second, hparse, hid, hemail⟩ := verified_members userID email
  obtain ⟨hfirst, hfirst', hsecond, hsecond'⟩ := verified_keys hid hemail
  have hreads : msgspec.readsMembers ["user_id", "email"] [first, second] = true := by
    simp only [Msgspec.readsMembers, List.all_cons, List.all_nil, List.any_cons, hfirst, hsecond',
      StrLit.paired_of_wellFormed hid.wellFormed, StrLit.paired_of_wellFormed hemail.wellFormed,
      Bool.true_or, Bool.or_true, Bool.and_self]
  simp only [decodeVerifyOut, hparse, hreads, readField, List.foldlM_cons, List.foldlM_nil, hfirst, hfirst',
    hsecond, hsecond', if_true, Bool.false_eq_true, if_false, readText_of_denotes hid,
    readText_of_denotes hemail, Option.bind_eq_bind, Option.bind_some, Option.pure_def]

/-- The user that the auth client reads from what `Verify` answers. -/
theorem verify_marshal {decoders : Decoders} {msgspec : Msgspec}
    (hdecodes : decoders.DecodesVerify msgspec) {userID : Bytes} (hid : Bytes.IsVisible userID)
    (email : String) :
    decoders.verify (AuthService.Payload.verified userID (Bytes.utf8 email)).marshal =
      .ok ⟨Bytes.latin1 userID, email⟩ := by
  have hout := decodeVerifyOut_marshal msgspec (Bytes.latin1 userID) email
  rw [hid.utf8_latin1, ← hdecodes] at hout
  cases hresult : decoders.verify (AuthService.Payload.verified userID (Bytes.utf8 email)).marshal with
  | error text =>
      rw [hresult] at hout
      cases hout
  | ok user =>
      rw [hresult] at hout
      exact congrArg Except.ok (Option.some.inj hout)

/-! ### What reaches the services -/

theorem not_isOws_of_visible {b : Bytes} (h : Bytes.IsVisible b) {x : UInt8} (hx : x ∈ b) :
    isOws x = false := by
  have hlow := (h.visible x hx).1
  rw [isOws, Bool.or_eq_false_iff, beq_eq_false_iff_ne, beq_eq_false_iff_ne]
  constructor
  · rintro rfl
    exact absurd hlow (by decide)
  · rintro rfl
    exact absurd hlow (by decide)

theorem trimOws_of_visible {b : Bytes} (h : Bytes.IsVisible b) : trimOws b = b :=
  trimOws_eq_self (fun _ hx => not_isOws_of_visible h (List.mem_of_mem_head? hx)) fun _ hx =>
    not_isOws_of_visible h (List.mem_of_mem_getLast? hx)

theorem trimOws_bearer {token : Bytes} (h : Bytes.IsVisible token) :
    trimOws (AuthService.bearerPrefix ++ token) = AuthService.bearerPrefix ++ token := by
  refine trimOws_eq_self (fun x hx => ?_) fun x hx => ?_
  · obtain rfl : ascii 'B' = x := Option.some.inj hx
    rfl
  · rw [List.getLast?_append_of_ne_nil _ h.ne_nil] at hx
    exact not_isOws_of_visible h (List.mem_of_mem_getLast? hx)

theorem isAscii_bearer {token : Bytes} (h : Bytes.IsVisible token) :
    Bytes.IsAscii (AuthService.bearerPrefix ++ token) := by
  have hbearer : Bytes.IsAscii AuthService.bearerPrefix := by decide
  intro x hx
  exact (List.mem_append.mp hx).elim (hbearer x) (h.isAscii x)

theorem printable_bearer {token : Bytes} (h : Bytes.IsVisible token) :
    ∀ x ∈ AuthService.bearerPrefix ++ token, 0x20 ≤ x ∧ x < 0x7f := by
  intro x hx
  obtain hx | hx := List.mem_append.mp hx
  · have hall : AuthService.bearerPrefix.all (fun x => 0x20 ≤ x && x < 0x7f) = true := rfl
    have hx := List.all_eq_true.mp hall x hx
    exact ⟨of_decide_eq_true (Bool.and_elim_left hx), of_decide_eq_true (Bool.and_elim_right hx)⟩
  · exact ⟨UInt8.le_of_lt (h.visible x hx).1, (h.visible x hx).2⟩

/-- The token reaches `Verify` as the client sent it. -/
theorem peek_verifyRequest {token : Bytes} (h : Bytes.IsVisible token) :
    (transmit (verifyRequest settings (Bytes.latin1 (AuthService.bearerPrefix ++ token)))).peek
      (Bytes.utf8 "Authorization") = AuthService.bearerPrefix ++ token := by
  have hname : Bytes.lower (Bytes.utf8 "Authorization") = Bytes.utf8 "authorization" := by decide
  have hkey : Bytes.lowerText "Authorization" = "authorization" := by decide
  rw [DataService.Request.peek, values_transmit hname, verifyRequest, named_cons_of_pos hkey, List.map_cons,
    List.headD_cons, (Bytes.utf8_latin1_eq_iff _).mpr (isAscii_bearer h), trimOws_bearer h]

variable {writes} in
theorem serializable_verifyRequest (hwrites : WritesPrintable writes) {token : Bytes}
    (h : Bytes.IsVisible token) :
    Serializable writes (verifyRequest settings (Bytes.latin1 (AuthService.bearerPrefix ++ token))) := by
  intro entry hentry
  obtain rfl := List.mem_singleton.mp hentry
  apply hwrites.printable
  rw [(Bytes.utf8_latin1_eq_iff _).mpr (isAscii_bearer h)]
  exact printable_bearer h

theorem mem_named_iff {entry : String × String} {headers : CIMultiDict} :
    entry ∈ named (Bytes.lowerText entry.1) headers ↔ entry ∈ headers := by
  rw [named, List.mem_filter, beq_self_eq_true]
  exact and_iff_left rfl

/-- Setting a header leaves the entries of other names. -/
theorem mem_set_iff {key value : String} {headers : CIMultiDict} {entry : String × String} :
    entry ∈ headers.set key value ↔
      entry = (key, value) ∨ entry ∈ headers ∧ Bytes.lowerText entry.1 ≠ Bytes.lowerText key := by
  rw [← mem_named_iff]
  by_cases hname : Bytes.lowerText key = Bytes.lowerText entry.1
  · rw [named_set_self hname, List.mem_singleton]
    exact (or_iff_left fun h => h.2 hname.symm).symm
  · rw [named_set_of_ne hname, mem_named_iff]
    have hother : entry ≠ (key, value) := by
      rintro rfl
      exact hname rfl
    exact (and_iff_left (Ne.symm hname)).symm.trans (or_iff_right hother).symm

/-- aiohttp writes the headers of the client's that `handle_my_items` passes on. -/
def PassesOn (scope : Scope) : Prop :=
  ∀ entry ∈ requestHeadersForUpstream scope true, Bytes.lowerText entry.1 ≠ "x-user-id" →
    Bytes.lowerText entry.1 ≠ "x-user-email" → writes entry.2 = true

theorem serializable_myItemsRequest_iff (scope : Scope) (user : VerifyOut) :
    Serializable writes (myItemsRequest settings scope user) ↔
      writes user.email = true ∧ writes user.userId = true ∧ PassesOn writes scope := by
  have hid : Bytes.lowerText "x-user-id" = "x-user-id" := by decide
  have hemail : Bytes.lowerText "x-user-email" = "x-user-email" := by decide
  have hmem : ∀ entry, entry ∈ (myItemsRequest settings scope user).headers ↔
      entry = ("x-user-email", user.email) ∨ (entry = ("x-user-id", user.userId) ∨
        entry ∈ requestHeadersForUpstream scope true ∧ Bytes.lowerText entry.1 ≠ "x-user-id") ∧
        Bytes.lowerText entry.1 ≠ "x-user-email" := by
    intro entry
    rw [myItemsRequest, mem_set_iff, mem_set_iff, hid, hemail]
  constructor
  · intro h
    have hne : Bytes.lowerText "x-user-id" ≠ "x-user-email" := by decide
    refine ⟨h _ ((hmem _).mpr (.inl rfl)), h _ ((hmem _).mpr (.inr ⟨.inl rfl, hne⟩)), ?_⟩
    exact fun entry hentry hne hne' => h entry ((hmem entry).mpr (.inr ⟨.inr ⟨hentry, hne⟩, hne'⟩))
  · rintro ⟨hwritten, hwritten', hpasses⟩ entry hentry
    obtain rfl | ⟨rfl | ⟨hentry, hne⟩, hne'⟩ := (hmem entry).mp hentry
    · exact hwritten
    · exact hwritten'
    · exact hpasses entry hentry hne hne'

theorem values_myItemsRequest (scope : Scope) {userID : Bytes} (h : Bytes.IsVisible userID)
    (email : String) :
    (transmit (myItemsRequest settings scope ⟨Bytes.latin1 userID, email⟩)).values
      (Bytes.utf8 "X-User-Id") = [userID] := by
  have hname : Bytes.lower (Bytes.utf8 "X-User-Id") = Bytes.utf8 "x-user-id" := by decide
  have hid : Bytes.lowerText "x-user-id" = "x-user-id" := by decide
  rw [values_transmit hname, myItemsRequest, named_set_of_ne (by decide), named_set_self hid,
    List.map_singleton, h.utf8_latin1, trimOws_of_visible h]

/-- `ListMine` answers with the listing of the user that was verified. -/
theorem listMine_myItemsRequest (scope : Scope) {userID : Bytes} (h : Bytes.IsVisible userID)
    (email : String) (toLower : Bytes → Bytes) (products : List DataService.Product) :
    DataService.listMine (DataService.newStore toLower products)
        (transmit (myItemsRequest settings scope ⟨Bytes.latin1 userID, email⟩)) =
      ⟨200, .products ((DataService.newStore toLower products).byOwner userID)⟩ := by
  rw [DataService.byOwner_newStore]
  exact DataService.listMine_of_values (values_myItemsRequest settings scope h email) h.ne_nil

/-! ### The run -/

section

variable {writes settings decoders} {msgspec : Msgspec} {jwt : AuthService.Jwt} {bcrypt : AuthService.Bcrypt}
  {issuer : AuthService.Issuer} {now : AuthService.Time} {store : DataService.Store} {task : Task}

/-- Any account whose token is still good is verified, whatever its email is. -/
theorem Working.decision_eq (hwrites : WritesPrintable writes) (hdecodes : decoders.DecodesVerify msgspec)
    (hworking : Working writes settings decoders jwt issuer now store task) (hasks : task.AsksMyItems)
    {token userID : Bytes} (htoken : Bytes.IsVisible token) (hid : Bytes.IsVisible userID)
    (hbears : extractAuthorization task.scope = some (Bytes.latin1 (AuthService.bearerPrefix ++ token)))
    {email : String} (hverify : AuthService.verify jwt issuer now (AuthService.bearerPrefix ++ token) =
      ⟨200, .verified userID (Bytes.utf8 email)⟩) :
    decision settings decoders task.scope task.world =
      .forward (myItemsRequest settings task.scope ⟨Bytes.latin1 userID, email⟩) := by
  have hcall : (Service.auth, verifyRequest settings (Bytes.latin1 (AuthService.bearerPrefix ++ token))) ∈
      task.calls settings decoders := by
    rw [Task.calls_eq, verifyCalls, authCalls, if_pos ⟨hasks.method, hasks.path⟩, hbears]
    exact List.mem_append_left _ (List.mem_singleton_self _)
  have hreply : verifyReply jwt issuer now
      (verifyRequest settings (Bytes.latin1 (AuthService.bearerPrefix ++ token))) =
      ⟨200, .verified userID (Bytes.utf8 email)⟩ := by
    rw [verifyReply, peek_verifyRequest settings htoken, hverify]
  obtain ⟨⟨rawHeaders, hhead⟩, hbody⟩ :=
    hworking.verifies _ hcall (serializable_verifyRequest settings hwrites htoken)
  rw [hreply] at hhead hbody
  have hdecoded := verify_marshal hdecodes hid email
  rw [hasks.decision_eq, myItemsDecision, if_neg (by rw [hbears]; simp), verdict, hhead]
  simp only [ne_eq, not_true_eq_false, if_false, hbody, verdictOnBody, hdecoded]

theorem servedListing_of_complete {request : UpstreamRequest} {rawHeaders : List Header}
    {listing : GoSlice DataService.Product}
    (hdecision : decision settings decoders task.scope task.world = .forward request)
    (hhead : task.world.dataHead = some (.ok ⟨200, rawHeaders⟩))
    (hchunks : task.world.dataChunks.flatten = (DataService.Payload.products listing).marshal)
    (hend : task.world.dataEnd = some .complete) :
    ServedListing (task.run settings decoders) listing := by
  have hrun : task.run settings decoders =
      (emit (relayedEvents task.world ⟨200, rawHeaders⟩ ++ [endBodyMessage])).prepend
        (authCalls settings task.scope ++ [.request request]) := by
    rw [Task.run, asgiApp_eq, hdecision, Decision.toPy, proxy_eq, prepend_handle, prepend_prepend, exchange,
      hhead]
    simp only [relayResponse_eq, prepend_handle, hend]
    exact congrArg (prepend _) (emit_prepend _ [endBodyMessage])
  refine ⟨by rw [hrun]; rfl, responseHeadersFromUpstream rawHeaders, task.world.dataChunks, ?_, hchunks⟩
  rw [hrun, prepend_log, sent_append, sent_append, sent_authCalls, emit, sent_map_send]
  rfl

/-- No clause of the dispatcher covers a `ValueError`. -/
theorem not_servedListing_of_valueError {request : UpstreamRequest} {text : String}
    {listing : GoSlice DataService.Product}
    (hdecision : decision settings decoders task.scope task.world = .forward request)
    (hhead : task.world.dataHead = some (.error (.valueError text))) :
    ¬ ServedListing (task.run settings decoders) listing := by
  intro h
  have hreturned := h.returned
  rw [Task.run, asgiApp_eq, hdecision, Decision.toPy, proxy_eq, prepend_handle, exchange, hhead] at hreturned
  cases hreturned

end

/-! ### Two accounts -/

def accountBody (email : Bytes) : Bytes :=
  marshalStruct [("email", marshalString email), ("password", marshalString (Bytes.utf8 "secret1"))]

def accountClaims (email : Bytes) : AuthService.Claims :=
  AuthService.visitIssuer.claims 0 (Bytes.utf8 "u1") email

def accountJwt (email : Bytes) : AuthService.Jwt := AuthService.soleTokenJwt (accountClaims email)

/-- A client registers and logs in. -/
def accountRun (email : Bytes) : Option AuthService.Service :=
  Transition.run (AuthService.Service.step (accountJwt email) AuthService.keyBcrypt AuthService.visitIssuer)
    AuthService.Service.start
    [.arrive (.register (accountBody email) ⟨[1], Bytes.utf8 "u1"⟩), .advance 0, .advance 0, .advance 0,
      .advance 0, .arrive (.login (accountBody email)), .advance 1, .advance 1, .advance 1, .advance 1]

def accountEnd (email : Bytes) : AuthService.Service := (accountRun email).getD AuthService.Service.start

def accountDecoders : Decoders :=
  { noDecoders with
    verify := fun body => match decodeVerifyOut plainMsgspec body with
      | some user => .ok user
      | none => .error (.decodeError "not decoded") }

/-- The header values of an aiohttp that looks for the three characters only. -/
def accountWrites (value : String) : Bool :=
  (Bytes.utf8 value).all fun x => x != 0x0d && x != 0x0a && x != 0x00

def accountScope : Scope := ⟨"GET", "/my-items", [(Bytes.utf8 "authorization", Bytes.utf8 "Bearer token")]⟩

def accountListing : GoSlice DataService.Product :=
  (DataService.newStore id DataService.seed).byOwner (Bytes.utf8 "u1")

/-- The client asks for its items, and the services have answered. -/
def accountTask (email : String) (dataHead : Except Fault ResponseHead) : Task where
  scope := accountScope
  world :=
    { verifyHead := some (.ok ⟨200, []⟩)
      verifyBody := some (.ok (AuthService.Payload.verified (Bytes.utf8 "u1") (Bytes.utf8 email)).marshal)
      dataHead := some dataHead
      dataChunks := [(DataService.Payload.products accountListing).marshal]
      dataEnd := some .complete }

theorem accountDecoders_decodes : accountDecoders.DecodesVerify plainMsgspec := by
  intro body
  change (match decodeVerifyOut plainMsgspec body with
    | some user => Except.ok user
    | none => Except.error (DecodeExc.decodeError "not decoded")).toOption = decodeVerifyOut plainMsgspec body
  cases decodeVerifyOut plainMsgspec body <;> rfl

theorem accountWrites_printable : WritesPrintable accountWrites := by
  constructor
  · intro value hvalue
    refine List.all_eq_true.mpr fun x hx => ?_
    have hlow := (hvalue x hx).1
    have hne : ∀ y : UInt8, y < 0x20 → (x != y) = true := by
      rintro y hy
      rw [bne_iff_ne]
      rintro rfl
      exact absurd hlow (UInt8.not_le.mpr hy)
    rw [hne 0x0d (by decide), hne 0x0a (by decide), hne 0x00 (by decide)]
    rfl
  · intro value x hx hbreak
    rw [accountWrites, List.all_eq_false]
    refine ⟨x, hx, ?_⟩
    obtain rfl | rfl | rfl := hbreak <;> decide

theorem accountJwt_compact (email : Bytes) : (accountJwt email).Compact := by
  intro secret claims token h
  simp only [accountJwt, AuthService.soleTokenJwt] at h
  split at h
  · obtain rfl := Option.some.inj h
    decide
  · cases h

theorem accountClaims_fresh (email : Bytes) : (accountClaims email).Fresh 0 := by
  rintro exp hexp
  obtain rfl := Option.some.inj hexp
  change (0 : Int) < AuthService.newNumericDate (0 + 3600 * GoTime.second)
  decide

theorem accountTask_asks (email : String) (dataHead : Except Fault ResponseHead) :
    (accountTask email dataHead).AsksMyItems := by
  have hlower : accountScope.LowerNames := by decide
  exact ⟨rfl, rfl, hlower⟩

/-- The run of `accountRun` has registered the account and logged it in. -/
structure Enrolled (email : Bytes) : Prop where
  run : (accountRun email).isSome = true
  body : AuthService.unmarshalCredentials (accountBody email) = some ⟨email, Bytes.utf8 "secret1"⟩
  tasks : (accountEnd email).tasks =
    [⟨.register (accountBody email) ⟨[1], Bytes.utf8 "u1"⟩,
        .responded ⟨201, .registered (Bytes.utf8 "u1") email⟩ none⟩,
      ⟨.login (accountBody email), .responded ⟨200, .login (Bytes.utf8 "token") "bearer" 3600⟩
        (some (accountClaims email))⟩]

theorem Enrolled.hasToken {email : Bytes} (h : Enrolled email) :
    (accountEnd email).HasToken ⟨email, Bytes.utf8 "secret1"⟩ (Bytes.utf8 "u1") (Bytes.utf8 "token")
      (accountClaims email) := by
  refine ⟨⟨accountBody email, ⟨[1], Bytes.utf8 "u1"⟩, none, h.body, ?_⟩,
    accountBody email, Bytes.utf8 "secret1", "bearer", 3600, h.body, ?_⟩
  · rw [h.tasks]
    exact List.mem_cons_self
  · rw [h.tasks]
    exact List.mem_cons_of_mem _ List.mem_cons_self

theorem Enrolled.drawsUuids {email : Bytes} (h : Enrolled email) : (accountEnd email).DrawsUuids := by
  intro body draw hmem
  rw [AuthService.Service.requests, h.tasks] at hmem
  simp only [List.map_cons, List.map_nil, List.mem_cons, AuthService.Request.register.injEq,
    List.not_mem_nil, or_false, reduceCtorEq] at hmem
  rw [hmem.2]
  decide

theorem accountScope_passesOn : PassesOn accountWrites accountScope := by
  have hnone : requestHeadersForUpstream accountScope true = [] := by decide
  intro entry hentry
  rw [hnone] at hentry
  cases hentry

/-- What has to be checked of an account to see that its services work. -/
theorem working_account {email : String} {dataHead : Except Fault ResponseHead}
    (hcalls : (accountTask email dataHead).calls composeSettings accountDecoders =
      [(.auth, verifyRequest composeSettings "Bearer token"),
        (.data, myItemsRequest composeSettings accountScope ⟨"u1", email⟩)])
    (hreply : verifyReply (accountJwt (Bytes.utf8 email)) AuthService.visitIssuer 0
      (verifyRequest composeSettings "Bearer token") =
        ⟨200, .verified (Bytes.utf8 "u1") (Bytes.utf8 email)⟩)
    (hsent : accountWrites email = true → dataHead = .ok ⟨200, []⟩)
    (hfailed : ¬ accountWrites email = true → ∃ text, dataHead = .error (.valueError text)) :
    Working accountWrites composeSettings accountDecoders (accountJwt (Bytes.utf8 email))
      AuthService.visitIssuer 0 (DataService.newStore id DataService.seed) (accountTask email dataHead) := by
  have hserializable : Serializable accountWrites (myItemsRequest composeSettings accountScope ⟨"u1", email⟩) ↔
      accountWrites email = true := by
    have hid : accountWrites "u1" = true := by decide
    rw [serializable_myItemsRequest_iff]
    exact and_iff_left ⟨hid, accountScope_passesOn⟩
  have hdata : ∀ request, (Service.data, request) ∈
      (accountTask email dataHead).calls composeSettings accountDecoders →
        request = myItemsRequest composeSettings accountScope ⟨"u1", email⟩ := by
    intro request hmem
    simpa [hcalls] using hmem
  refine ⟨fun request hmem _ => ?_, fun request hmem hsends => ?_, fun request hmem hfails => ?_⟩
  · obtain rfl : request = verifyRequest composeSettings "Bearer token" := by
      simpa [hcalls] using hmem
    rw [hreply]
    exact ⟨⟨[], rfl⟩, rfl⟩
  · obtain rfl := hdata request hmem
    obtain rfl := hsent (hserializable.mp hsends)
    have hstart : Bytes.latin1 (Bytes.utf8 "u1") = "u1" := by decide
    have hvisible : Bytes.IsVisible (Bytes.utf8 "u1") := by decide
    have hlisting := listMine_myItemsRequest composeSettings accountScope hvisible email id DataService.seed
    rw [hstart] at hlisting
    rw [hlisting]
    exact ⟨⟨[], rfl⟩, List.append_nil _, rfl⟩
  · obtain rfl := hdata request hmem
    obtain ⟨text, rfl⟩ := hfailed fun hwritten => hfails (hserializable.mpr hwritten)
    exact ⟨text, rfl⟩

theorem enrolled_ann : Enrolled (Bytes.utf8 "ann@example.com") :=
  ⟨by decide +kernel, by decide +kernel, by decide +kernel⟩

theorem working_ann : Working accountWrites composeSettings accountDecoders
    (accountJwt (Bytes.utf8 "ann@example.com")) AuthService.visitIssuer 0 (DataService.newStore id DataService.seed)
    (accountTask "ann@example.com" (.ok ⟨200, []⟩)) :=
  working_account (by decide +kernel) (by decide +kernel) (fun _ => rfl) fun hrefused =>
    absurd (by decide) hrefused

theorem enrolled_lines : Enrolled (Bytes.utf8 "a\nb@example.com") :=
  ⟨by decide +kernel, by decide +kernel, by decide +kernel⟩

def newlineFault : Fault := .valueError "Newline or carriage return detected in headers."

theorem working_lines : Working accountWrites composeSettings accountDecoders
    (accountJwt (Bytes.utf8 "a\nb@example.com")) AuthService.visitIssuer 0
    (DataService.newStore id DataService.seed) (accountTask "a\nb@example.com" (.error newlineFault)) :=
  working_account (by decide +kernel) (by decide +kernel) (fun hwritten => absurd hwritten (by decide))
    fun _ => ⟨_, rfl⟩

end ApigateBenchmark.Contract
