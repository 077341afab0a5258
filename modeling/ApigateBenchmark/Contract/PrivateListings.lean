import ApigateBenchmark.Contract.Replies

/-!
# Whose listing a client gets

In every state the three processes reach together, the bytes a client of `GET /my-items` was sent are
bytes of one listing: that of the user for whom a `Login` of the run signed the token the client
presented. No interleaving, no fault in an exchange and no cookie of the shared session changes that.
-/

namespace ApigateBenchmark.AuthService

variable {jwt : Jwt} {bcrypt : Bcrypt} {issuer : Issuer}

/-- The claims were signed for a `Login` that was admitted as the user, and the user is stored. -/
structure Service.LoggedInAs (jwt : Jwt) (bcrypt : Bcrypt) (issuer : Issuer) (s : Service)
    (claims : Claims) (user : User) : Prop where
  stored : s.store.user user.email = some user
  subject : claims.subject = user.id
  email : claims.email = user.email
  login : ∃ body password token, unmarshalCredentials body = some ⟨user.email, password⟩ ∧
    bcrypt.compareHashAndPassword user.passwordHash password = true ∧
    jwt.signedString issuer.secret claims = some token ∧
    ⟨.login body, .responded ⟨200, .login token "bearer" issuer.expiresIn⟩ (some claims)⟩ ∈ s.tasks

/-- Accepted claims lead back to a `Login`. -/
theorem Service.loggedInAs_of_decode {labels : List Label} {s : Service}
    (hrun : Transition.run (Service.step jwt bcrypt issuer) Service.start labels = some s)
    {presented : GoString → Prop} (hmac : jwt.ParsesOnlySigned issuer.secret presented s.Signed) {now : Time}
    {raw : GoString} (hpresented : presented raw) {claims : Claims}
    (hdecode : issuer.decode jwt now raw = .ok claims) :
    ∃ user, s.LoggedInAs jwt bcrypt issuer claims user := by
  obtain ⟨parsed, hparse, rfl⟩ := Issuer.decode_ok hdecode
  obtain ⟨⟨request, progress⟩, hmem, hsigned⟩ := hmac now raw parsed hpresented hparse
  cases progress with
  | arrived => cases hsigned
  | inStore op state => cases hsigned
  | responded response signed =>
      obtain rfl : signed = some parsed.claims := hsigned
      obtain ⟨body, email, password, user, token, issued, rfl, hbody, hstored, haccept, hclaims, htoken,
        rfl⟩ := (Service.run_sound hrun _ hmem).signed
      obtain rfl := Store.user_email hstored
      have hsubject : parsed.claims.subject = user.id := by rw [hclaims]; rfl
      have hemail : parsed.claims.email = user.email := by rw [hclaims]; rfl
      exact ⟨user, hstored, hsubject, hemail, body, password, token, hbody, haccept, htoken, hmem⟩

end ApigateBenchmark.AuthService

namespace ApigateBenchmark.Contract

open Coroutine GatewayPython Transition

variable {d : Deployment}

/-! ### The verified user -/

/-- `handle_my_items` forwards for a user of a 200 of auth-service. -/
theorem verified_of_forward {settings : Settings} {decoders : Decoders} {task : Task}
    (hasks : task.AsksMyItems) {request : UpstreamRequest}
    (h : decision settings decoders task.scope task.world = .forward request) :
    ∃ authorization user head raw, extractAuthorization task.scope = some authorization ∧
      task.world.verifyHead = some (.ok head) ∧ head.status = 200 ∧
      task.world.verifyBody = some (.ok raw) ∧ decoders.verify raw = .ok user ∧
      request = myItemsRequest settings task.scope user := by
  rw [hasks.decision_eq, myItemsDecision] at h
  cases hauthorization : extractAuthorization task.scope with
  | none => rw [if_pos hauthorization] at h; cases h
  | some authorization =>
      rw [if_neg (by rw [hauthorization]; exact Option.some_ne_none _), verdict] at h
      cases hhead : task.world.verifyHead with
      | none => rw [hhead] at h; cases h
      | some reply =>
          rw [hhead] at h
          cases reply with
          | error fault => cases fault <;> cases h
          | ok head =>
              by_cases hstatus : head.status = 200
              · simp only [hstatus, ne_eq, not_true_eq_false, if_false] at h
                cases hbody : task.world.verifyBody with
                | none => rw [hbody] at h; cases h
                | some answer =>
                    rw [hbody] at h
                    cases answer with
                    | error fault => cases fault <;> cases h
                    | ok raw =>
                        simp only [verdictOnBody] at h
                        cases hdecode : decoders.verify raw with
                        | error exc => rw [hdecode] at h; cases exc <;> cases h
                        | ok user =>
                            rw [hdecode] at h
                            exact ⟨authorization, user, head, raw, rfl, rfl, hstatus, rfl, hdecode,
                              (Decision.forward.inj h).symm⟩
              · simp only [ne_eq, hstatus, not_false_eq_true, if_true] at h
                cases h

/-! ### What reached the services -/

/-- The call of auth-service presents what the client sent as its authorization. -/
theorem presented_eq {settings : Settings} {decoders : Decoders} {process : Process}
    (hconsistent : process.Consistent settings decoders) {id : Nat} {task : Task}
    (htask : process.tasks[id]? = some task) (hasks : task.AsksMyItems) {authorization : String}
    (hauthorization : extractAuthorization task.scope = some authorization) {call : WireCall}
    (hcall : callTo process id .auth = some call) : presented call = trimOws (Bytes.utf8 authorization) := by
  obtain ⟨hmem, hservice⟩ := callTo_mem hcall
  have hmade : (call.service, call.request) ∈ task.calls settings decoders := by
    rw [← hconsistent.calls id task htask]
    exact List.mem_map.mpr ⟨call, hmem, rfl⟩
  have hverify : verifyCalls settings task.scope =
      [(GatewayPython.Service.auth, verifyRequest settings authorization)] := by
    rw [verifyCalls, authCalls, if_pos ⟨hasks.method, hasks.path⟩, hauthorization]
    rfl
  have hrequest : call.request = verifyRequest settings authorization := by
    rw [Task.calls_eq, hverify, hservice, List.mem_append, List.mem_singleton] at hmade
    obtain hauth | hdecided := hmade
    · exact congrArg Prod.snd hauth
    · cases hdecision : decision settings decoders task.scope task.world with
      | forward request =>
          rw [hdecision] at hdecided
          cases List.mem_singleton.mp hdecided
      | _ =>
          rw [hdecision] at hdecided
          cases hdecided
  have hname : Bytes.lower (Bytes.utf8 "Authorization") = Bytes.utf8 "authorization" := by decide
  have hkey : Bytes.lowerText "Authorization" = "authorization" := by decide
  rw [presented, DataService.Request.peek, values_transmit hname, WireCall.onWire,
    named_withCookies (by decide), hrequest, verifyRequest, named_cons_of_pos hkey, List.map_cons,
    List.headD_cons]

/-- `ListMine` finds the verified user in the forwarded request, whatever cookies it took along. -/
theorem values_onWire {settings : Settings} {scope : Scope} (hlower : scope.LowerNames) {userID : Bytes}
    (hid : Bytes.IsVisible userID) {email : String} {call : WireCall}
    (hcall : call.request = myItemsRequest settings scope ⟨Bytes.latin1 userID, email⟩) :
    (transmit call.onWire).values (Bytes.utf8 "X-User-Id") = [userID] := by
  have hname : Bytes.lower (Bytes.utf8 "X-User-Id") = Bytes.utf8 "x-user-id" := by decide
  obtain ⟨hnamed, -, -⟩ := named_myItemsRequest settings hlower ⟨Bytes.latin1 userID, email⟩
  rw [values_transmit hname, WireCall.onWire, named_withCookies (by decide), hcall, hnamed,
    List.map_singleton, hid.utf8_latin1, trimOws_of_visible hid]

/-- The reply to a call for the verified user is the listing of that user. -/
theorem serve_myItems (hbase : d.settings.originBaseUrl.path = "") {scope : Scope}
    (hlower : scope.LowerNames) {userID : Bytes} (hid : Bytes.IsVisible userID) {email : String}
    {call : WireCall} (hcall : call.request = myItemsRequest d.settings scope ⟨Bytes.latin1 userID, email⟩) :
    DataService.serve d.toLower d.catalogue call.request.method call.request.url.path
        (transmit call.onWire) = some ⟨200, .products (d.catalogue.byOwner userID)⟩ := by
  have hmethod : call.request.method = "GET" := by rw [hcall]; rfl
  have hpath : call.request.url.path = "/my-items" := by
    rw [hcall]
    exact path_of_base hbase "/my-items"
  rw [hmethod, hpath, DataService.serve, if_neg (by decide), if_pos ⟨rfl, rfl⟩, Deployment.catalogue,
    DataService.byOwner_newStore]
  exact congrArg some (DataService.listMine_of_values (values_onWire hlower hid hcall) hid.ne_nil)

/-! ### The listing of the presented token -/

/-- In every state the three processes reach, whatever was relayed to a client of `GET /my-items` is a
part of the listing of one stored user: the one a `Login` of the run admitted and signed the claims for
that the client's token carries. When the body has come to its end, it is the whole listing. -/
theorem my_items_private (hbase : d.settings.originBaseUrl.path = "")
    {msgspec : Msgspec} (hdecodes : d.decoders.DecodesVerify msgspec) {events : List Event} {s : System}
    (hrun : run (System.step d) {} events = some s)
    (hmac : d.jwt.ParsesOnlySigned d.issuer.secret s.auth.Presented s.auth.Signed)
    (hdraws : s.auth.DrawsUuids)
    {id : Nat} {task : Task} (htask : s.gateway.tasks[id]? = some task) (hasks : task.AsksMyItems)
    (hrelayed : relayedBody (sent (task.run d.settings d.decoders).log) ≠ []) :
    ∃ authorization raw now claims user,
      extractAuthorization task.scope = some authorization ∧
      trimOws (Bytes.utf8 authorization) = AuthService.bearerPrefix ++ raw ∧
      d.issuer.decode d.jwt now raw = .ok claims ∧
      s.auth.LoggedInAs d.jwt d.bcrypt d.issuer claims user ∧
      relayedBody (sent (task.run d.settings d.decoders).log) <+:
        (DataService.Payload.products (d.catalogue.byOwner user.id)).marshal ∧
      (task.world.dataEnd = some .complete →
        relayedBody (sent (task.run d.settings d.decoders).log) =
          (DataService.Payload.products (d.catalogue.byOwner user.id)).marshal) := by
  have hcoherent := System.run_coherent hrun
  have hfaithful := hcoherent.faithful id task htask
  obtain ⟨labels, hgateway⟩ := hcoherent.gateway
  obtain ⟨authLabels, hauth⟩ := hcoherent.auth
  obtain ⟨listed, listing, hforward, hserve, hlisting⟩ := System.reply_of_relayed hrun htask hrelayed
  obtain ⟨authorization, out, head, raw, hauthorization, hhead, hstatus, hraw, hdecode, hlisted⟩ :=
    verified_of_forward hasks hforward
  -- the two parts of the reply come from one answer of `Verify`
  obtain ⟨reply, hreply, hreplyStatus⟩ := hfaithful.verifyHead head hhead
  obtain ⟨reply', hreply', hmarshal⟩ := hfaithful.verifyBody raw hraw
  obtain rfl : reply = reply' := Option.some.inj (hreply.symm.trans hreply')
  obtain ⟨call, now, hcall, ⟨asked, hasked, hrequest⟩, rfl⟩ := hcoherent.verifyReply_eq hreply
  obtain ⟨token, claims, hpresented, hclaims, hverify⟩ :=
    AuthService.verify_status (hreplyStatus.symm.trans hstatus)
  have hknown : s.auth.Presented token := ⟨asked, hasked, hpresented ▸ hrequest⟩
  obtain ⟨user, huser⟩ := AuthService.Service.loggedInAs_of_decode hauth hmac hknown hclaims
  have henrolled := AuthService.Service.run_enrolled hauth huser.stored
  obtain ⟨email, hemail⟩ := henrolled.email.1
  have hvisible : Bytes.IsVisible user.id := by
    obtain ⟨body, draw, input, hmem, -, -, hid⟩ := henrolled
    rw [hid]
    exact hdraws body draw hmem
  -- the auth client reads the user the claims name
  obtain rfl : out = ⟨Bytes.latin1 user.id, email⟩ := by
    rw [hverify] at hmarshal
    rw [hmarshal, huser.subject, huser.email, hemail, verify_marshal hdecodes hvisible] at hdecode
    exact (Except.ok.inj hdecode).symm
  obtain rfl := Option.some.inj (hserve.symm.trans (serve_myItems hbase hasks.lower hvisible hlisted))
  refine ⟨authorization, token, now, claims, user, hauthorization, ?_, hclaims, huser, hlisting.body,
    hlisting.whole⟩
  rw [← presented_eq (Process.run_consistent _ _ hgateway) htask hasks hauthorization hcall]
  exact hpresented

/-! ### A visit through the gateway -/

def annEmail : Bytes := Bytes.utf8 "ann@example.com"

def annDeployment : Deployment :=
  ⟨composeSettings, accountDecoders, accountWrites, accountJwt annEmail, AuthService.keyBcrypt,
    AuthService.visitIssuer, id, DataService.seed⟩

/-- A client registers, logs in and asks for its items; the listing arrives in two chunks. -/
def annEvents : List Event :=
  let listing := (DataService.Payload.products accountListing).marshal
  [.auth (.arrive (.register (accountBody annEmail) ⟨[1], Bytes.utf8 "u1"⟩)), .auth (.advance 0),
    .auth (.advance 0), .auth (.advance 0), .auth (.advance 0),
    .auth (.arrive (.login (accountBody annEmail))), .auth (.advance 1), .auth (.advance 1),
    .auth (.advance 1), .auth (.advance 1), .client accountScope, .connect 0, .auth (.advance 2),
    .deliver 0 (.verifyHead (.ok ⟨200, []⟩)),
    .deliver 0 (.verifyBody
      (.ok (AuthService.Payload.verified (Bytes.utf8 "u1") annEmail).marshal)),
    .deliver 0 (.dataHead (.ok ⟨200, []⟩)), .deliver 0 (.dataChunk (listing.take 10)),
    .deliver 0 (.dataChunk (listing.drop 10)), .deliver 0 (.dataEnd .complete)]

def annRun : Option System := run (System.step annDeployment) {} annEvents

def annEnd : System := annRun.getD {}

def annTask : Task := (annEnd.gateway.tasks[0]?).getD { scope := accountScope }

theorem annEnd_reached : annRun.isSome ∧
    annEnd.auth.tasks =
      [⟨.register (accountBody annEmail) ⟨[1], Bytes.utf8 "u1"⟩,
          .responded ⟨201, .registered (Bytes.utf8 "u1") annEmail⟩ none⟩,
        ⟨.login (accountBody annEmail), .responded ⟨200, .login (Bytes.utf8 "token") "bearer" 3600⟩
          (some (accountClaims annEmail))⟩,
        ⟨.verify (Bytes.utf8 "Bearer token"),
          .responded ⟨200, .verified (Bytes.utf8 "u1") annEmail⟩ none⟩] ∧
    (annEnd.gateway.tasks[0]?).isSome ∧ annTask.scope.method = "GET" ∧
    annTask.scope.path = "/my-items" ∧ annTask.scope.LowerNames ∧
    relayedBody (sent (annTask.run annDeployment.settings annDeployment.decoders).log) ≠ [] := by
  decide +kernel

theorem my_items_private_ann : ∃ authorization raw now claims user,
    extractAuthorization annTask.scope = some authorization ∧
    trimOws (Bytes.utf8 authorization) = AuthService.bearerPrefix ++ raw ∧
    annDeployment.issuer.decode annDeployment.jwt now raw = .ok claims ∧
    annEnd.auth.LoggedInAs annDeployment.jwt annDeployment.bcrypt annDeployment.issuer claims user ∧
    relayedBody (sent (annTask.run annDeployment.settings annDeployment.decoders).log) <+:
      (DataService.Payload.products (annDeployment.catalogue.byOwner user.id)).marshal ∧
    (annTask.world.dataEnd = some .complete →
      relayedBody (sent (annTask.run annDeployment.settings annDeployment.decoders).log) =
        (DataService.Payload.products (annDeployment.catalogue.byOwner user.id)).marshal) := by
  obtain ⟨hrun, hauth, hgateway, hmethod, hpath, hlower, hrelayed⟩ := annEnd_reached
  have hmac : annDeployment.jwt.ParsesOnlySigned annDeployment.issuer.secret annEnd.auth.Presented
      annEnd.auth.Signed := by
    intro now raw parsed _ hparse
    have hone : (AuthService.oneTokenJwt (accountClaims annEmail)).parseWithClaims
        annDeployment.issuer.secret now raw = .ok parsed := hparse
    obtain ⟨rfl, -⟩ := AuthService.oneTokenJwt_ok hone
    have hsigned : ∃ task ∈ annEnd.auth.tasks, task.signed = some (accountClaims annEmail) := by
      rw [hauth]
      exact ⟨_, List.mem_cons_of_mem _ List.mem_cons_self, rfl⟩
    exact hsigned
  have hdraws : annEnd.auth.DrawsUuids := by
    intro body draw hmem
    rw [AuthService.Service.requests, hauth] at hmem
    simp only [List.map_cons, List.map_nil, List.mem_cons, AuthService.Request.register.injEq,
      List.not_mem_nil, or_false, reduceCtorEq] at hmem
    rw [hmem.2]
    decide
  have htask : annEnd.gateway.tasks[0]? = some annTask :=
    AuthService.eq_some_getD hgateway { scope := accountScope }
  have hreached : annRun = some annEnd := AuthService.eq_some_getD hrun {}
  exact my_items_private rfl accountDecoders_decodes hreached hmac hdraws htask ⟨hmethod, hpath, hlower⟩
    hrelayed

end ApigateBenchmark.Contract
