import ApigateBenchmark.Contract.Replies
import ApigateBenchmark.Contract.SearchFilter
import ApigateBenchmark.DataService.Catalogue

/-!
# What the public routes relay

A client of `/items` or `/items/search` is relayed what data-service would have answered to the client
itself. A lookup is rewritten on the way: the client sends a string, the gateway trims it and writes an
internal query, data-service decodes that and searches its table of lowered names. What comes back is a
list of at most twenty products, and it is the list that the string asked for.
-/

namespace ApigateBenchmark.Contract

open Coroutine DataService GatewayPython GoJson Json Transition

/-! ### The internal query -/

/-- The fields of `LookupInternal`, as every gateway declares them. -/
def lookupFields (query : String) (limit : Nat) (source : String) : List (String × Denoted) :=
  [("query", .str query), ("limit", .num (integerLit limit)), ("source", .str source)]

/-- No two of the names are the same up to case. -/
theorem filter_lookupFields (query source : String) (limit : Nat) :
    (lookupFields query limit source).filter (fun other => foldName other.1 == foldName "query") =
        [("query", .str query)] ∧
      (lookupFields query limit source).filter (fun other => foldName other.1 == foldName "limit") =
        [("limit", .num (integerLit limit))] ∧
      (lookupFields query limit source).filter (fun other => foldName other.1 == foldName "source") =
        [("source", .str source)] := by
  have hlimitQuery : (foldName "limit" == foldName "query") = false := by decide
  have hsourceQuery : (foldName "source" == foldName "query") = false := by decide
  have hqueryLimit : (foldName "query" == foldName "limit") = false := by decide
  have hsourceLimit : (foldName "source" == foldName "limit") = false := by decide
  have hquerySource : (foldName "query" == foldName "source") = false := by decide
  have hlimitSource : (foldName "limit" == foldName "source") = false := by decide
  simp only [lookupFields, List.filter_cons, List.filter_nil, beq_self_eq_true, hlimitQuery, hsourceQuery,
    hqueryLimit, hsourceLimit, hquerySource, hlimitSource, if_true, Bool.false_eq_true, if_false, and_self]

/-- data-service decodes a document of the three fields in any order, whatever characters they are of. -/
theorem unmarshalLookupInput_of_denoted {text : Bytes} {entries : List (String × Denoted)}
    {query source : String} {limit : Nat} (hperm : entries.Perm (lookupFields query limit source))
    (htext : WritesDenoted text (.obj entries)) (hlimit : isInt64 limit = true) :
    unmarshalLookupInput text = some ⟨Bytes.utf8 query, limit, Bytes.utf8 source⟩ := by
  obtain ⟨members, hparse, hmembers⟩ := htext.parse_obj
  obtain ⟨hqueryField, hlimitField, hsourceField⟩ := filter_lookupFields query source limit
  have hquery : readField (isField "query") readString [] members = some (Bytes.utf8 query) :=
    readField_of_perm hmembers hperm hqueryField fun _ hmember => readString_of_denotes hmember []
  have hlimited : readField (isField "limit") readInteger 0 members = some (limit : Int) :=
    readField_of_perm hmembers hperm hlimitField fun _ hmember => readInteger_of_denotes hmember hlimit 0
  have hsource : readField (isField "source") readString [] members = some (Bytes.utf8 source) :=
    readField_of_perm hmembers hperm hsourceField fun _ hmember => readString_of_denotes hmember []
  simp only [unmarshalLookupInput, unmarshal, hparse, hquery, hlimited, hsource, Option.bind_eq_bind,
    Option.bind_some]

/-! ### The products found -/

/-- `Lookup` reads its tables as the catalogue itself, cut off at a positive limit. -/
theorem lookup_newStore {toLower : GoString → GoString} (hempty : toLower [] = [])
    (products : List Product) (query : GoString) {limit : Int} (hpos : 0 < limit) :
    (newStore toLower products).lookup toLower ⟨query, limit⟩ =
      some (.of ((matching toLower (toLower query) products).take limit.toNat)) := by
  have hnames : (newStore toLower products).lowerNames =
      .of ((([] : List Product) ++ products).map fun product => toLower product.name) :=
    lowerNames_newStore toLower products
  have htruncate : ∀ l : List Product, truncate limit l = l.take limit.toNat := fun l => if_neg (by omega)
  have hproducts : (newStore toLower products).products = .of products := rfl
  rw [Store.lookup, hproducts]
  by_cases hquery : query = []
  · subst hquery
    rw [if_pos rfl, hempty, matching_empty]
    by_cases hcut : limit > 0 ∧ limit < (GoSlice.of products).len
    · have hhigh : limit ≤ products.length := Int.le_of_lt hcut.2
      rw [if_pos hcut, GoSlice.upTo_of (by omega) hhigh]
    · rw [if_neg hcut]
      simp only [not_and, GoSlice.len, GoSlice.items_of] at hcut
      have hshort := hcut hpos
      rw [List.take_of_length_le (by omega)]
  · rw [if_neg hquery, ← htruncate]
    exact lookupLoop_eq toLower (toLower query) limit hnames [] fun _ => hpos

/-- The answer to a document of the three fields. -/
theorem lookup_of_denoted {toLower : GoString → GoString} (hempty : toLower [] = [])
    (products : List Product) {request : DataService.Request} {entries : List (String × Denoted)}
    {query source : String} (hperm : entries.Perm (lookupFields query lookupLimit source))
    (hbody : WritesDenoted request.body (.obj entries)) :
    DataService.lookup toLower (newStore toLower products) request =
      some ⟨200, .products (.of ((matching toLower (toLower (Bytes.utf8 query)) products).take
        lookupLimit))⟩ := by
  have hdecoded := unmarshalLookupInput_of_denoted hperm hbody (show isInt64 lookupLimit = true from by decide)
  have hfound := lookup_newStore hempty products (Bytes.utf8 query)
    (show (0 : Int) < lookupLimit from by decide)
  rw [DataService.lookup, hdecoded]
  simp only [hfound, Option.map_some, Int.toNat_natCast]

/-- The products a lookup for the string is about: the first twenty whose lowered name contains it,
lowered and without the white space around it. -/
def lookupResults (toLower : GoString → GoString) (products : List Product) (q : String) : List Product :=
  (matching toLower (toLower (Bytes.utf8 (strip q))) products).take lookupLimit

/-- data-service answers the rewritten body with what the original was about. -/
theorem lookup_encoded {toLower : GoString → GoString} (hempty : toLower [] = [])
    (products : List Product) (payload : GatewayPython.LookupInput) {request : DataService.Request}
    (hbody : request.body = encodeLookup (lookupInternal payload)) :
    DataService.lookup toLower (newStore toLower products) request =
      some ⟨200, .products (.of (lookupResults toLower products payload.q))⟩ := by
  have hdenotes := encodeLookup_denotes (lookupInternal payload)
  rw [← hbody] at hdenotes
  exact lookup_of_denoted hempty products (List.Perm.refl _) hdenotes

/-! ### A lookup and a search at a time -/

def lookupDecoders : Decoders :=
  { msgspecDecoders plainMsgspec with
    lookup := fun body => match decodeLookupInput plainMsgspec body with
      | some payload => .ok payload
      | none => .error (.decodeError "malformed") }

theorem lookupDecoders_decodes : lookupDecoders.DecodesLookup plainMsgspec := by
  intro body
  simp only [lookupDecoders]
  cases decodeLookupInput plainMsgspec body <;> rfl

def catalogueDeployment : Deployment :=
  ⟨composeSettings, lookupDecoders, accountWrites, AuthService.oneTokenJwt ⟨[], [], none, none⟩,
    AuthService.keyBcrypt, AuthService.visitIssuer, Bytes.lower, seed⟩

/-- The two replies arrive side by side; one of them breaks. -/
def pairEvents : List Event :=
  let found := (DataService.Payload.products (.of (lookupResults Bytes.lower seed " PE "))).marshal
  let office := (DataService.search (newStore Bytes.lower seed) ⟨[], officeBody⟩).payload.marshal
  [.client ⟨"POST", "/items/lookup", []⟩, .client ⟨"POST", "/items/search", []⟩,
    .deliver 1 (.message (.request (some officeBody) (some false))),
    .deliver 0 (.message (.request (some (Bytes.utf8 "\x7b\"q\":\" PE \"\x7d")) none)),
    .deliver 0 (.dataHead (.ok ⟨200, []⟩)), .deliver 1 (.dataHead (.ok ⟨200, []⟩)),
    .deliver 1 (.dataChunk (office.take 20)), .deliver 0 (.dataChunk found),
    .deliver 1 (.dataEnd (.broken .timeoutError)), .deliver 0 (.dataEnd .complete)]

def pairRun : Option System := run (System.step catalogueDeployment) {} pairEvents

def pairEnd : System := pairRun.getD {}

def pairTask (id : Nat) : GatewayPython.Task := (pairEnd.gateway.tasks[id]?).getD { scope := ⟨"", "", []⟩ }

theorem pairEnd_reached : pairRun.isSome ∧ (pairEnd.gateway.tasks[0]?).isSome ∧
    (pairEnd.gateway.tasks[1]?).isSome ∧ (pairTask 0).scope.method = "POST" ∧
    (pairTask 0).scope.path = "/items/lookup" ∧ (pairTask 1).scope.method = "POST" ∧
    (pairTask 1).scope.path = "/items/search" ∧ ∀ id ∈ [0, 1], relayedBody (sent ((pairTask id).run
      catalogueDeployment.settings catalogueDeployment.decoders).log) ≠ [] := by
  decide +kernel

theorem pairRun_eq : pairRun = some pairEnd := AuthService.eq_some_getD pairEnd_reached.1 {}

/-! ### The routes -/

variable {d : Deployment}

structure AsksLookup (scope : Scope) : Prop where
  method : scope.method = "POST"
  path : scope.path = "/items/lookup"

theorem AsksLookup.decision_eq {settings : Settings} {decoders : Decoders} {scope : Scope}
    (h : AsksLookup scope) (world : World) : decision settings decoders scope world =
      bodyDecision world decoders.lookup fun _ payload => lookupRequest settings scope payload := by
  rw [decision, h.method, h.path]
  rfl

theorem AsksSearch.decision_eq {settings : Settings} {decoders : Decoders} {scope : Scope}
    (h : AsksSearch scope) (world : World) : decision settings decoders scope world =
      bodyDecision world decoders.search fun body _ => searchRequest settings scope body := by
  rw [decision, h.method, h.path]
  rfl

/-- In every state the three processes reach, what a client of `/items/lookup` was relayed tells it of a
200 with at most twenty products of the catalogue: the first whose name contains the string it sent. -/
theorem lookup_relays_results (hbase : d.settings.originBaseUrl.path = "")
    {msgspec : Msgspec} (hdecodes : d.decoders.DecodesLookup msgspec) (hempty : d.toLower [] = [])
    {events : List Event} {s : System}
    (hrun : run (System.step d) {} events = some s) {id : Nat} {task : GatewayPython.Task}
    (htask : s.gateway.tasks[id]? = some task) (hasks : AsksLookup task.scope)
    (hrelayed : relayedBody (sent (task.run d.settings d.decoders).log) ≠ []) :
    ∃ body rest payload, (readBody task.world.inbox).status = .returned (body, rest) ∧
      decodeLookupInput msgspec body = some payload ∧
      Relays task (sent (task.run d.settings d.decoders).log)
        ⟨200, .products (.of (lookupResults d.toLower d.products payload.q))⟩ := by
  obtain ⟨call, reply, hforward, hserve, hrelays⟩ := System.reply_of_relayed hrun htask hrelayed
  rw [hasks.decision_eq] at hforward
  obtain ⟨body, rest, payload, hbody, hdecode, hcall⟩ := bodyDecision_forward hforward
  have hpayload : decodeLookupInput msgspec body = some payload := by
    rw [← hdecodes body, hdecode]
    rfl
  have hpath : (lookupRequest d.settings task.scope payload).url.path = "/items/lookup" :=
    path_of_base hbase "/items/lookup"
  have hdata : (transmit call.onWire).body = encodeLookup (lookupInternal payload) := by
    show call.request.data.getD [] = _
    rw [hcall, lookupRequest, Option.getD_some]
  have hmethod : (lookupRequest d.settings task.scope payload).method = "POST" := rfl
  rw [hcall, hpath, hmethod, DataService.serve, if_neg (by decide), if_neg (by decide), if_neg (by decide),
    if_pos ⟨rfl, rfl⟩, Deployment.catalogue, lookup_encoded hempty d.products payload hdata] at hserve
  obtain rfl := Option.some.inj hserve
  exact ⟨body, rest, payload, hbody, hpayload, hrelays⟩

theorem lookup_relays_results_pair : ∃ body rest payload,
    (readBody (pairTask 0).world.inbox).status = .returned (body, rest) ∧
    decodeLookupInput plainMsgspec body = some payload ∧
    Relays (pairTask 0)
      (sent ((pairTask 0).run catalogueDeployment.settings catalogueDeployment.decoders).log)
      ⟨200, .products (.of (lookupResults Bytes.lower seed payload.q))⟩ := by
  obtain ⟨-, hsome, -, hmethod, hpath, -, -, hrelayed⟩ := pairEnd_reached
  have htask : pairEnd.gateway.tasks[0]? = some (pairTask 0) :=
    AuthService.eq_some_getD hsome { scope := ⟨"", "", []⟩ }
  exact lookup_relays_results rfl lookupDecoders_decodes rfl pairRun_eq htask ⟨hmethod, hpath⟩
    (hrelayed 0 (by decide))

/-- A client of `/items` or `/items/search` is relayed what data-service would have answered to the body
itself, whatever headers came with it. -/
theorem plain_routes_transparent (hbase : d.settings.originBaseUrl.path = "") {events : List Event}
    {s : System} (hrun : run (System.step d) {} events = some s) {id : Nat} {task : GatewayPython.Task}
    (htask : s.gateway.tasks[id]? = some task)
    (hroute : (task.scope.method = "GET" ∧ task.scope.path = "/items") ∨ AsksSearch task.scope)
    (hrelayed : relayedBody (sent (task.run d.settings d.decoders).log) ≠ []) :
    ∃ body reply, (task.scope.method = "POST" →
        ∃ rest, (readBody task.world.inbox).status = .returned (body, rest)) ∧
      (∀ headers, DataService.serve d.toLower d.catalogue task.scope.method task.scope.path
        ⟨headers, body⟩ = some reply) ∧
      Relays task (sent (task.run d.settings d.decoders).log) reply := by
  obtain ⟨call, reply, hforward, hserve, hrelays⟩ := System.reply_of_relayed hrun htask hrelayed
  obtain ⟨hmethod, hpath⟩ | hasks := hroute
  · have hcall : call.request = itemsRequest d.settings task.scope := by
      rw [decision, if_pos ⟨hmethod, hpath⟩] at hforward
      exact (Decision.forward.inj hforward).symm
    have hurl : (itemsRequest d.settings task.scope).url.path = "/items" := path_of_base hbase "/items"
    have hverb : (itemsRequest d.settings task.scope).method = "GET" := rfl
    rw [hcall, hurl, hverb, DataService.serve, if_pos ⟨rfl, rfl⟩] at hserve
    refine ⟨[], reply, fun hpost => ?_, fun headers => ?_, hrelays⟩
    · rw [hmethod] at hpost
      exact absurd hpost (by decide)
    · rw [hmethod, hpath, DataService.serve, if_pos ⟨rfl, rfl⟩]
      exact hserve
  · rw [hasks.decision_eq] at hforward
    obtain ⟨body, rest, payload, hbody, -, hcall⟩ := bodyDecision_forward hforward
    have hurl : (searchRequest d.settings task.scope body).url.path = "/items/search" :=
      path_of_base hbase "/items/search"
    have hverb : (searchRequest d.settings task.scope body).method = "POST" := rfl
    have hdata : (transmit call.onWire).body = body := by
      show call.request.data.getD [] = _
      rw [hcall, searchRequest, Option.getD_some]
    have hsearch : ∀ request : DataService.Request, request.body = body →
        DataService.search d.catalogue request = DataService.search d.catalogue ⟨[], body⟩ := by
      intro request hrequest
      rw [DataService.search, DataService.search, hrequest]
    rw [hcall, hurl, hverb, DataService.serve, if_neg (by decide), if_neg (by decide), if_pos ⟨rfl, rfl⟩,
      hsearch _ hdata] at hserve
    refine ⟨body, reply, fun _ => ⟨rest, hbody⟩, fun headers => ?_, hrelays⟩
    rw [hasks.method, hasks.path, DataService.serve, if_neg (by decide), if_neg (by decide),
      if_pos ⟨rfl, rfl⟩, hsearch _ rfl]
    exact hserve

theorem plain_routes_transparent_pair : ∃ body reply,
    ((pairTask 1).scope.method = "POST" →
      ∃ rest, (readBody (pairTask 1).world.inbox).status = .returned (body, rest)) ∧
    (∀ headers, DataService.serve Bytes.lower catalogueDeployment.catalogue (pairTask 1).scope.method
      (pairTask 1).scope.path ⟨headers, body⟩ = some reply) ∧
    Relays (pairTask 1)
      (sent ((pairTask 1).run catalogueDeployment.settings catalogueDeployment.decoders).log) reply := by
  obtain ⟨-, -, hsome, -, -, hmethod, hpath, hrelayed⟩ := pairEnd_reached
  have htask : pairEnd.gateway.tasks[1]? = some (pairTask 1) :=
    AuthService.eq_some_getD hsome { scope := ⟨"", "", []⟩ }
  exact plain_routes_transparent rfl pairRun_eq htask (.inr ⟨hmethod, hpath⟩) (hrelayed 1 (by decide))

end ApigateBenchmark.Contract
