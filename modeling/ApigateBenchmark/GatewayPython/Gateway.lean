import ApigateBenchmark.GatewayPython.Common

/-!
# The route handlers and the dispatcher

`schemas.py`, `auth_client.py` and `gateway.py`. The three msgspec decoders are a parameter: a value
of `Decoders` says, for every body, what each of them makes of it, an error being the exception it
raises. The handlers name `ValidationError` and `DecodeError` only, so any other leaves them. What is
proved of the handlers holds for any decoders; the modules on search bodies say what those of msgspec
do.

`auto_decompress=False` and `raise_for_status=False` of the session are modelled by what is absent: a
head of any status is an answer, and body chunks reach the relay as they came.
-/

namespace ApigateBenchmark.GatewayPython

open Coroutine

structure SearchInput where
  category : Option Bytes
  maxPrice : Option Int
  deriving DecidableEq

structure LookupInput where
  q : String
  deriving DecidableEq

structure LookupInternal where
  query : String
  limit : Nat
  source : String
  deriving DecidableEq

structure VerifyOut where
  userId : String
  email : String
  deriving DecidableEq

structure Decoders where
  search : Bytes → Except DecodeExc SearchInput
  lookup : Bytes → Except DecodeExc LookupInput
  verify : Bytes → Except DecodeExc VerifyOut

/-- Decoders that accept nothing. -/
def noDecoders : Decoders where
  search := fun _ => .error (.decodeError "not decoded")
  lookup := fun _ => .error (.decodeError "not decoded")
  verify := fun _ => .error (.decodeError "not decoded")

structure Settings where
  originBaseUrl : Url
  authVerifyUrl : Url

/-- The addresses `docker-compose.yml` configures. -/
def composeSettings : Settings where
  originBaseUrl := ⟨.name "data", 8002, ""⟩
  authVerifyUrl := ⟨.name "auth", 8001, "/verify"⟩

/-- The defaults of `settings.py`. -/
def defaultSettings : Settings where
  originBaseUrl := ⟨.ipLiteral "127.0.0.1", 8002, ""⟩
  authVerifyUrl := ⟨.ipLiteral "127.0.0.1", 8001, "/verify"⟩

def Settings.origin (settings : Settings) (path : String) : Url :=
  { settings.originBaseUrl with path := settings.originBaseUrl.path ++ path }

def itemsUrl (settings : Settings) : Url := settings.origin "/items"
def myItemsUrl (settings : Settings) : Url := settings.origin "/my-items"
def searchUrl (settings : Settings) : Url := settings.origin "/items/search"
def lookupUrl (settings : Settings) : Url := settings.origin "/items/lookup"

def gatewaySource : String := "gateway"
def lookupLimit : Nat := 20

/-- `except (ValidationError, DecodeError)`: `named` is the body of the clause. -/
def exceptDecodeError {α : Type} (named : String → Py α) : DecodeExc → Py α
  | .decodeError text => named text
  | exc => raise (.decode exc)

/-! ### The lookup body -/

/-- `str.isspace` of one character. -/
def isSpace (c : Char) : Bool :=
  (9 ≤ c.toNat && c.toNat ≤ 13) || (0x1c ≤ c.toNat && c.toNat ≤ 0x20) || c.toNat == 0x85 ||
    c.toNat == 0xa0 || c.toNat == 0x1680 || (0x2000 ≤ c.toNat && c.toNat ≤ 0x200a) ||
    c.toNat == 0x2028 || c.toNat == 0x2029 || c.toNat == 0x202f || c.toNat == 0x205f ||
    c.toNat == 0x3000

def strip (s : String) : String :=
  String.ofList (((s.toList.dropWhile isSpace).reverse.dropWhile isSpace).reverse)

def encodeLookup (internal : LookupInternal) : Bytes :=
  Bytes.utf8 ("\x7b\"query\":" ++ jsonString internal.query ++ ",\"limit\":" ++ toString internal.limit ++
    ",\"source\":" ++ jsonString internal.source ++ "\x7d")

variable (settings : Settings) (decoders : Decoders)

/-! ### The auth client -/

def verifyRequest (authorization : String) : UpstreamRequest where
  method := "POST"
  url := settings.authVerifyUrl
  headers := [("Authorization", authorization)]
  data := none
  allowRedirects := true

/-- The `async with` block of `AuthClient.verify`: the bytes of a 200 reply. -/
def verifyExchange (world : World) (authorization : String) : Py Bytes := do
  perform (.post (verifyRequest settings authorization))
  let resp ← awaitCall .verifyHead world.verifyHead
  if resp.status ≠ 200 then
    raise (.authError 401 "invalid or expired token")
  else
    awaitCall .verifyBody world.verifyBody

def verifyExcept : Exc → Py Bytes
  | .fault fault =>
      if fault.isTimeoutError then raise (.authError 401 "auth verify failed: timeout")
      else if fault.isClientError then raise (.authError 401 ("auth verify failed: " ++ fault.text))
      else raise (.fault fault)
  | exc => raise exc

def decodeVerified (raw : Bytes) : Py VerifyOut :=
  match decoders.verify raw with
  | .ok user => pure user
  | .error exc => exceptDecodeError (fun _ => raise (.authError 401 "bad verify response")) exc

def authClientVerify (world : World) (authorization : String) : Py VerifyOut := do
  let raw ← (verifyExchange settings world authorization).handle verifyExcept
  decodeVerified decoders raw

/-! ### Relaying -/

/-- `async for chunk in response.content.iter_any()`, each chunk sent as it comes. -/
def relayChunks : List Bytes → Option BodyEnd → Py Unit
  | chunk :: rest, bodyEnd => do
      send (.body chunk true)
      relayChunks rest bodyEnd
  | [], none => suspend .dataChunk
  | [], some .complete => pure ()
  | [], some (.broken fault) => raise (.fault fault)

def relayResponse (world : World) (response : ResponseHead) : Py Unit := do
  send (.start response.status (responseHeadersFromUpstream response.rawHeaders))
  -- the handler lets a plain `TimeoutError` through, although the head has already left
  (relayChunks world.dataChunks world.dataEnd).handle fun
    | .fault fault => if fault.isClientError then pure () else raise (.fault fault)
    | exc => raise exc
  send endBodyMessage

/-- `async with session.request(...) as upstream: await _relay_response(send, upstream)` -/
def proxy (world : World) (request : UpstreamRequest) : Py Unit := do
  perform (.request request)
  let upstream ← awaitCall .dataHead world.dataHead
  relayResponse world upstream

/-! ### The routes -/

def itemsRequest (scope : Scope) : UpstreamRequest where
  method := "GET"
  url := itemsUrl settings
  headers := requestHeadersForUpstream scope false
  data := none
  allowRedirects := false

def handleItems (scope : Scope) (world : World) : Py Unit := proxy world (itemsRequest settings scope)

def myItemsRequest (scope : Scope) (user : VerifyOut) : UpstreamRequest where
  method := "GET"
  url := myItemsUrl settings
  headers := ((requestHeadersForUpstream scope true).set "x-user-id" user.userId).set "x-user-email" user.email
  data := none
  allowRedirects := false

def handleMyItems (scope : Scope) (world : World) : Py Unit := do
  match extractAuthorization scope with
  | none => sendError 401 "missing authorization"
  | some authorization =>
      let verified ← (some <$> authClientVerify settings decoders world authorization).handle fun
        | .authError status detail => do
            sendError status detail
            pure none
        | exc => raise exc
      match verified with
      | none => pure ()
      | some user => proxy world (myItemsRequest settings scope user)

def searchRequest (scope : Scope) (body : Bytes) : UpstreamRequest where
  method := "POST"
  url := searchUrl settings
  headers := requestHeadersForUpstream scope false
  data := some body
  allowRedirects := false

def handleSearch (scope : Scope) (world : World) : Py Unit := do
  let (body, _) ← readBody world.inbox
  match decoders.search body with
  | .error exc => exceptDecodeError (sendError 400) exc
  | .ok _ => proxy world (searchRequest settings scope body)

def lookupInternal (payload : LookupInput) : LookupInternal where
  query := strip payload.q
  limit := lookupLimit
  source := gatewaySource

def lookupRequest (scope : Scope) (payload : LookupInput) : UpstreamRequest where
  method := "POST"
  url := lookupUrl settings
  headers := requestHeadersForUpstream scope false
  data := some (encodeLookup (lookupInternal payload))
  allowRedirects := false

def handleLookup (scope : Scope) (world : World) : Py Unit := do
  let (body, _) ← readBody world.inbox
  match decoders.lookup body with
  | .error exc => exceptDecodeError (sendError 400) exc
  | .ok payload => proxy world (lookupRequest settings scope payload)

/-! ### The dispatcher -/

def dispatch (scope : Scope) (world : World) : Py Unit :=
  if scope.method = "GET" ∧ scope.path = "/items" then handleItems settings scope world
  else if scope.method = "GET" ∧ scope.path = "/my-items" then handleMyItems settings decoders scope world
  else if scope.method = "POST" ∧ scope.path = "/items/search" then handleSearch settings decoders scope world
  else if scope.method = "POST" ∧ scope.path = "/items/lookup" then handleLookup settings decoders scope world
  else sendError 404 ("unknown route: " ++ scope.method ++ " " ++ scope.path)

/-- The `except` clauses of `asgi_app`, in their order. -/
def onException : Exc → Py Unit
  | .clientDisconnected => pure ()
  | .fault fault =>
      if fault.isClientError then sendError 502 ("upstream client error: " ++ fault.text)
      else if fault.isTimeoutError then sendError 504 "upstream timeout"
      else raise (.fault fault)
  | exc => raise exc

/-- `asgi_app` on an HTTP scope; `ready` says that neither the session nor the auth client is `None`. -/
def asgiApp (ready : Bool) (scope : Scope) (world : World) : Py Unit :=
  if ready then (dispatch settings decoders scope world).handle onException
  else sendError 503 "gateway not ready"

end ApigateBenchmark.GatewayPython
