import ApigateBenchmark.Library.Bytes
import ApigateBenchmark.Library.Coroutine

/-!
# ASGI messages, bodies and header blocks

The helpers of `common.py`. A handler is a coroutine over the two channels of the ASGI server,
`receive` and `send`, and over the calls it makes on the shared client session: the auth client uses
`session.post`, the route handlers use `session.request`. What the environment has answered so far
is a `World`, and the handlers look at it where the Python code awaits.

A `Fault` is what a call on the session may raise: `clientError` stands for the classes below
`aiohttp.ClientError` that are no `TimeoutError`, `serverTimeoutError` for the family that inherits
from both, and `timeoutError` for the builtin, which `asyncio.TimeoutError` is another name of.

A `DecodeExc` is what a msgspec decoder may raise: `decodeError` stands for `msgspec.DecodeError` and
its subclass `ValidationError`. On bytes that are not UTF-8 and on bodies nested too deeply the decoder
raises exceptions of Python itself, which are neither.
-/

namespace ApigateBenchmark.GatewayPython

abbrev Header := Bytes × Bytes

/-- A message `receive` yields. The two fields of `http.request` may be absent. -/
inductive AsgiMessage where
  | request (body : Option Bytes) (moreBody : Option Bool)
  | disconnect
  | other (type : String)
  deriving DecidableEq

inductive AsgiEvent where
  | start (status : Nat) (headers : List Header)
  | body (body : Bytes) (moreBody : Bool)
  deriving DecidableEq

structure Scope where
  method : String
  path : String
  headers : List Header
  deriving DecidableEq

inductive Fault where
  | clientError (text : String)
  | serverTimeoutError (text : String)
  | timeoutError
  | valueError (text : String)
  deriving DecidableEq

inductive DecodeExc where
  | decodeError (text : String)
  | unicodeDecodeError (text : String)
  | recursionError (text : String)
  deriving DecidableEq

inductive Exc where
  | clientDisconnected
  | authError (status : Nat) (detail : String)
  | fault (fault : Fault)
  | decode (exc : DecodeExc)
  deriving DecidableEq

def Fault.isClientError : Fault → Bool
  | .clientError _ | .serverTimeoutError _ => true
  | _ => false

def Fault.isTimeoutError : Fault → Bool
  | .timeoutError | .serverTimeoutError _ => true
  | _ => false

/-- `str(exc)` -/
def Fault.text : Fault → String
  | .clientError text | .serverTimeoutError text | .valueError text => text
  | .timeoutError => ""

/-- The exceptions an `except DecodeError` clause names. -/
def DecodeExc.isDecodeError : DecodeExc → Bool
  | .decodeError _ => true
  | _ => false

inductive Host where
  | name (name : String)
  | ipLiteral (address : String)
  deriving DecidableEq

structure Url where
  host : Host
  port : Nat
  path : String
  deriving DecidableEq

/-- `multidict.CIMultiDict[str]`: entries in insertion order, compared by the lowered name. -/
abbrev CIMultiDict := List (String × String)

structure UpstreamRequest where
  method : String
  url : Url
  headers : CIMultiDict
  data : Option Bytes
  allowRedirects : Bool
  deriving DecidableEq

inductive Action where
  | send (event : AsgiEvent)
  | post (request : UpstreamRequest)
  | request (request : UpstreamRequest)
  deriving DecidableEq

inductive Question where
  | receive
  | verifyHead
  | verifyBody
  | dataHead
  | dataChunk
  deriving DecidableEq

abbrev Py := Coroutine Action Question Exc

structure ResponseHead where
  status : Nat
  rawHeaders : List Header
  deriving DecidableEq

inductive BodyEnd where
  | complete
  | broken (fault : Fault)
  deriving DecidableEq

/-- What the environment has answered so far: the messages received, the reply of auth-service and
the reply of data-service. -/
structure World where
  inbox : List AsgiMessage := []
  verifyHead : Option (Except Fault ResponseHead) := none
  verifyBody : Option (Except Fault Bytes) := none
  dataHead : Option (Except Fault ResponseHead) := none
  dataChunks : List Bytes := []
  dataEnd : Option BodyEnd := none
  deriving DecidableEq

/-- Go on with what the session call answered, or raise its fault. -/
def awaitCall {α : Type} (question : Question) (answer : Option (Except Fault α)) : Py α :=
  Coroutine.await question (answer.map (Except.mapError .fault))

/-! ### Sending

`send_json` gets its payload encoded already: the only one the gateway sends is `errorPayload`, which
spells out what the JSON encoder of msgspec writes for it.
-/

def hopByHopHeaders : List Bytes :=
  ["connection", "keep-alive", "proxy-authenticate", "proxy-authorization", "te", "trailer",
    "transfer-encoding", "upgrade"].map Bytes.utf8

def endBodyMessage : AsgiEvent := .body [] false

def send (event : AsgiEvent) : Py Unit := Coroutine.perform (.send event)

def hexDigit (n : Nat) : Char := if n < 10 then Char.ofNat (0x30 + n) else Char.ofNat (0x57 + n)

def jsonEscape (c : Char) : List Char :=
  if c = '"' then ['\\', '"']
  else if c = '\\' then ['\\', '\\']
  else if c = '\n' then ['\\', 'n']
  else if c = '\r' then ['\\', 'r']
  else if c = '\t' then ['\\', 't']
  else if c.toNat = 8 then ['\\', 'b']
  else if c.toNat = 12 then ['\\', 'f']
  else if c.toNat < 0x20 then ['\\', 'u', '0', '0', hexDigit (c.toNat / 16), hexDigit (c.toNat % 16)]
  else [c]

def jsonString (s : String) : String := String.ofList ('"' :: s.toList.flatMap jsonEscape ++ ['"'])

def errorPayload (detail : String) : Bytes :=
  Bytes.utf8 ("\x7b\"error\":" ++ jsonString detail ++ "\x7d")

def sendJson (status : Nat) (body : Bytes) (headers : List Header) : Py Unit := do
  let finalHeaders :=
    [(Bytes.utf8 "content-type", Bytes.utf8 "application/json"),
      (Bytes.utf8 "content-length", Bytes.utf8 (toString body.length))] ++ headers
  send (.start status finalHeaders)
  send (.body body false)

def sendError (status : Nat) (detail : String) : Py Unit := sendJson status (errorPayload detail) []

/-! ### Reading the body

The two loops of `read_body`. The first skips to an `http.request` and fills in the defaults of its
fields; the second collects chunks until a message says no more follow. Each hands on the messages it
has left unread.
-/

def firstRequest : List AsgiMessage → Py (Bytes × Bool × List AsgiMessage)
  | [] => Coroutine.suspend .receive
  | .disconnect :: _ => Coroutine.raise .clientDisconnected
  | .request body moreBody :: rest => pure (body.getD [], moreBody.getD false, rest)
  | .other _ :: rest => firstRequest rest

def moreRequests (chunks : List Bytes) : List AsgiMessage → Py (List Bytes × List AsgiMessage)
  | [] => Coroutine.suspend .receive
  | .disconnect :: _ => Coroutine.raise .clientDisconnected
  | .request body moreBody :: rest =>
      let chunk := body.getD []
      let chunks := if chunk = [] then chunks else chunks ++ [chunk]
      if moreBody.getD false then moreRequests chunks rest else pure (chunks, rest)
  | .other _ :: rest => moreRequests chunks rest

def readBody (inbox : List AsgiMessage) : Py (Bytes × List AsgiMessage) := do
  let (firstChunk, moreBody, rest) ← firstRequest inbox
  if moreBody then
    let (chunks, rest) ← moreRequests (if firstChunk = [] then [] else [firstChunk]) rest
    return (chunks.flatten, rest)
  else
    return (firstChunk, rest)

/-! ### Header blocks -/

/-- `headers[key] = value`: the first entry of that name is replaced, the others are dropped. -/
def CIMultiDict.set (key value : String) : CIMultiDict → CIMultiDict
  | [] => [(key, value)]
  | (k, v) :: rest =>
      if Bytes.lowerText k = Bytes.lowerText key then
        (key, value) :: rest.filter fun entry => Bytes.lowerText entry.1 ≠ Bytes.lowerText key
      else (k, v) :: CIMultiDict.set key value rest

def droppedFromRequest (dropAuthorization : Bool) (key : Bytes) : Bool :=
  hopByHopHeaders.contains key || key == Bytes.utf8 "host" || key == Bytes.utf8 "content-length" ||
    (dropAuthorization && key == Bytes.utf8 "authorization")

def requestHeadersForUpstream (scope : Scope) (dropAuthorization : Bool) : CIMultiDict :=
  (scope.headers.filter fun entry => !droppedFromRequest dropAuthorization entry.1).map fun entry =>
    (Bytes.latin1 entry.1, Bytes.latin1 entry.2)

def responseHeadersFromUpstream (rawHeaders : List Header) : List Header :=
  rawHeaders.filter fun entry => !hopByHopHeaders.contains (Bytes.lower entry.1)

def extractAuthorization (scope : Scope) : Option String :=
  (scope.headers.find? fun entry => entry.1 == Bytes.utf8 "authorization").map fun entry =>
    Bytes.latin1 entry.2

end ApigateBenchmark.GatewayPython
