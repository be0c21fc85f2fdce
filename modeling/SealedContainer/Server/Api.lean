import SealedContainer.Bytes.Base64
import SealedContainer.Capsule.Json
import SealedContainer.Capsule.Service
import SealedContainer.Config
import SealedContainer.Http
import SealedContainer.Key.Public
import SealedContainer.Text

/-!
The capsule server as a function of requests. In one mode it takes capsules from senders, in the
other it gives them to their recipients. Who sends a request is seen by a gateway in front of the
server, which verifies the client and passes on its public key in a header; the header counts only if
the server is told to trust it.
-/

namespace SealedContainer

structure Metrics where
  created : Nat
  fetched : Nat
  notFound : Nat
  expired : Nat
  deriving DecidableEq, Repr

namespace Metrics

def zero : Metrics := ⟨0, 0, 0, 0⟩

def counterText (name help : String) (count : Nat) : String :=
  s!"# HELP {name} {help}.\n# TYPE {name} counter\n{name}_total {count}\n"

def text (m : Metrics) : String :=
  counterText "cdoc2_capsules_created" "Key capsules stored" m.created ++
  counterText "cdoc2_capsules_fetched" "Key capsules released to their recipient" m.fetched ++
  counterText "cdoc2_capsules_not_found"
    "Fetches answered with not found (absent id or wrong recipient)" m.notFound ++
  counterText "cdoc2_capsules_expired" "Key capsules deleted by the expiry sweep" m.expired ++
  "# EOF\n"

def page (m : Metrics) (path : String) : Option Http.Response :=
  if path = "/metrics" then some ⟨200, [("content-type", "text/plain; version=0.0.4")], m.text⟩
  else if path = "/healthz" then some (Http.Response.ofText 200 "ok")
  else none

def respond (m : Metrics) (method path : String) : Http.Response :=
  match m.page path with
  | none => .ofStatus 404
  | some found =>
    if method = "GET" then found
    else if method = "HEAD" then found.withoutBody
    else .notAllowed "GET,HEAD"

end Metrics

structure IdentitySource where
  trusted : Bool
  /-- The name of the header with the public key in base 64. -/
  header : String
  deriving DecidableEq, Repr

namespace IdentitySource

def isBlankByte (b : UInt8) : Bool := b == 32 || b == 9 || b == 10 || b == 12 || b == 13

def keyOfHeader? (value : Bytes) : Option PublicKey := do
  let digits := (trimBoth isBlankByte value).map fun b => Char.ofNat b.toNat
  let info ← Base64.decode digits
  (PublicKey.ofInfo info).toOption

def identify (source : IdentitySource) (request : Http.Request) : Option PublicKey :=
  if source.trusted then (request.header? source.header).bind keyOfHeader? else none

end IdentitySource

inductive ApiError where
  | badRequest (text : String)
  | unauthorized
  | notFound
  | notServed
  | internal
  deriving DecidableEq, Repr

namespace ApiError

def status : ApiError → Nat
  | badRequest _ => 400
  | unauthorized => 401
  | notFound => 404
  | notServed => 405
  | internal => 500

def text : ApiError → String
  | badRequest text => text
  | unauthorized => "client certificate required"
  | notFound => "key capsule not found"
  | notServed => "operation not served by this instance"
  | internal => "internal server error"

def response (e : ApiError) : Http.Response :=
  .ofJson e.status (Json.printObject [("error", Json.printText e.text)])

/-- What a client is told of an error. What goes wrong inside is kept from it. -/
def ofCapsuleError : CapsuleError → ApiError
  | .invalid fault => .badRequest fault.message
  | .unsupported kind => .badRequest (CapsuleError.message (.unsupported kind))
  | .notFound => .notFound
  | .duplicate _ | .storage _ | .crypto _ => .internal

end ApiError

structure ServerState where
  storage : Storage
  metrics : Metrics
  deriving DecidableEq

structure CapsuleServer where
  mode : ServerMode
  policy : ExpiryPolicy
  identity : IdentitySource
  deriving DecidableEq

namespace CapsuleServer

def expiryHeader : String := "x-expiry-time"

def maxBodySize : Nat := 2097152

def isJsonRequest (request : Http.Request) : Bool :=
  (((request.header? "content-type").bind Http.visible?).bind Http.MediaType.parse).any
    Http.MediaType.isJson

def readCapsule (request : Http.Request) : Except ApiError Capsule :=
  if !isJsonRequest request then
    .error (.badRequest "Expected request with \x60Content-Type: application/json\x60")
  else if maxBodySize < request.body.length then
    .error (.badRequest "Failed to buffer the request body: length limit exceeded")
  else
    match Capsule.parse request.body with
    | .ok c => .ok c
    | .error .malformed => .error (.badRequest "Failed to parse the request body as JSON")
    | .error .mismatch =>
      .error (.badRequest "Failed to deserialize the JSON body into the target type")

def requestedExpiry (request : Http.Request) : Except ApiError (Option Instant) :=
  match request.header? expiryHeader with
  | none => .ok none
  | some value =>
    match Http.visible? value with
    | none => .error (.badRequest s!"{expiryHeader} is not ASCII")
    | some text =>
      match Instant.parse text with
      | some t => .ok (some t)
      | none => .error (.badRequest s!"invalid {expiryHeader}: {text}")

def location (id : String) : String := "/key-capsules/" ++ id

/-- A text as the value of a header, which cannot be every text. -/
def headerValue (text : String) : Except ApiError String :=
  if Http.isFieldText text then .ok text else .error .internal

def created (receipt : Receipt) : Except ApiError Http.Response := do
  let place ← headerValue (location receipt.id)
  let expiry ← headerValue receipt.expiry.text
  return ⟨201, [("location", place), (expiryHeader, expiry)], ""⟩

def create (server : CapsuleServer) (request : Http.Request) (now : Instant) (draws : Draws)
    (state : ServerState) : ServerState × Except ApiError Http.Response :=
  match (do return (← readCapsule request, ← requestedExpiry request) : Except ApiError _) with
  | .error e => (state, .error e)
  | .ok (c, requested) =>
    match c.store server.policy requested now draws state.storage with
    | (storage, .ok receipt) =>
      let metrics := { state.metrics with created := state.metrics.created + 1 }
      (⟨storage, metrics⟩, created receipt)
    | (storage, .error e) => ({ state with storage }, .error (.ofCapsuleError e))

def release (server : CapsuleServer) (request : Http.Request) (segment : List Char)
    (state : ServerState) : ServerState × Except ApiError Http.Response :=
  match server.identity.identify request with
  | none => (state, .error .unauthorized)
  | some caller =>
    match Bytes.toString? (Http.Target.unescaped segment) with
    | none => (state, .ok (.ofText 400 "Invalid URL"))
    | some id =>
      match state.storage.fetch id caller with
      | (storage, .ok c) =>
        let metrics := { state.metrics with fetched := state.metrics.fetched + 1 }
        (⟨storage, metrics⟩, .ok (.ofJson 200 c.print.toList))
      | (storage, .error .notFound) =>
        let metrics := { state.metrics with notFound := state.metrics.notFound + 1 }
        (⟨storage, metrics⟩, .error .notFound)
      | (storage, .error e) => ({ state with storage }, .error (.ofCapsuleError e))

inductive Resource where
  | capsules
  /-- One capsule, its id as it stands in the path. -/
  | capsule (segment : List Char)
  deriving DecidableEq, Repr

def resource? (path : String) : Option Resource :=
  let root := "/key-capsules".toList
  let cs := path.toList
  if cs = root then some .capsules
  else if (root ++ ['/']).isPrefixOf cs then
    let segment := cs.drop (root.length + 1)
    if segment.isEmpty || segment.contains '/' then none else some (.capsule segment)
  else none

def answer (server : CapsuleServer) (request : Http.Request) (now : Instant) (draws : Draws)
    (state : ServerState) : ServerState × Except ApiError Http.Response :=
  match (Http.Target.path? request.target).bind resource?, server.mode with
  | none, _ => (state, .ok (.ofStatus 404))
  | some .capsules, .put =>
    if request.method = "POST" then server.create request now draws state
    else (state, .ok (.notAllowed "POST"))
  | some (.capsule segment), .get =>
    if request.method = "GET" ∨ request.method = "HEAD" then server.release request segment state
    else (state, .ok (.notAllowed "GET,HEAD"))
  | some (.capsule _), .put | some .capsules, .get => (state, .error .notServed)

def respond (server : CapsuleServer) (request : Http.Request) (now : Instant) (draws : Draws)
    (state : ServerState) : ServerState × Http.Response :=
  let (state, result) := server.answer request now draws state
  let response := match result with
    | .ok response => response
    | .error e => e.response
  (state, if request.method = "HEAD" then response.withoutBody else response)

end CapsuleServer

end SealedContainer
