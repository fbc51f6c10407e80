import Guardian.Coordinator.SubmittedSignatures
import Guardian.Lib.Handler
import Guardian.Server.Auth
import Guardian.Server.RawBody

/-!
# The HTTP server

`buildGuardianServer` as one program for each request: the hooks that run before the router,
the router, body capture, the derives of a route, its schemas and its handler. The router, the
text codec and the report of a failed validation are the framework's, and the host's
abstractions are requests to an environment of their own.
-/

namespace Guardian
open Effect Text

structure HttpRequest where
  method : String
  path : String
  contentType : Option String
  contentLength : Option String
  authorization : Option String
  timestamp : Option String
  signature : Option String
  requestId : Option String
  clientName : Option String
  clientVersion : Option String
  stream : Option (List Bytes)

namespace HttpRequest
variable (request : HttpRequest)

def bodyRequest : BodyRequest :=
  ⟨request.method, request.contentType.getD "", request.contentLength, request.stream⟩

def protectedRequest (rawBody : Bytes) : ProtectedRequest :=
  ⟨request.authorization, request.timestamp, request.signature, request.requestId, rawBody⟩

end HttpRequest

def EndpointScope.path : EndpointScope → String
  | .intentRequestBindings => "/v1/facility/intent-request-bindings"
  | .intentFundBindings => "/v1/facility/intent-fund-bindings"
  | .intentSwaps => "/v1/facility/intent-swaps"
  | .requestWhitelistings => "/v1/whitelist-book/request-whitelistings"

inductive Route where
  | health
  | version
  | openapi
  | openapiJson
  | signing (scope : EndpointScope)
  deriving DecidableEq, Repr

namespace Route

def method : Route → String
  | .signing _ => "POST"
  | _ => "GET"

def path : Route → String
  | .health => "/health"
  | .version => "/version"
  | .openapi => "/openapi"
  | .openapiJson => "/openapi/json"
  | .signing scope => scope.path

/-- The page and the document that the OpenAPI plugin serves, ahead of the hooks of the API. -/
def isDocumentation : Route → Bool
  | .openapi => true
  | .openapiJson => true
  | _ => false

end Route

/-- What the server has of its framework. A registered route is found under its own method and
path, a signing route under no other method, and a text that does not parse is a syntax error.
What the OpenAPI plugin answers is its own. -/
structure Framework where
  codec : TextCodec
  find : (method path : String) → Option Route
  report : HttpRequest → (phase : String) → String
  documentation : HttpRequest → Response
  found : ∀ route : Route, find route.method route.path = some route
  post : ∀ {method path : String} {scope : EndpointScope},
    find method path = some (.signing scope) → method = "POST"
  malformed : ∀ {s : String} {thrown : ThrownValue}, codec.parse s = .error thrown →
    ∃ message, thrown = .syntaxError message

def isClientNameChar (c : Char) : Bool :=
  isDigit c || (decide ('a' ≤ c) && decide (c ≤ 'z')) || (decide ('A' ≤ c) && decide (c ≤ 'Z')) ||
    decide (c ∈ ['.', '_', '-'])

/-- `^[A-Za-z0-9._-]{1,64}$`. -/
def CLIENT_NAME_RE (s : String) : Bool :=
  decide (1 ≤ s.toList.length) && decide (s.toList.length ≤ 64) && s.toList.all isClientNameChar

/-- `[0-9A-Za-z-]+`. -/
def isSemverIdentifier (cs : List Char) : Bool :=
  !cs.isEmpty && cs.all fun c => isClientNameChar c && decide (c ≠ '.') && decide (c ≠ '_')

/-- Identifiers joined by dots. -/
def isSemverSuffix (cs : List Char) : Bool := (cs.splitOn '.').all isSemverIdentifier

/-- Three decimals without leading zeros, then an optional pre-release and optional build
metadata. -/
def SEMVER_RE (s : String) : Bool :=
  let core := s.toList.takeWhile fun c => decide (c ≠ '-') && decide (c ≠ '+')
  let rest := s.toList.drop core.length
  let numbers := core.splitOn '.'
  decide (numbers.length = 3) && numbers.all isCanonicalDecimal &&
    match rest with
    | '-' :: cs =>
      isSemverSuffix (cs.takeWhile (· ≠ '+')) &&
        match cs.dropWhile (· ≠ '+') with
        | _ :: build => isSemverSuffix build
        | [] => true
    | _ :: build => isSemverSuffix build
    | [] => true

example : SEMVER_RE "1.10.0-rc.1+build-7" = true := by decide
example : SEMVER_RE "1.02.0" = false := by decide

/-- The two required headers; of the others nothing is asked but that they are strings. -/
def zProtectedRequestHeaders (request : HttpRequest) : Bool :=
  request.clientName.any CLIENT_NAME_RE && request.clientVersion.any SEMVER_RE

namespace EndpointScope

def zBody : EndpointScope → Json → Option ParsedSigningBody
  | .intentRequestBindings, j => (zIntentRequestBindingBody j).map .setRequest
  | .intentFundBindings, j => (zIntentFundBindingBody j).map .setFund
  | .intentSwaps, j => (zIntentSwapBody j).map .swap
  | .requestWhitelistings, j => (zRequestWhitelistingBody j).map .requestWhitelisting

/-- The response that the schema of status 200 reads, in lower case throughout. -/
def zResponse : EndpointScope → Json → Option Json
  | .requestWhitelistings, j =>
    (zRequestWhitelistingResponse j).map RequestWhitelistingResponse.toJson
  | _, j => (zSigningSuccess j).map SigningSuccess.toJson

end EndpointScope

structure VersionResponse where
  build : String
  guardianSigner : Address
  supportedChains : List ℕ
  deriving DecidableEq, Repr

def VersionResponse.toJson (response : VersionResponse) : Json :=
  .obj [("apiVersion", .str "v1"), ("build", .str response.build),
    ("guardianSigner", .str response.guardianSigner),
    ("supportedChains", .arr (response.supportedChains.map fun n : ℕ => .num n))]

def zVersionResponse (j : Json) : Option VersionResponse := do
  guard (j.isStrictObject ["apiVersion", "build", "guardianSigner", "supportedChains"])
  let apiVersion ← (j.get? "apiVersion").bind Json.string?
  guard (apiVersion = "v1")
  let build ← (j.get? "build").bind zNonEmpty
  let guardianSigner ← (j.get? "guardianSigner").bind zAddress
  let supportedChains ← (j.get? "supportedChains").bind Json.array?
  let supportedChains ← supportedChains.mapM zChainId
  return ⟨build, toLowerCase guardianSigner, supportedChains⟩

inductive HostOp where
  | liveness
  | probeUpstream
  | getChainClient (chainId : ℕ)
  | sign (ctx : SigningContext) (body : ParsedSigningBody)

abbrev HostOp.Answer : HostOp → Type
  | liveness => Race (Except GuardianError Unit)
  | probeUpstream => Except ThrownValue (Except GuardianError Unit)
  | getChainClient _ => Except ThrownValue (Except GuardianError Unit)
  | sign .. => Race (Except GuardianError Json)

abbrev host : Signature := ⟨HostOp, HostOp.Answer⟩

abbrev server : Signature := shell.sum host

abbrev Serving (α : Type) := Program server α

abbrev askHost (op : HostOp) : Serving op.Answer := @Program.call server (.inr op)

structure GuardianAbstractions extends AuthAbstractions where
  guardianSigner : Address
  supportedChains : List ℚ
  hasProbe : Bool
  maxBodyBytes : ℕ

section Server
variable (framework : Framework) (abs : GuardianAbstractions)

def probeStage : Serving (Except ThrownValue Unit) :=
  if abs.hasProbe then do
    let probed : Except ThrownValue (Except GuardianError Unit) ← askHost .probeUpstream
    return unwrapOrThrow probed
  else return .ok ()

/-- `runSigning`: the probe, the chain client, and the host's call under the deadline. -/
def GuardianAbstractions.runSigning (body : ParsedSigningBody) :
    Serving (Except ThrownValue Json) :=
  (probeStage abs).andThen fun _ => do
    let client : Except ThrownValue (Except GuardianError Unit) ←
      askHost (.getChainClient body.chainId)
    match unwrapOrThrow client with
    | .error thrown => return .error thrown
    | .ok _ =>
      let now : TimeValue ← (askShell .dateNow).inLeft
      let race : Race (Except GuardianError Json) ←
        askHost (.sign ⟨body.chainId, now.ms, true⟩ body)
      return unwrapOrThrow (withAbstractionDeadline "sign" abs.timeouts.signMs race)

def ParsedBody.json? : ParsedBody → Option Json
  | .json j => some j
  | .text _ => none

def validateRequest (scope : EndpointScope) (request : HttpRequest) (body : Option ParsedBody) :
    Except ThrownValue ParsedSigningBody :=
  if zProtectedRequestHeaders request then
    match (body.bind ParsedBody.json?).bind scope.zBody with
    | some parsed => .ok parsed
    | none => .error (.validation "body" (framework.report request "body"))
  else .error (.validation "headers" (framework.report request "headers"))

def validateResponse (scope : EndpointScope) (request : HttpRequest) (j : Json) :
    Except ThrownValue Json :=
  match scope.zResponse j with
  | some checked => .ok checked
  | none => .error (.validation "response" (framework.report request "response"))

def signingHandler (scope : EndpointScope) (request : HttpRequest) (body : Option ParsedBody) :
    Serving (Except ThrownValue Json) :=
  match validateRequest framework scope request body with
  | .error thrown => return .error thrown
  | .ok parsed => do
    let signed ← abs.runSigning parsed
    return signed.bind (validateResponse framework scope request)

/-- The handler carried out on the route, and every other request left to the shell. -/
def carryOut (scope : EndpointScope) (request : HttpRequest) (body : Option ParsedBody) :
    (op : ShellOp) → Serving op.Answer
  | .handler _ => signingHandler framework abs scope request body
  | .randomUUID => @Program.call server (.inl .randomUUID)
  | .authenticate token => @Program.call server (.inl (.authenticate token))
  | .dateNow => @Program.call server (.inl .dateNow)
  | .accountRateLimit tokenInfo => @Program.call server (.inl (.accountRateLimit tokenInfo))

def versionHeaders : Headers := OrderedMap.empty.set Headers.GUARDIAN_VERSION abs.build

def contentTypeGate (request : HttpRequest) : Except ThrownValue Unit :=
  if request.method ≠ "POST" ∧ request.method ≠ "PUT" then .ok ()
  else if request.bodyRequest.isJson then .ok ()
  else .error (.tagged (.unsupportedMediaType "Content-Type MUST be application/json (§6.1)."))

/-- What a parse hook throws arrives as the cause of a `ParseError`. -/
def parseError : ThrownValue → ThrownValue
  | .tagged error => .parse (.tagged error)
  | .syntaxError message => .parse (.syntaxError message)
  | _ => .parse .other

def failEarly (request : HttpRequest) (thrown : ThrownValue) : Serving Response :=
  (handleError (request.protectedRequest []) (versionHeaders abs) thrown).inLeft

/-- A route without authentication: the request id, and then the handler. -/
def openRoute (request : HttpRequest) (handler : Serving (Except ThrownValue Json)) :
    Serving Response := do
  let requestId ← (resolveRequestId request.requestId).inLeft
  match ← handler with
  | .ok body => return ⟨200, baseHeaders abs.toAuthAbstractions requestId, .inr body⟩
  | .error thrown =>
    (handleError (request.protectedRequest []) (baseHeaders abs.toAuthAbstractions requestId)
      thrown).inLeft

def healthRoute : Serving (Except ThrownValue Json) := do
  let race : Race (Except GuardianError Unit) ← askHost .liveness
  return (unwrapOrThrow (withAbstractionDeadline "liveness" abs.timeouts.livenessMs race)).map
    fun _ => .obj [("status", .str "ok")]

def versionRoute (request : HttpRequest) : Except ThrownValue Json :=
  let response : Json := .obj [("apiVersion", .str "v1"), ("build", .str abs.build),
    ("guardianSigner", .str abs.guardianSigner),
    ("supportedChains", .arr (abs.supportedChains.map .num))]
  match zVersionResponse response with
  | some checked => .ok checked.toJson
  | none => .error (.validation "response" (framework.report request "response"))

def signingRoute (scope : EndpointScope) (request : HttpRequest) : Serving Response :=
  let outcome := onParse framework.codec abs.maxBodyBytes request.bodyRequest
  match outcome.body with
  | .error thrown => failEarly abs request (parseError thrown)
  | .ok body =>
    (protectedRoute abs.toAuthAbstractions scope
      (request.protectedRequest outcome.rawBody)).handle
        (carryOut framework abs scope request body)

def buildGuardianServer (request : HttpRequest) : Serving Response :=
  match contentTypeGate request with
  | .error thrown => failEarly abs request thrown
  | .ok _ =>
    match framework.find request.method request.path with
    | none => failEarly abs request .routerMiss
    | some .health => openRoute abs request (healthRoute abs)
    | some .version => openRoute abs request (return versionRoute framework abs request)
    | some .openapi => return framework.documentation request
    | some .openapiJson => return framework.documentation request
    | some (.signing scope) => signingRoute framework abs scope request

end Server

theorem contentTypeGate_json {request : HttpRequest} {u : Unit}
    (h : contentTypeGate request = .ok u) (hmethod : request.method = "POST") :
    request.bodyRequest.isJson = true := by
  unfold contentTypeGate at h
  split at h
  · rename_i hother
    exact absurd hmethod hother.1
  · split at h
    · rename_i hjson
      exact hjson
    · cases h

/-- What is decoded of a JSON body: the document, the empty one of no bytes at all. -/
def decodedBody (codec : TextCodec) (bytes : Bytes) : Except ThrownValue Json :=
  if bytes.length = 0 then .ok (.obj []) else codec.parse (codec.decode bytes)

/-- A body past the cap is refused; any other is captured whole, and the bytes that are kept are
the bytes that are decoded. -/
theorem onParse_posted (codec : TextCodec) (maxBodyBytes : ℕ) {request : HttpRequest}
    (hmethod : request.method = "POST") (hjson : request.bodyRequest.isJson = true) :
    (onParse codec maxBodyBytes request.bodyRequest).body = .error (payloadTooLarge maxBodyBytes) ∨
      request.bodyRequest.bytes.length ≤ maxBodyBytes ∧
        (onParse codec maxBodyBytes request.bodyRequest).rawBody = request.bodyRequest.bytes ∧
        (onParse codec maxBodyBytes request.bodyRequest).body =
          (decodedBody codec request.bodyRequest.bytes).map fun j => some (.json j) := by
  have hcaptured : request.bodyRequest.Captured := by
    refine ⟨fun hread => ?_, .inl hjson⟩
    have hposted : request.bodyRequest.method = "POST" := hmethod
    rw [hposted] at hread
    revert hread
    decide
  by_cases hlarge : request.bodyRequest.declaredTooLarge maxBodyBytes = true
  · rw [BodyRequest.onParse_refused codec hcaptured hlarge]
    exact .inl rfl
  by_cases hfits : request.bodyRequest.bytes.length ≤ maxBodyBytes
  · rw [BodyRequest.onParse_fits codec hcaptured hlarge hfits, hjson]
    refine .inr ⟨hfits, rfl, ?_⟩
    dsimp only
    rw [decodeBody, if_pos rfl, decodedBody]
    split
    · rfl
    · cases codec.parse (codec.decode request.bodyRequest.bytes) <;> rfl
  · rw [BodyRequest.onParse_over codec hcaptured hlarge hfits]
    exact .inl rfl

namespace Sample

def postedText : String :=
  "\x7b\"chainId\":1,\"facility\":\"" ++ kmsBody.facility ++
    "\",\"intent\":\x7b\"id\":\"7\"\x7d,\"requestContract\":\"" ++ hex 40 ++
    "\",\"deadline\":1050\x7d"

def postedBody : Json :=
  .obj [("chainId", .num 1), ("facility", .str kmsBody.facility),
    ("intent", .obj [("id", .str "7")]), ("requestContract", .str (hex 40)),
    ("deadline", .num 1050)]

def textCodec : TextCodec where
  decode bytes := String.ofList (bytes.map fun b => Char.ofNat b.toNat)
  parse s := if s = postedText then .ok postedBody else .error (.syntaxError "Unexpected token")

theorem textCodec_malformed {s : String} {thrown : ThrownValue}
    (h : textCodec.parse s = .error thrown) : ∃ message, thrown = .syntaxError message := by
  simp only [textCodec] at h
  split at h
  · cases h
  · cases h
    exact ⟨_, rfl⟩

def routes : List Route :=
  [.health, .version, .openapi, .openapiJson, .signing .intentRequestBindings,
    .signing .intentFundBindings, .signing .intentSwaps, .signing .requestWhitelistings]

def findRoute (method path : String) : Option Route :=
  routes.find? fun route => decide (route.method = method) && decide (route.path = path)

theorem findRoute_found (route : Route) : findRoute route.method route.path = some route := by
  cases route with
  | health => decide
  | version => decide
  | openapi => decide
  | openapiJson => decide
  | signing scope => cases scope <;> decide

theorem findRoute_post {method path : String} {scope : EndpointScope}
    (h : findRoute method path = some (.signing scope)) : method = "POST" := by
  have hfound := List.find?_some h
  simp only [Bool.and_eq_true, decide_eq_true_eq] at hfound
  exact hfound.1.symm

def framework : Framework where
  codec := textCodec
  find := findRoute
  report _ phase := phase
  documentation _ := ⟨200, .empty, .inr (.obj [("openapi", .str "3.0.3")])⟩
  found := findRoute_found
  post := findRoute_post
  malformed := textCodec_malformed

def serverToken : TokenInfo := ⟨"dev", [.intentRequestBindings], false, none⟩

def abstractions : GuardianAbstractions where
  build := "0.1.0"
  timeouts := DEFAULT_GUARDIAN_TIMEOUTS
  hasRateLimit := true
  hmacSha256 _ _ := .replicate 32 0
  guardianSigner := kmsAddress
  supportedChains := [1]
  hasProbe := false
  maxBodyBytes := DEFAULT_MAX_BODY_BYTES

def requestUuid : String := "3f2b8c10-9d4e-4a6b-8c2d-0123456789ab"

def postedRequest : HttpRequest where
  method := "POST"
  path := "/v1/facility/intent-request-bindings"
  contentType := some "application/json"
  contentLength := none
  authorization := some "Bearer dev-token"
  timestamp := none
  signature := none
  requestId := some requestUuid
  clientName := some "grunt-api"
  clientVersion := some "1.10.0"
  stream := some [encode postedText]

def signedDocument : Json :=
  SigningSuccess.toJson ⟨kmsAddress, hex 130, kmsDigest, "2024-02-28T23:59:59.999Z",
    [passed "deadline"]⟩

def midnight : TimeValue := ⟨1709164799999, by decide, by decide⟩

def shellAnswers : ∀ op : ShellOp, op.Answer
  | .randomUUID => requestUuid
  | .authenticate _ => .resolved (.ok serverToken)
  | .dateNow => midnight
  | .accountRateLimit _ => .resolved (.ok ⟨"60", "59", "1709164860"⟩)
  | .handler _ => .error .other

def serverAnswers : ∀ op : server.Op, server.Answer op
  | .inl op => shellAnswers op
  | .inr .liveness => .resolved (.ok ())
  | .inr .probeUpstream => .ok (.ok ())
  | .inr (.getChainClient _) => .ok (.ok ())
  | .inr (.sign ..) => .resolved (.ok signedDocument)

end Sample

end Guardian
