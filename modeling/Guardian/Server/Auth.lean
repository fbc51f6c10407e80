import Guardian.Lib.Program
import Guardian.Server.Deadline
import Guardian.Server.Hmac

/-!
# Authentication of a protected route

The derive hook of a protected route as a program over the shell's environment: the
host's token store and rate limiter raced with their deadlines, the clock, a source of
UUIDs and the route's handler behind the hook.
-/

namespace Guardian
open Effect Text

inductive EndpointScope where
  | intentRequestBindings
  | intentFundBindings
  | intentSwaps
  | requestWhitelistings
  deriving DecidableEq, Repr

structure TokenInfo where
  tokenId : String
  scopes : List EndpointScope
  requiresHmac : Bool
  hmacSecret : Option String
  deriving DecidableEq, Repr

structure ProtectedRequest where
  authorization : Option String
  timestamp : Option String
  signature : Option String
  requestId : Option String
  rawBody : Bytes

structure RateLimitWindow where
  limit : String
  remaining : String
  resetUnixSeconds : String

/-- The range of a time value, in milliseconds. -/
def MAX_TIME_VALUE : ℤ := 8640000000000000

structure TimeValue where
  ms : ℤ
  lower : -MAX_TIME_VALUE ≤ ms
  upper : ms ≤ MAX_TIME_VALUE

inductive ShellOp where
  | randomUUID
  | authenticate (token : String)
  | dateNow
  | accountRateLimit (tokenInfo : TokenInfo)
  | handler (tokenInfo : TokenInfo)

abbrev ShellOp.Answer : ShellOp → Type
  | randomUUID => String
  | authenticate _ => Race (Except GuardianError TokenInfo)
  | dateNow => TimeValue
  | accountRateLimit _ => Race (Except GuardianError RateLimitWindow)
  | handler _ => Except ThrownValue Json

abbrev shell : Signature := ⟨ShellOp, ShellOp.Answer⟩

abbrev Shell (α : Type) := Program shell α

abbrev askShell (op : ShellOp) : Shell op.Answer := @Program.call shell op

structure AuthAbstractions where
  build : String
  timeouts : ResolvedGuardianTimeouts
  hasRateLimit : Bool
  hmacSha256 : MacFunction

def unauthenticated (message : String) : ThrownValue := .tagged (.unauthenticated message)

/-- `authz.slice("bearer ".length).trim()` of a header that starts with the scheme. -/
def bearerToken (authorization : Option String) : Except ThrownValue String :=
  let missing := unauthenticated "Missing or malformed Authorization header (§5.1)."
  match authorization with
  | none => .error missing
  | some authz =>
    if ("bearer ".toList).isPrefixOf (toLowerCase authz).toList then
      let token := String.ofList (trim (authz.toList.drop 7))
      if token = "" then .error (unauthenticated "Empty bearer token (§5.1).") else .ok token
    else .error missing

def unwrapOrThrow {α : Type} : Except ThrownValue (Except GuardianError α) →
    Except ThrownValue α
  | .error thrown => .error thrown
  | .ok (.error e) => .error (.tagged e)
  | .ok (.ok a) => .ok a

def authenticate (abs : AuthAbstractions) (token : String) :
    Shell (Except ThrownValue TokenInfo) := do
  let race : Race (Except GuardianError TokenInfo) ← askShell (.authenticate token)
  return unwrapOrThrow (withAbstractionDeadline "authenticate" abs.timeouts.authenticateMs race)

def requireSecret (token : TokenInfo) : Except ThrownValue String :=
  match token.hmacSecret with
  | none => .error (unauthenticated "HMAC required but no secret configured (§5.4).")
  | some secret =>
    if secret = "" then .error (unauthenticated "HMAC required but no secret configured (§5.4).")
    else .ok secret

def HMAC_TIMESTAMP_TOLERANCE_SECONDS : ℚ := 60

def nowUnixSeconds : Shell ℤ := do
  let now : TimeValue ← askShell .dateNow
  return now.ms / 1000

def timestampNumber (tsHeader : String) : ℚ := Double.nearest (decimalValue tsHeader.toList)

def verifyHmac (abs : AuthAbstractions) (request : ProtectedRequest) (secret : String) :
    Shell (Except ThrownValue Unit) :=
  let tsHeader := request.timestamp.getD ""
  let sigHeader := request.signature.getD ""
  if tsHeader = "" ∨ sigHeader = "" then
    return .error (unauthenticated ("X-Guardian-Timestamp and X-Guardian-Signature are " ++
      "required for HMAC-flagged tokens (§5.4.2)."))
  else if isTimestamp tsHeader = false then
    return .error (unauthenticated "X-Guardian-Timestamp MUST be ASCII decimal seconds (§5.4.2).")
  else do
    let now ← nowUnixSeconds
    if |(now : ℚ) - timestampNumber tsHeader| > HMAC_TIMESTAMP_TOLERANCE_SECONDS then
      return .error (unauthenticated "X-Guardian-Timestamp outside the ±60s window (§5.4.3).")
    else
      let expected := computeBodyHmacHex abs.hmacSha256 secret tsHeader request.rawBody
      if timingSafeEqualHex expected (toLowerCase sigHeader) then return .ok ()
      else return .error (unauthenticated "X-Guardian-Signature did not match (§5.4.3).")

def hmacStage (abs : AuthAbstractions) (request : ProtectedRequest) (tokenInfo : TokenInfo) :
    Shell (Except ThrownValue Unit) :=
  if tokenInfo.requiresHmac then
    match requireSecret tokenInfo with
    | .error thrown => return .error thrown
    | .ok secret => verifyHmac abs request secret
  else return .ok ()

def scopeStage (requiredScope : EndpointScope) (tokenInfo : TokenInfo) :
    Except ThrownValue Unit :=
  if requiredScope ∈ tokenInfo.scopes then .ok ()
  else .error (.tagged (.forbidden "Token lacks the scope required by this endpoint (§5.2)."))

def setWindow (window : RateLimitWindow) (headers : Headers) : Headers :=
  ((headers.set Headers.RATELIMIT_LIMIT window.limit).set Headers.RATELIMIT_REMAINING
    window.remaining).set Headers.RATELIMIT_RESET window.resetUnixSeconds

/-- A limiter that returned `RateLimitedError` sets the header before it is thrown. -/
def rejectedWindow (headers : Headers) (result : Except ThrownValue (Except GuardianError
    RateLimitWindow)) : Headers :=
  match result with
  | .ok (.error (.rateLimited _ retryAfterSeconds)) =>
    headers.set Headers.RETRY_AFTER retryAfterSeconds
  | .ok (.ok window) => setWindow window headers
  | _ => headers

def rateLimitStage (abs : AuthAbstractions) (tokenInfo : TokenInfo) (headers : Headers) :
    Shell (Except ThrownValue Unit × Headers) :=
  if abs.hasRateLimit then do
    let race : Race (Except GuardianError RateLimitWindow) ← askShell (.accountRateLimit tokenInfo)
    let result := withAbstractionDeadline "accountRateLimit" abs.timeouts.rateLimitMs race
    return ((unwrapOrThrow result).map fun _ => (), rejectedWindow headers result)
  else return (.ok (), headers)

def makeAuthPlugin (abs : AuthAbstractions) (requiredScope : EndpointScope)
    (request : ProtectedRequest) (headers : Headers) :
    Shell (Except ThrownValue TokenInfo × Headers) :=
  match bearerToken request.authorization with
  | .error thrown => return (.error thrown, headers)
  | .ok token => do
    match ← authenticate abs token with
    | .error thrown => return (.error thrown, headers)
    | .ok tokenInfo =>
      match ← hmacStage abs request tokenInfo with
      | .error thrown => return (.error thrown, headers)
      | .ok _ =>
        match scopeStage requiredScope tokenInfo with
        | .error thrown => return (.error thrown, headers)
        | .ok _ => do
          let (verdict, headers) ← rateLimitStage abs tokenInfo headers
          return (verdict.map fun _ => tokenInfo, headers)

def isLowerHex (c : Char) : Bool := isDigit c || (decide ('a' ≤ c) && decide (c ≤ 'f'))

def isCanonicalUuid (s : String) : Bool :=
  decide (s.toList.length = 36) && s.toList.zipIdx.all fun p =>
    if p.2 ∈ [8, 13, 18, 23] then decide (p.1 = '-') else isLowerHex p.1

def resolveRequestId (headerValue : Option String) : Shell String :=
  match headerValue with
  | none => askShell .randomUUID
  | some value => if isCanonicalUuid value then return value else askShell .randomUUID

def baseHeaders (abs : AuthAbstractions) (requestId : String) : Headers :=
  (OrderedMap.empty.set Headers.GUARDIAN_VERSION abs.build).set Headers.REQUEST_ID requestId

/-- The global error handler, which falls back to the raw header for the request id. -/
def handleError (request : ProtectedRequest) (headers : Headers) (thrown : ThrownValue) :
    Shell Response := do
  match headers.get? Headers.REQUEST_ID with
  | some requestId => return onError requestId headers thrown
  | none =>
    let requestId ← resolveRequestId request.requestId
    return onError requestId headers thrown

def protectedRoute (abs : AuthAbstractions) (requiredScope : EndpointScope)
    (request : ProtectedRequest) : Shell Response := do
  let requestId ← resolveRequestId request.requestId
  match ← makeAuthPlugin abs requiredScope request (baseHeaders abs requestId) with
  | (.error thrown, headers) => handleError request headers thrown
  | (.ok tokenInfo, headers) =>
    let handled : Except ThrownValue Json ← askShell (.handler tokenInfo)
    match handled with
    | .ok body => return ⟨200, headers, .inr body⟩
    | .error thrown => handleError request headers thrown

end Guardian
