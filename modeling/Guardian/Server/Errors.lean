import Guardian.Core.Checks
import Guardian.Lib.Json
import Guardian.Lib.OrderedMap

/-!
# Error envelopes

The tagged errors of the server shell, the envelope each is answered with, and the
global error handler. A number that is only ever printed stands as its decimal text.
-/

namespace Guardian

inductive GuardianError where
  | unauthenticated (message : String)
  | forbidden (message : String)
  | badRequest (message : String) (details : Option Json)
  | unsupportedMediaType (message : String)
  | payloadTooLarge (message : String)
  | unsupportedChain (message : String) (chainId : ℚ)
  | notFound (message : String) (details : Option Json)
  | stateConflict (message : String) (checks : List CheckEntry)
  | validationFailed (message : String) (checks : List CheckEntry)
  | rateLimited (message : String) (retryAfterSeconds : String)
  | internalError (message : String)
  | upstreamUnavailable (message : String) (status : ℕ) (retryAfterSeconds : Option String)

inductive ErrorCode where
  | unauthenticated
  | forbidden
  | bad_request
  | unsupported_chain
  | not_found
  | state_conflict
  | validation_failed
  | rate_limited
  | internal_error
  | upstream_unavailable
  deriving DecidableEq, Repr

structure ErrorEnvelope where
  error : ErrorCode
  message : String
  requestId : String
  details : Option Json
  checks : Option (List CheckEntry)

def envelope (code : ErrorCode) (message requestId : String) (details : Option Json) :
    ErrorEnvelope := ⟨code, message, requestId, details, none⟩

def envelopeWithChecks (code : ErrorCode) (message requestId : String)
    (checks : List CheckEntry) : ErrorEnvelope := ⟨code, message, requestId, none, some checks⟩

structure ResolvedError where
  status : ℕ
  envelope : ErrorEnvelope
  retryAfterSeconds : Option String

def resolveError (requestId : String) : GuardianError → ResolvedError
  | .unauthenticated message =>
    ⟨401, envelope .unauthenticated message requestId none, none⟩
  | .forbidden message => ⟨403, envelope .forbidden message requestId none, none⟩
  | .badRequest message details => ⟨400, envelope .bad_request message requestId details, none⟩
  | .unsupportedMediaType message => ⟨415, envelope .bad_request message requestId none, none⟩
  | .payloadTooLarge message => ⟨413, envelope .bad_request message requestId none, none⟩
  | .unsupportedChain message chainId =>
    ⟨400, envelope .unsupported_chain message requestId (some (.obj [("chainId", .num chainId)])),
      none⟩
  | .notFound message details => ⟨404, envelope .not_found message requestId details, none⟩
  | .stateConflict message checks =>
    ⟨409, envelopeWithChecks .state_conflict message requestId checks, none⟩
  | .validationFailed message checks =>
    ⟨422, envelopeWithChecks .validation_failed message requestId checks, none⟩
  | .rateLimited message retryAfterSeconds =>
    ⟨429, envelope .rate_limited message requestId none, some retryAfterSeconds⟩
  | .internalError message => ⟨500, envelope .internal_error message requestId none, none⟩
  | .upstreamUnavailable message status retryAfterSeconds =>
    ⟨status, envelope .upstream_unavailable message requestId none, retryAfterSeconds⟩

inductive ParseCause where
  | tagged (error : GuardianError)
  | syntaxError (message : String)
  | other

/-- A thrown value, by what the handler tells apart. Of a validation error it reads the
phase and the message rebuilt from the issue list. -/
inductive ThrownValue where
  | validation (phase sanitized : String)
  | tagged (error : GuardianError)
  | routerMiss
  | parse (cause : ParseCause)
  | syntaxError (message : String)
  | other

def toGuardianError : ThrownValue → GuardianError
  | .validation phase sanitized =>
    if phase = "response" then .internalError "Unexpected Guardian-side failure"
    else .badRequest sanitized (some (.obj [("schema", .str phase)]))
  | .tagged error => error
  | .routerMiss => .notFound "Unknown route" none
  | .parse (.tagged error) => error
  | .parse (.syntaxError message) => .badRequest s!"Malformed JSON: {message}" none
  | .parse .other => .badRequest "Malformed request body" none
  | .syntaxError message => .badRequest s!"Malformed JSON: {message}" none
  | .other => .internalError "Unexpected Guardian-side failure"

abbrev Headers := OrderedMap String String

namespace Headers

def REQUEST_ID : String := "X-Request-Id"
def GUARDIAN_VERSION : String := "X-Guardian-Version"
def RATELIMIT_LIMIT : String := "X-RateLimit-Limit"
def RATELIMIT_REMAINING : String := "X-RateLimit-Remaining"
def RATELIMIT_RESET : String := "X-RateLimit-Reset"
def RETRY_AFTER : String := "Retry-After"

end Headers

/-- A response whose body is an error's envelope or what the route's handler returns. -/
structure Response where
  status : ℕ
  headers : Headers
  body : ErrorEnvelope ⊕ Json

def setRetryAfter (headers : Headers) : Option String → Headers
  | none => headers
  | some seconds => headers.set Headers.RETRY_AFTER seconds

def onError (requestId : String) (headers : Headers) (thrown : ThrownValue) : Response :=
  let resolved := resolveError requestId (toGuardianError thrown)
  let headers := (headers.set Headers.REQUEST_ID requestId).set "Content-Type"
    "application/json; charset=utf-8"
  let headers :=
    if resolved.status = 401 then headers.set "WWW-Authenticate" "Bearer realm=\"guardian\""
    else headers
  ⟨resolved.status, setRetryAfter headers resolved.retryAfterSeconds, .inl resolved.envelope⟩

end Guardian
