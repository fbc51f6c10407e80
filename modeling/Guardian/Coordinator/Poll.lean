import Guardian.Core.Responses
import Guardian.Lib.Double
import Guardian.Lib.OrderedMap
import Guardian.Lib.Sum

/-!
# The coordinator's poll

One process polls grunt-api for open signing requests, has its guardian sign the
rows it admits and submits the signatures. The guardian is any program over its
own environment `G`; the answers of grunt-api are any documents or errors. A
signing call stands for the call raced with its deadline, so the deadline's 503
is one of its errors. `fuel` bounds the pages that a run reads of one filter.
-/

namespace Guardian
open Effect Text

/-- What a handler catches, by its class; the text of a `ZodError` is never read. -/
inductive Caught where
  | zodError
  | error (message : String)
  | upstreamUnavailable (message : String)
  deriving DecidableEq, Repr

structure PollFilter where
  chainId : Option ℕ
  facility : Option String
  deriving DecidableEq, Repr

structure PollCycleStats where
  fetched : ℕ
  signed : ℕ
  skipped : ℕ
  failed : ℕ
  deriving DecidableEq, Repr

inductive LogLine where
  | malformed
  | submitted (id : String)
  | failed (id : String) (error : Caught) (gaveUp : Bool)
  | pollFailed (error : Caught)
  | heartbeat (ok : Bool) (stats : PollCycleStats)
  deriving DecidableEq, Repr

structure Submission where
  chainId : ℕ
  signature : String
  nonce : Option String
  deriving DecidableEq, Repr

inductive ApiOp where
  | getSigningRequests (filter : PollFilter) (page pageSize : ℕ)
  | putNonce (id : String) (candidates : List String)
  | putSubmission (id : String) (submission : Submission)
  | log (line : LogLine)

abbrev ApiOp.Answer : ApiOp → Type
  | log _ => Unit
  | _ => Except Caught Json

abbrev gruntApi : Signature := ⟨ApiOp, ApiOp.Answer⟩

abbrev coord (G : Signature) : Signature := G.sum gruntApi

abbrev Coordinating (G : Signature) (α : Type) := Program (coord G) α

abbrev api {G : Signature} (op : ApiOp) : Coordinating G op.Answer :=
  @Program.call (coord G) (.inr op)

inductive SigningKind where
  | setRequest
  | setFund
  | swap
  | requestWhitelisting
  deriving DecidableEq, Repr

def zSigningKind (j : Json) : Option SigningKind :=
  j.string?.bind fun s =>
    if s = "set_request" then some .setRequest
    else if s = "set_fund" then some .setFund
    else if s = "swap" then some .swap
    else if s = "request_whitelisting" then some .requestWhitelisting
    else none

/-- A row. An absent submission is read as a null one. -/
structure SigningRequest where
  id : String
  kind : SigningKind
  chainId : ℚ
  facility : String
  payloadHash : String
  body : Json
  mySubmission : Option Json

def nullish : Option Json → Option Json
  | some .null => none
  | j => j

def zSigningRequest (j : Json) : Option SigningRequest := do
  let id ← (j.get? "id").bind Json.string?
  let kind ← (j.get? "kind").bind zSigningKind
  let chainId ← (j.get? "chainId").bind Json.num?
  let facility ← (j.get? "facility").bind Json.string?
  let payloadHash ← (j.get? "payloadHash").bind Json.string?
  let body ← j.get? "body"
  return ⟨id, kind, chainId, facility, payloadHash, body, nullish (j.get? "mySubmission")⟩

structure SigningRequestPage where
  total : ℚ
  page : ℚ
  pageSize : ℚ
  items : List Json

def zSigningRequestPage (j : Json) : Option SigningRequestPage := do
  let total ← (j.get? "total").bind Json.num?
  let page ← (j.get? "page").bind Json.num?
  let pageSize ← (j.get? "pageSize").bind Json.num?
  let items ← (j.get? "items").bind Json.array?
  return ⟨total, page, pageSize, items⟩

structure Reservation where
  nonce : String
  payloadHash : String
  deriving DecidableEq, Repr

/-- `^(0|[1-9][0-9]{0,77})$`. -/
def RESERVED_NONCE_RE (s : String) : Bool :=
  isCanonicalDecimal s.toList && decide (s.toList.length ≤ 78)

def zReservation (j : Json) : Option Reservation := do
  let nonce ← (j.get? "nonce").bind (Json.stringWhere? RESERVED_NONCE_RE)
  let payloadHash ← (j.get? "payloadHash").bind (Json.stringWhere? HASH32_RE)
  return ⟨nonce, payloadHash⟩

inductive ParsedSigningBody where
  | setRequest (body : IntentRequestBindingBody)
  | setFund (body : IntentFundBindingBody)
  | swap (body : IntentSwapBody)
  | requestWhitelisting (body : RequestWhitelistingBody)
  deriving DecidableEq, Repr

namespace ParsedSigningBody

def chainId : ParsedSigningBody → ℕ
  | setRequest body => body.chainId
  | setFund body => body.chainId
  | swap body => body.chainId
  | requestWhitelisting body => body.chainId

def target : ParsedSigningBody → String × Address
  | setRequest body => ("facility", body.facility)
  | setFund body => ("facility", body.facility)
  | swap body => ("facility", body.facility)
  | requestWhitelisting body => ("whitelistBook", body.whitelistBook)

def zResponse : ParsedSigningBody → Json → Option SigningSuccess
  | requestWhitelisting _, j =>
    (zRequestWhitelistingResponse j).map RequestWhitelistingResponse.toSigningSuccess
  | _, j => zSigningSuccess j

end ParsedSigningBody

/-- `{ ...body, nonce: "0" }`, for a body without a nonce. -/
def withPlaceholderNonce : Json → Json
  | .obj fields =>
    if "nonce" ∈ fields.map Prod.fst then .obj fields else .obj (fields ++ [("nonce", .str "0")])
  | j => j

def parseSigningBody (request : SigningRequest) : Option ParsedSigningBody :=
  match request.kind with
  | .setRequest => (zIntentRequestBindingBody request.body).map .setRequest
  | .setFund => (zIntentFundBindingBody request.body).map .setFund
  | .swap => (zIntentSwapBody request.body).map .swap
  | .requestWhitelisting =>
    (zRequestWhitelistingBody (withPlaceholderNonce request.body)).map .requestWhitelisting

structure CoordinatorGuardian (G : Signature) where
  guardianSigner : Address
  probeUpstream : Option (Program G (Except Caught Unit))
  getChainClient : ℕ → Program G (Except Caught Unit)
  signIntentRequestBinding : IntentRequestBindingBody → Program G (Except Caught Json)
  signIntentFundBinding : IntentFundBindingBody → Program G (Except Caught Json)
  signIntentSwap : IntentSwapBody → Program G (Except Caught Json)
  signRequestWhitelisting : Option (RequestWhitelistingBody → Program G (Except Caught Json))
  whitelistNonceCandidates :
    Option (RequestWhitelistingBody → Program G (Except Caught (List String)))

structure GuardianCoordinatorOptions (G : Signature) where
  guardian : CoordinatorGuardian G
  pageSize : ℕ
  chainIds : Option (List ℕ)
  facilities : Option (List String)

section Coordinator
variable {G : Signature}

def runSigning (guardian : CoordinatorGuardian G) (chainId : ℕ)
    (sign : Program G (Except Caught Json)) : Program G (Except Caught Json) := do
  match ← guardian.probeUpstream.getD (return .ok ()) with
  | .error e => return .error e
  | .ok _ =>
    match ← guardian.getChainClient chainId with
    | .error e => return .error e
    | .ok _ => sign

def runSigningOf (guardian : CoordinatorGuardian G) :
    ParsedSigningBody → Program G (Except Caught Json)
  | .setRequest body => runSigning guardian body.chainId (guardian.signIntentRequestBinding body)
  | .setFund body => runSigning guardian body.chainId (guardian.signIntentFundBinding body)
  | .swap body => runSigning guardian body.chainId (guardian.signIntentSwap body)
  | .requestWhitelisting body =>
    match guardian.signRequestWhitelisting with
    | none =>
      return .error (.error
        "request_whitelisting signing requires signRequestWhitelisting support")
    | some signRequestWhitelisting =>
      runSigning guardian body.chainId (signRequestWhitelisting body)

def checkSigned (guardianSigner : Address) (payloadHash : String) (parsed : ParsedSigningBody)
    (signed : Json) : Except Caught SigningSuccess :=
  match parsed.zResponse signed with
  | none => .error .zodError
  | some checked =>
    if toLowerCase checked.payloadHash ≠ toLowerCase payloadHash then
      .error (.error (s!"payloadHash mismatch: signer returned {checked.payloadHash}, " ++
        s!"coordinator expected {payloadHash}"))
    else if toLowerCase checked.guardian ≠ toLowerCase guardianSigner then
      .error (.error
        s!"guardian mismatch: signer returned {checked.guardian}, expected {guardianSigner}")
    else .ok checked

def signWithGuardian (guardian : CoordinatorGuardian G) (payloadHash : String)
    (parsed : ParsedSigningBody) : Coordinating G (Except Caught SigningSuccess) := do
  let signed ← (runSigningOf guardian parsed).inLeft
  return signed.bind (checkSigned guardian.guardianSigner payloadHash parsed)

structure Announced where
  parsed : ParsedSigningBody
  payloadHash : String
  nonce : Option String
  deriving DecidableEq, Repr

/-- A whitelisting body that leaves its nonce to the coordinator. -/
def independentNonce (request : SigningRequest) (parsed : ParsedSigningBody) : Bool :=
  match parsed with
  | .requestWhitelisting _ => decide ("nonce" ∉ request.body.keys)
  | _ => false

def acceptReservation (body : RequestWhitelistingBody) (candidates : List String)
    (answer : Json) : Except Caught (Option Announced) :=
  match zReservation answer with
  | none => .error .zodError
  | some reserved =>
    if reserved.nonce ∈ candidates then
      .ok (some ⟨.requestWhitelisting { body with nonce := reserved.nonce },
        reserved.payloadHash, some reserved.nonce⟩)
    else .error
      (.error "Reserved whitelist nonce is no longer available in this validator's window")

def reserveNonce (guardian : CoordinatorGuardian G) (request : SigningRequest)
    (body : RequestWhitelistingBody) : Coordinating G (Except Caught (Option Announced)) :=
  match guardian.whitelistNonceCandidates with
  | none => return .error (.error "Independent whitelist nonces are not configured")
  | some whitelistNonceCandidates => do
    match ← (whitelistNonceCandidates body).inLeft with
    | .error e => return .error e
    | .ok candidates =>
      if candidates = [] then return .ok none
      else do
        let answer : Except Caught Json ← api (.putNonce request.id candidates)
        return answer.bind (acceptReservation body candidates)

def announce (guardian : CoordinatorGuardian G) (request : SigningRequest)
    (parsed : ParsedSigningBody) : Coordinating G (Except Caught (Option Announced)) :=
  match parsed, independentNonce request parsed with
  | .requestWhitelisting body, true => reserveNonce guardian request body
  | _, _ => return .ok (some ⟨parsed, request.payloadHash, none⟩)

inductive Handled where
  | skipped
  | signed
  deriving DecidableEq, Repr

def submitSigned (guardian : CoordinatorGuardian G) (request : SigningRequest)
    (announced : Announced) : Coordinating G (Except Caught Handled) := do
  match ← signWithGuardian guardian announced.payloadHash announced.parsed with
  | .error e => return .error e
  | .ok signed => do
    let answer : Except Caught Json ← api (.putSubmission request.id
      ⟨announced.parsed.chainId, signed.signature, announced.nonce⟩)
    return answer.map fun _ => .signed

def excluded (options : GuardianCoordinatorOptions G) (parsed : ParsedSigningBody) : Bool :=
  options.chainIds.any (fun chainIds => decide (parsed.chainId ∉ chainIds)) ||
    options.facilities.any fun facilities =>
      decide (toLowerCase parsed.target.2 ∉ facilities)

def handleRequest (options : GuardianCoordinatorOptions G) (request : SigningRequest) :
    Coordinating G (Except Caught Handled) :=
  match parseSigningBody request with
  | none => return .error .zodError
  | some parsed =>
    if request.chainId ≠ parsed.chainId then
      return .error (.error
        s!"chainId mismatch: request {request.chainId}, body {parsed.chainId}")
    else if toLowerCase request.facility ≠ toLowerCase parsed.target.2 then
      return .error (.error
        s!"{parsed.target.1} mismatch: request {request.facility}, body {parsed.target.2}")
    else if excluded options parsed then return .ok .skipped
    else do
      match ← announce options.guardian request parsed with
      | .error e => return .error e
      | .ok none => return .ok .skipped
      | .ok (some announced) => submitSigned options.guardian request announced

/-- `^sign did not complete within \d+ms$`. -/
def SIGN_TIMEOUT (message : String) : Bool :=
  match message.toList.dropPrefix? "sign did not complete within ".toList with
  | none => false
  | some rest =>
    !(rest.takeWhile isDigit).isEmpty && decide (rest.dropWhile isDigit = ['m', 's'])

example : SIGN_TIMEOUT "sign did not complete within 6000ms" = true := by decide
example : SIGN_TIMEOUT "sign did not complete within 0.5ms" = false := by decide

def isSignTimeout : Caught → Bool
  | .upstreamUnavailable message => SIGN_TIMEOUT message
  | _ => false

def SIGN_TIMEOUTS_BEFORE_GIVING_UP : ℕ := 2

abbrev SignTimeouts := OrderedMap String ℕ

def SignTimeouts.hits (timeouts : SignTimeouts) (id : String) : ℕ := (timeouts.get? id).getD 0

structure PollState where
  timeouts : SignTimeouts
  stats : PollCycleStats

namespace PollState

def fetch (s : PollState) (n : ℕ) : PollState :=
  { s with stats := { s.stats with fetched := s.stats.fetched + n } }

def skip (s : PollState) : PollState :=
  { s with stats := { s.stats with skipped := s.stats.skipped + 1 } }

def sign (s : PollState) : PollState :=
  { s with stats := { s.stats with signed := s.stats.signed + 1 } }

def fail (s : PollState) : PollState :=
  { s with stats := { s.stats with failed := s.stats.failed + 1 } }

def hit (s : PollState) (id : String) (e : Caught) : PollState :=
  if isSignTimeout e then { s with timeouts := s.timeouts.set id (s.timeouts.hits id + 1) } else s

def gaveUp (s : PollState) (id : String) : Bool :=
  decide (SIGN_TIMEOUTS_BEFORE_GIVING_UP ≤ s.timeouts.hits id)

@[simp] theorem fetch_timeouts (s : PollState) (n : ℕ) : (s.fetch n).timeouts = s.timeouts := rfl
@[simp] theorem skip_timeouts (s : PollState) : s.skip.timeouts = s.timeouts := rfl
@[simp] theorem sign_timeouts (s : PollState) : s.sign.timeouts = s.timeouts := rfl
@[simp] theorem fail_timeouts (s : PollState) : s.fail.timeouts = s.timeouts := rfl

end PollState

def settleRequest (request : SigningRequest) (s : PollState) :
    Except Caught Handled → Coordinating G PollState
  | .ok .skipped => return s.skip
  | .ok .signed => do
    api (.log (.submitted request.id))
    return s.sign
  | .error e => do
    let s := s.hit request.id e
    api (.log (.failed request.id e (isSignTimeout e && s.gaveUp request.id)))
    return s.fail

def handleItem (options : GuardianCoordinatorOptions G) (item : Json) (s : PollState) :
    Coordinating G PollState :=
  match zSigningRequest item with
  | none => do
    api (.log .malformed)
    return s.fail
  | some request =>
    if request.mySubmission.isSome || s.gaveUp request.id then return s.skip
    else do
      let handled ← handleRequest options request
      settleRequest request s handled

def handleItems (options : GuardianCoordinatorOptions G) :
    List Json → PollState → Coordinating G PollState
  | [], s => return s
  | item :: items, s => do
    let s ← handleItem options item s
    handleItems options items s

/-- `page++`, which sticks at 2^53. -/
def nextPage (page : ℕ) : ℕ := min (page + 1) (2 ^ 53)

theorem nextPage_eq {page : ℕ} (h : page ≤ 2 ^ 53) : (nextPage page : ℚ) = Double.sum page 1 :=
  (Double.sum_one_natCast h).symm

def pollPages (options : GuardianCoordinatorOptions G) (filter : PollFilter) :
    (fuel page : ℕ) → PollState → Coordinating G (Except Caught Unit × PollState)
  | 0, _, s => return (.ok (), s)
  | fuel + 1, page, s => do
    let answer : Except Caught Json ← api (.getSigningRequests filter page options.pageSize)
    match answer with
    | .error e => return (.error e, s)
    | .ok j =>
      match zSigningRequestPage j with
      | none => return (.error .zodError, s)
      | some requests => do
        let s ← handleItems options requests.items (s.fetch requests.items.length)
        if requests.items.length = 0 ∨ Double.mul page requests.pageSize ≥ requests.total then
          return (.ok (), s)
        else pollPages options filter fuel (nextPage page) s

def pollFilters (options : GuardianCoordinatorOptions G) : List PollFilter :=
  let orAny {α : Type} : Option (List α) → List (Option α)
    | none => [none]
    | some [] => [none]
    | some xs => xs.map some
  (orAny options.chainIds).flatMap fun chainId =>
    (orAny options.facilities).map fun facility => ⟨chainId, facility⟩

def pollEach (options : GuardianCoordinatorOptions G) (fuel : ℕ) :
    List PollFilter → PollState → Coordinating G (Except Caught Unit × PollState)
  | [], s => return (.ok (), s)
  | filter :: filters, s => do
    match ← pollPages options filter fuel 1 s with
    | (.error e, s) => return (.error e, s)
    | (.ok _, s) => pollEach options fuel filters s

def runGuardianCoordinatorOnce (options : GuardianCoordinatorOptions G) (fuel : ℕ)
    (timeouts : SignTimeouts) : Coordinating G (Except Caught Unit × PollState) :=
  pollEach options fuel (pollFilters options) ⟨timeouts, ⟨0, 0, 0, 0⟩⟩

def runGuardianCoordinatorCycle (options : GuardianCoordinatorOptions G) (fuel : ℕ)
    (timeouts : SignTimeouts) : Coordinating G SignTimeouts := do
  match ← runGuardianCoordinatorOnce options fuel timeouts with
  | (.error e, s) => do
    api (.log (.pollFailed e))
    api (.log (.heartbeat false s.stats))
    return s.timeouts
  | (.ok _, s) => do
    api (.log (.heartbeat true s.stats))
    return s.timeouts

/-- The process, up to its n-th cycle. -/
def runGuardianCoordinator (options : GuardianCoordinatorOptions G) (fuel : ℕ) :
    ℕ → SignTimeouts → Coordinating G SignTimeouts
  | 0, timeouts => return timeouts
  | n + 1, timeouts => do
    let timeouts ← runGuardianCoordinatorCycle options fuel timeouts
    runGuardianCoordinator options fuel n timeouts

end Coordinator
end Guardian
