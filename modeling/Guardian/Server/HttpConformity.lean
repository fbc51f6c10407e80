import Guardian.Server.Http
import Guardian.Server.ResponseCodec

/-!
# Every response conforms

Whatever the host's abstractions do, a request is answered with the version and one canonical
request id, in the header and in the envelope, and an error with a status of its code.
-/

namespace Guardian
open Effect Text Program

/-- The two statuses that the type of an upstream failure allows. -/
def GuardianError.Typed : GuardianError → Prop
  | .upstreamUnavailable _ status _ => status = 502 ∨ status = 503
  | _ => True

def ThrownValue.Typed : ThrownValue → Prop
  | .tagged error => error.Typed
  | .parse (.tagged error) => error.Typed
  | _ => True

def SettledTyped {α : Type} : Except ThrownValue (Except GuardianError α) → Prop
  | .error thrown => thrown.Typed
  | .ok (.error error) => error.Typed
  | .ok (.ok _) => True

def Race.Typed {α : Type} : Race (Except GuardianError α) → Prop
  | .resolved (.error error) => error.Typed
  | .rejected thrown => thrown.Typed
  | _ => True

/-- UUIDs are canonical, the errors of the host are of their types, and a handler that returns
has a document of the route. -/
def ShellAnswer (reads : Json → Prop) : Event shell → Prop
  | ⟨.randomUUID, id⟩ => isCanonicalUuid id = true
  | ⟨.authenticate _, race⟩ => Race.Typed (race : Race (Except GuardianError TokenInfo))
  | ⟨.accountRateLimit _, race⟩ => Race.Typed (race : Race (Except GuardianError RateLimitWindow))
  | ⟨.handler _, handled⟩ =>
    (∀ thrown, (handled : Except ThrownValue Json) = .error thrown → thrown.Typed) ∧
      ∀ j, (handled : Except ThrownValue Json) = .ok j → reads j
  | ⟨.dateNow, _⟩ => True

def HostAnswer : Event host → Prop
  | ⟨.liveness, race⟩ => Race.Typed (race : Race (Except GuardianError Unit))
  | ⟨.probeUpstream, probed⟩ => SettledTyped (probed : Except ThrownValue (Except _ Unit))
  | ⟨.getChainClient _, client⟩ => SettledTyped (client : Except ThrownValue (Except _ Unit))
  | ⟨.sign _ _, race⟩ => Race.Typed (race : Race (Except GuardianError Json))

def ServerAnswer : Event server → Prop
  | ⟨.inl op, answer⟩ => ShellAnswer (fun _ => True) ⟨op, answer⟩
  | ⟨.inr op, answer⟩ => HostAnswer ⟨op, answer⟩

def ErrorCode.statuses : ErrorCode → List ℕ
  | .unauthenticated => [401]
  | .forbidden => [403]
  | .bad_request => [400, 413, 415]
  | .unsupported_chain => [400]
  | .not_found => [404]
  | .state_conflict => [409]
  | .validation_failed => [422]
  | .rate_limited => [429]
  | .internal_error => [500]
  | .upstream_unavailable => [502, 503]

structure ResolvedId (own : Option String) (id : String) : Prop where
  canonical : isCanonicalUuid id = true
  own : ∀ given, own = some given → isCanonicalUuid given = true → id = given

structure Conforms (build : String) (own : Option String) (reads : Json → Prop)
    (response : Response) : Prop where
  version : response.headers.get? Headers.GUARDIAN_VERSION = some build
  requestId : ∃ id, ResolvedId own id ∧ response.headers.get? Headers.REQUEST_ID = some id ∧
    ∀ envelope, response.body = .inl envelope → envelope.requestId = id
  challenge : response.headers.get? "WWW-Authenticate" =
    if response.status = 401 then some "Bearer realm=\"guardian\"" else none
  success : ∀ j, response.body = .inr j → response.status = 200 ∧ reads j
  failure : ∀ envelope, response.body = .inl envelope →
    response.status ∈ envelope.error.statuses ∧
      response.headers.get? "Content-Type" = some "application/json; charset=utf-8" ∧
      (envelope.checks.isSome = true ↔
        envelope.error = .state_conflict ∨ envelope.error = .validation_failed)
  retryAfter : response.status = 429 → (response.headers.get? Headers.RETRY_AFTER).isSome = true

/-- The headers before the handler or an error: the two of every response, no challenge. -/
structure HeadersSet (build id : String) (headers : Headers) : Prop where
  version : headers.get? Headers.GUARDIAN_VERSION = some build
  requestId : headers.get? Headers.REQUEST_ID = some id
  challenge : headers.get? "WWW-Authenticate" = none

theorem toGuardianError_typed {thrown : ThrownValue} (h : thrown.Typed) :
    (toGuardianError thrown).Typed := by
  cases thrown with
  | validation phase sanitized =>
    rw [toGuardianError]
    split <;> trivial
  | tagged error => exact h
  | routerMiss => trivial
  | parse cause =>
    cases cause with
    | tagged error => exact h
    | _ => trivial
  | syntaxError message => trivial
  | other => trivial

structure ResolvedWell (requestId : String) (resolved : ResolvedError) : Prop where
  status : resolved.status ∈ resolved.envelope.error.statuses
  requestId : resolved.envelope.requestId = requestId
  retryAfter : resolved.status = 429 → resolved.retryAfterSeconds.isSome = true
  checks : resolved.envelope.checks.isSome = true ↔
    resolved.envelope.error = .state_conflict ∨ resolved.envelope.error = .validation_failed

theorem resolveError_well (requestId : String) {error : GuardianError} (h : error.Typed) :
    ResolvedWell requestId (resolveError requestId error) := by
  cases error with
  | upstreamUnavailable message status retryAfterSeconds =>
    refine ⟨?_, rfl, fun h429 => ?_, by simp [resolveError, envelope]⟩
    · have hstatus : status = 502 ∨ status = 503 := h
      simpa [resolveError, envelope, ErrorCode.statuses] using hstatus
    · have hstatus : status = 429 := h429
      rcases h with h | h <;> omega
  | _ =>
    constructor <;> simp [resolveError, envelope, envelopeWithChecks, ErrorCode.statuses]

theorem get?_setRetryAfter {headers : Headers} {seconds : Option String} {name : String}
    (h : name ≠ Headers.RETRY_AFTER) :
    (setRetryAfter headers seconds).get? name = headers.get? name := by
  cases seconds with
  | none => rfl
  | some s => rw [setRetryAfter, OrderedMap.get?_set, if_neg h]

theorem onError_conforms {build id : String} {own : Option String} {reads : Json → Prop}
    {headers : Headers} {thrown : ThrownValue} (hid : ResolvedId own id)
    (hversion : headers.get? Headers.GUARDIAN_VERSION = some build)
    (hchallenge : headers.get? "WWW-Authenticate" = none) (hthrown : thrown.Typed) :
    Conforms build own reads (onError id headers thrown) := by
  have hwell := resolveError_well id (toGuardianError_typed hthrown)
  unfold onError
  dsimp only
  generalize resolveError id (toGuardianError thrown) = resolved at hwell
  have hget : ∀ name, name ≠ Headers.RETRY_AFTER → name ≠ "WWW-Authenticate" →
      (setRetryAfter (if resolved.status = 401 then
          ((headers.set Headers.REQUEST_ID id).set "Content-Type"
            "application/json; charset=utf-8").set "WWW-Authenticate" "Bearer realm=\"guardian\""
        else (headers.set Headers.REQUEST_ID id).set "Content-Type"
          "application/json; charset=utf-8") resolved.retryAfterSeconds).get? name =
        ((headers.set Headers.REQUEST_ID id).set "Content-Type"
          "application/json; charset=utf-8").get? name := by
    intro name hretry hauth
    rw [get?_setRetryAfter hretry]
    split
    · rw [OrderedMap.get?_set, if_neg hauth]
    · rfl
  refine ⟨?_, ⟨id, hid, ?_, ?_⟩, ?_, ?_, ?_, ?_⟩
  · rw [hget _ (by decide) (by decide), OrderedMap.get?_set, if_neg (by decide),
      OrderedMap.get?_set, if_neg (by decide)]
    exact hversion
  · rw [hget _ (by decide) (by decide), OrderedMap.get?_set, if_neg (by decide),
      OrderedMap.get?_set_self]
  · intro envelope henvelope
    obtain rfl := Sum.inl.inj henvelope
    exact hwell.requestId
  · rw [get?_setRetryAfter (by decide)]
    dsimp only
    split
    · rw [OrderedMap.get?_set_self]
    · rw [OrderedMap.get?_set, if_neg (by decide), OrderedMap.get?_set, if_neg (by decide)]
      exact hchallenge
  · intro j hj
    cases hj
  · intro envelope henvelope
    obtain rfl := Sum.inl.inj henvelope
    refine ⟨hwell.status, ?_, hwell.checks⟩
    rw [hget _ (by decide) (by decide), OrderedMap.get?_set_self]
  · intro h429
    obtain ⟨seconds, hseconds⟩ := Option.isSome_iff_exists.mp (hwell.retryAfter h429)
    rw [hseconds, setRetryAfter, OrderedMap.get?_set_self]
    rfl

section Stages
variable {reads : Json → Prop}

theorem resolveRequestId_resolved (own : Option String) :
    (resolveRequestId own).Ensures (ShellAnswer reads) (ResolvedId own) := by
  cases own with
  | none =>
    refine ensures_perform.mpr fun id hid => ⟨hid, fun given hgiven => ?_⟩
    cases hgiven
  | some value =>
    unfold resolveRequestId
    dsimp only
    split
    · rename_i hcanonical
      exact ⟨hcanonical, fun given hgiven _ => Option.some.inj hgiven⟩
    · rename_i hcanonical
      refine ensures_perform.mpr fun id hid => ⟨hid, fun given hgiven hcanonical' => ?_⟩
      obtain rfl := Option.some.inj hgiven
      exact absurd hcanonical' hcanonical

theorem bearerToken_typed {authorization : Option String} {thrown : ThrownValue}
    (h : bearerToken authorization = .error thrown) : thrown.Typed := by
  unfold bearerToken at h
  dsimp only at h
  split at h
  · cases h
    trivial
  · split at h
    · split at h
      · cases h
        trivial
      · cases h
    · cases h
      trivial

theorem unwrapOrThrow_typed {α : Type} {r : Except ThrownValue (Except GuardianError α)}
    (h : SettledTyped r) {thrown : ThrownValue} (hthrown : unwrapOrThrow r = .error thrown) :
    thrown.Typed := by
  rcases r with thrown' | (error | a)
  · cases hthrown
    exact h
  · cases hthrown
    exact h
  · cases hthrown

theorem withAbstractionDeadline_typed {α : Type} {abstraction : String} {ms : ℚ}
    {race : Race (Except GuardianError α)} (h : race.Typed) :
    SettledTyped (withAbstractionDeadline abstraction ms race) := by
  rcases race with (error | a) | thrown | _
  · exact h
  · trivial
  · exact h
  · exact .inr rfl

abbrev ThrowsTyped {α : Type} (r : Except ThrownValue α) : Prop :=
  ∀ thrown, r = .error thrown → thrown.Typed

theorem authenticate_typed (abs : AuthAbstractions) (token : String) :
    (authenticate abs token).Ensures (ShellAnswer reads) ThrowsTyped :=
  ensures_perform.mpr fun _ hrace _ hthrown =>
    unwrapOrThrow_typed (withAbstractionDeadline_typed hrace) hthrown

theorem hmacStage_typed (abs : AuthAbstractions) (request : ProtectedRequest) (info : TokenInfo) :
    (hmacStage abs request info).Ensures (ShellAnswer reads) ThrowsTyped := by
  have hunauthenticated : ∀ message, ThrowsTyped
      (.error (unauthenticated message) : Except ThrownValue Unit) := by
    intro message thrown hthrown
    cases hthrown
    trivial
  have hpassed : ThrowsTyped (.ok () : Except ThrownValue Unit) := fun _ hthrown => by cases hthrown
  unfold hmacStage
  split
  · split
    · rename_i thrown hsecret
      unfold requireSecret at hsecret
      split at hsecret
      · cases hsecret
        exact hunauthenticated _
      · split at hsecret
        · cases hsecret
          exact hunauthenticated _
        · cases hsecret
    · unfold verifyHmac
      dsimp only
      split
      · exact hunauthenticated _
      · split
        · exact hunauthenticated _
        · refine .call_bind fun now _ => ?_
          show Program.Ensures _ _ (ite _ _ _)
          split
          · exact hunauthenticated _
          · split
            · exact hpassed
            · exact hunauthenticated _
  · exact hpassed

section Derives
variable {build id : String} {own : Option String}

theorem HeadersSet.set {headers : Headers} (h : HeadersSet build id headers) {name : String}
    (value : String) (hversion : name ≠ Headers.GUARDIAN_VERSION)
    (hid : name ≠ Headers.REQUEST_ID) (hchallenge : name ≠ "WWW-Authenticate") :
    HeadersSet build id (headers.set name value) := by
  refine ⟨?_, ?_, ?_⟩
  · rw [OrderedMap.get?_set, if_neg hversion.symm]
    exact h.version
  · rw [OrderedMap.get?_set, if_neg hid.symm]
    exact h.requestId
  · rw [OrderedMap.get?_set, if_neg hchallenge.symm]
    exact h.challenge

theorem rejectedWindow_set {headers : Headers} (h : HeadersSet build id headers)
    (result : Except ThrownValue (Except GuardianError RateLimitWindow)) :
    HeadersSet build id (rejectedWindow headers result) := by
  unfold rejectedWindow
  split
  · exact h.set _ (by decide) (by decide) (by decide)
  · rw [setWindow]
    exact ((h.set _ (by decide) (by decide) (by decide)).set _ (by decide) (by decide)
      (by decide)).set _ (by decide) (by decide) (by decide)
  · exact h

theorem rateLimitStage_typed (abs : AuthAbstractions) (info : TokenInfo) {headers : Headers}
    (h : HeadersSet build id headers) :
    (rateLimitStage abs info headers).Ensures (ShellAnswer reads)
      fun r => ThrowsTyped r.1 ∧ HeadersSet build id r.2 := by
  unfold rateLimitStage
  split
  · refine ensures_perform.mpr fun race hrace => ⟨fun thrown hthrown => ?_, rejectedWindow_set h _⟩
    have hsettled := @withAbstractionDeadline_typed _ "accountRateLimit" abs.timeouts.rateLimitMs
      race hrace
    cases hunwrapped : unwrapOrThrow
        (withAbstractionDeadline "accountRateLimit" abs.timeouts.rateLimitMs race) with
    | error thrown' =>
      dsimp only at hthrown
      rw [hunwrapped] at hthrown
      cases hthrown
      exact unwrapOrThrow_typed hsettled hunwrapped
    | ok window =>
      dsimp only at hthrown
      rw [hunwrapped] at hthrown
      cases hthrown
  · refine ⟨fun _ hthrown => ?_, h⟩
    cases hthrown

theorem makeAuthPlugin_typed (abs : AuthAbstractions) (scope : EndpointScope)
    (request : ProtectedRequest) {headers : Headers} (h : HeadersSet build id headers) :
    (makeAuthPlugin abs scope request headers).Ensures (ShellAnswer reads)
      fun r => ThrowsTyped r.1 ∧ HeadersSet build id r.2 := by
  have hthrows : ∀ {α β : Type} {thrown : ThrownValue},
      ThrowsTyped (.error thrown : Except ThrownValue α) →
      ThrowsTyped (.error thrown : Except ThrownValue β) := by
    intro α β thrown htyped thrown' heq
    obtain rfl := Except.error.inj heq
    exact htyped _ rfl
  unfold makeAuthPlugin
  split
  · rename_i thrown hbearer
    refine ⟨fun thrown' heq => ?_, h⟩
    obtain rfl := Except.error.inj heq
    exact bearerToken_typed hbearer
  · refine .bind (authenticate_typed abs _) fun r hr => ?_
    cases r with
    | error thrown => exact ⟨hthrows hr, h⟩
    | ok info =>
      refine .bind (hmacStage_typed abs request info) fun r hr => ?_
      cases r with
      | error thrown => exact ⟨hthrows hr, h⟩
      | ok _ =>
        dsimp only
        split
        · rename_i thrown hscope
          refine ⟨fun thrown' heq => ?_, h⟩
          obtain rfl := Except.error.inj heq
          unfold scopeStage at hscope
          split at hscope
          · cases hscope
          · cases hscope
            trivial
        · refine .bind (rateLimitStage_typed abs info h) fun r hr => ?_
          obtain ⟨verdict, headers⟩ := r
          refine ⟨fun thrown hthrown => ?_, hr.2⟩
          cases verdict with
          | error thrown' =>
            obtain rfl := Except.error.inj hthrown
            exact hr.1 _ rfl
          | ok _ => cases hthrown

theorem baseHeaders_set (abs : AuthAbstractions) (requestId : String) :
    HeadersSet abs.build requestId (baseHeaders abs requestId) := by
  refine ⟨?_, ?_, ?_⟩
  · rw [baseHeaders, OrderedMap.get?_set, if_neg (by decide), OrderedMap.get?_set_self]
  · rw [baseHeaders, OrderedMap.get?_set_self]
  · rw [baseHeaders, OrderedMap.get?_set, if_neg (by decide), OrderedMap.get?_set,
      if_neg (by decide)]
    rfl

theorem conforms_ok {headers : Headers} (h : HeadersSet build id headers)
    (hid : ResolvedId own id) {j : Json} (hj : reads j) :
    Conforms build own reads ⟨200, headers, .inr j⟩ := by
  refine ⟨h.version, ⟨id, hid, h.requestId, fun envelope henvelope => ?_⟩, ?_, fun j' hj' => ?_,
    fun envelope henvelope => ?_, fun h429 => ?_⟩
  · cases henvelope
  · rw [h.challenge]
    rfl
  · obtain rfl := Sum.inr.inj hj'
    exact ⟨rfl, hj⟩
  · cases henvelope
  · cases h429

theorem handleError_conforms {good : Json → Prop} (request : ProtectedRequest) {headers : Headers}
    {thrown : ThrownValue} (hversion : headers.get? Headers.GUARDIAN_VERSION = some build)
    (hid : ∀ id, headers.get? Headers.REQUEST_ID = some id → ResolvedId request.requestId id)
    (hchallenge : headers.get? "WWW-Authenticate" = none) (hthrown : thrown.Typed) :
    (handleError request headers thrown).Ensures (ShellAnswer reads)
      (Conforms build request.requestId good) := by
  unfold handleError
  cases hget : headers.get? Headers.REQUEST_ID with
  | some requestId => exact onError_conforms (hid _ hget) hversion hchallenge hthrown
  | none =>
    refine .bind (resolveRequestId_resolved _) fun requestId hresolved => ?_
    exact onError_conforms hresolved hversion hchallenge hthrown

theorem handleError_set_conforms {good : Json → Prop} (request : ProtectedRequest)
    {headers : Headers} {thrown : ThrownValue} (h : HeadersSet build id headers)
    (hid : ResolvedId request.requestId id) (hthrown : thrown.Typed) :
    (handleError request headers thrown).Ensures (ShellAnswer reads)
      (Conforms build request.requestId good) := by
  refine handleError_conforms request h.version (fun id' hget => ?_) h.challenge hthrown
  rw [h.requestId] at hget
  obtain rfl := Option.some.inj hget
  exact hid

theorem protectedRoute_conforms (abs : AuthAbstractions) (scope : EndpointScope)
    (request : ProtectedRequest) : (protectedRoute abs scope request).Ensures (ShellAnswer reads)
      (Conforms abs.build request.requestId reads) := by
  refine .bind (resolveRequestId_resolved _) fun requestId hid => ?_
  refine .bind (makeAuthPlugin_typed abs scope request (baseHeaders_set abs requestId))
    fun r hr => ?_
  obtain ⟨verdict, headers⟩ := r
  cases verdict with
  | error thrown => exact handleError_set_conforms request hr.2 hid (hr.1 _ rfl)
  | ok info =>
    refine .call_bind fun handled hhandled => ?_
    cases handled with
    | ok j => exact conforms_ok hr.2 hid (hhandled.2 j rfl)
    | error thrown => exact handleError_set_conforms request hr.2 hid (hhandled.1 _ rfl)

end Derives

end Stages

theorem shell_ensures {α : Type} {p : Shell α} {post : α → Prop}
    (h : p.Ensures (ShellAnswer fun _ => True) post) :
    (p.inLeft (T := host)).Ensures ServerAnswer post :=
  obeys_inLeft.mpr (h.change (fun _ _ _ => trivial) (fun _ _ he => he) fun _ _ => rfl)

section Server
variable (framework : Framework) (abs : GuardianAbstractions)

theorem runSigning_typed (body : ParsedSigningBody) :
    (abs.runSigning body).Ensures ServerAnswer ThrowsTyped := by
  have hprobe : (probeStage abs).Ensures ServerAnswer ThrowsTyped := by
    unfold probeStage
    split
    · exact ensures_perform.mpr fun _ hprobed _ hthrown => unwrapOrThrow_typed hprobed hthrown
    · intro _ hthrown
      cases hthrown
  refine .andThen hprobe (fun _ thrown hthrows thrown' heq => ?_) fun _ _ _ => ?_
  · obtain rfl := Except.error.inj heq
    exact hthrows _ rfl
  · refine ensures_perform.mpr fun client hclient => ?_
    rw [bind_done]
    cases hunwrapped : unwrapOrThrow client with
    | error thrown =>
      intro thrown' heq
      obtain rfl := Except.error.inj heq
      exact unwrapOrThrow_typed hclient hunwrapped
    | ok _ =>
      refine ensures_perform.mpr fun now _ => ensures_perform.mpr fun race hrace => ?_
      exact fun _ hthrown => unwrapOrThrow_typed (withAbstractionDeadline_typed hrace) hthrown

theorem EndpointScope.zResponse_idem {scope : EndpointScope} {j checked : Json}
    (h : scope.zResponse j = some checked) : scope.zResponse checked = some checked := by
  cases scope with
  | requestWhitelistings =>
    obtain ⟨response, hresponse, rfl⟩ := Option.map_eq_some_iff.mp h
    rw [zResponse, zRequestWhitelistingResponse_idem hresponse]
    rfl
  | _ =>
    obtain ⟨success, hsuccess, rfl⟩ := Option.map_eq_some_iff.mp h
    rw [zResponse, zSigningSuccess_idem hsuccess]
    · rfl
    · simp

theorem validateRequest_typed (scope : EndpointScope) (request : HttpRequest)
    (body : Option ParsedBody) : ThrowsTyped (validateRequest framework scope request body) := by
  intro thrown hthrown
  unfold validateRequest at hthrown
  split at hthrown
  · split at hthrown
    · cases hthrown
    · cases hthrown
      trivial
  · cases hthrown
    trivial

theorem validateResponse_reads (scope : EndpointScope) (request : HttpRequest) (j : Json) :
    ThrowsTyped (validateResponse framework scope request j) ∧
      ∀ checked, validateResponse framework scope request j = .ok checked →
        scope.zResponse checked = some checked := by
  unfold validateResponse
  cases hread : scope.zResponse j with
  | some checked =>
    refine ⟨fun thrown hthrown => ?_, fun checked' heq => ?_⟩
    · cases hthrown
    · obtain rfl := Except.ok.inj heq
      exact EndpointScope.zResponse_idem hread
  | none =>
    refine ⟨fun thrown hthrown => ?_, fun checked' heq => ?_⟩
    · cases hthrown
      trivial
    · cases heq

theorem signingHandler_reads (scope : EndpointScope) (request : HttpRequest)
    (body : Option ParsedBody) : (signingHandler framework abs scope request body).Ensures
      ServerAnswer fun handled => ThrowsTyped handled ∧
        ∀ j, handled = .ok j → scope.zResponse j = some j := by
  have hvalid := validateRequest_typed framework scope request body
  unfold signingHandler
  revert hvalid
  cases validateRequest framework scope request body with
  | error thrown =>
    intro hvalid
    refine ⟨fun thrown' heq => ?_, fun j heq => ?_⟩
    · obtain rfl := Except.error.inj heq
      exact hvalid _ rfl
    · cases heq
  | ok parsed =>
    intro _
    refine .bind (runSigning_typed abs parsed) fun signed hsigned => ?_
    cases signed with
    | error thrown =>
      refine ⟨fun thrown' heq => ?_, fun j heq => ?_⟩
      · obtain rfl := Except.error.inj heq
        exact hsigned _ rfl
      · cases heq
    | ok j => exact validateResponse_reads framework scope request j

theorem carryOut_answers (scope : EndpointScope) (request : HttpRequest)
    (body : Option ParsedBody) (op : ShellOp) :
    (carryOut framework abs scope request body op).Ensures
      ServerAnswer fun r : op.Answer =>
        ShellAnswer (fun j => scope.zResponse j = some j) ⟨op, r⟩ := by
  cases op with
  | handler info => exact signingHandler_reads framework abs scope request body
  | _ => exact ensures_call.mpr fun _ hr => hr

theorem failEarly_conforms (request : HttpRequest) {thrown : ThrownValue} (h : thrown.Typed)
    (reads : Json → Prop) : (failEarly abs request thrown).Ensures ServerAnswer
      (Conforms abs.build request.requestId reads) := by
  refine shell_ensures (handleError_conforms (request.protectedRequest []) ?_ ?_ ?_ h)
  · rw [versionHeaders, OrderedMap.get?_set_self]
  · intro id hid
    cases hid
  · rw [versionHeaders, OrderedMap.get?_set, if_neg (by decide)]
    rfl

theorem openRoute_conforms (request : HttpRequest) {handler : Serving (Except ThrownValue Json)}
    {reads : Json → Prop} (h : handler.Ensures ServerAnswer fun handled =>
      ThrowsTyped handled ∧ ∀ j, handled = .ok j → reads j) :
    (openRoute abs request handler).Ensures ServerAnswer
      (Conforms abs.build request.requestId reads) := by
  refine .bind (shell_ensures (resolveRequestId_resolved _)) fun requestId hid => ?_
  refine .bind h fun handled hhandled => ?_
  have hset := baseHeaders_set abs.toAuthAbstractions requestId
  cases handled with
  | ok j => exact conforms_ok hset hid (hhandled.2 j rfl)
  | error thrown =>
    exact shell_ensures (handleError_set_conforms (request.protectedRequest []) hset hid
      (hhandled.1 _ rfl))

theorem healthRoute_reads : (healthRoute abs).Ensures ServerAnswer fun handled =>
    ThrowsTyped handled ∧ ∀ j, handled = .ok j → j = .obj [("status", .str "ok")] := by
  refine ensures_perform.mpr fun race hrace => ?_
  rw [bind_done]
  have hsettled := @withAbstractionDeadline_typed _ "liveness" abs.timeouts.livenessMs race hrace
  cases hunwrapped : unwrapOrThrow
      (withAbstractionDeadline "liveness" abs.timeouts.livenessMs race) with
  | error thrown =>
    refine ⟨fun thrown' heq => ?_, fun j heq => ?_⟩
    · obtain rfl := Except.error.inj heq
      exact unwrapOrThrow_typed hsettled hunwrapped
    · cases heq
  | ok _ =>
    refine ⟨fun thrown' heq => ?_, fun j heq => ?_⟩
    · cases heq
    · exact (Except.ok.inj heq).symm

theorem mapM_zChainId {items : List Json} {chains : List ℕ}
    (h : items.mapM zChainId = some chains) :
    (chains.map fun n : ℕ => Json.num n).mapM zChainId = some chains := by
  induction items generalizing chains with
  | nil =>
    obtain rfl := Option.some.inj h
    rfl
  | cons item items ih =>
    rw [List.mapM_cons] at h
    obtain ⟨n, hn, hrest⟩ := Option.bind_eq_some_iff.mp h
    obtain ⟨ns, hns, heq⟩ := Option.bind_eq_some_iff.mp hrest
    obtain rfl := Option.some.inj heq
    have hread : zChainId (.num n) = some n := by
      have hok := of_decide_eq_true (Json.nat?_holds hn)
      simp [zChainId, Json.nat?, Json.integer?, Json.num?, hok]
    rw [List.map_cons, List.mapM_cons, hread, ih hns]
    rfl

theorem zVersionResponse_idem {j : Json} {response : VersionResponse}
    (h : zVersionResponse j = some response) :
    zVersionResponse response.toJson = some response := by
  simp only [zVersionResponse, Option.bind_eq_bind, Option.bind_eq_some_iff] at h
  obtain ⟨_, -, _, -, _, -, build, ⟨_, -, hbuild⟩, signer, ⟨_, -, hsigner⟩, _, -, chains, hchains,
    heq⟩ := h
  cases heq
  have hbuild' : zNonEmpty (.str build) = some build :=
    zNonEmpty_str.mpr ⟨rfl, of_decide_eq_true (Json.stringWhere?_eq_some.mp hbuild).2⟩
  have hsigner' : zAddress (.str (toLowerCase signer)) = some (toLowerCase signer) :=
    Json.stringWhere?_eq_some.mpr ⟨rfl, isHex_toLowerCase (Json.stringWhere?_eq_some.mp hsigner).2⟩
  generalize hwritten : VersionResponse.toJson ⟨build, toLowerCase signer, chains⟩ = written
  have hstrict : written.isStrictObject
      ["apiVersion", "build", "guardianSigner", "supportedChains"] = true := by
    rw [← hwritten]
    rfl
  have hfields : written.get? "apiVersion" = some (.str "v1") ∧
      written.get? "build" = some (.str build) ∧
      written.get? "guardianSigner" = some (.str (toLowerCase signer)) ∧
      written.get? "supportedChains" = some (.arr (chains.map fun n : ℕ => .num n)) := by
    rw [← hwritten]
    exact ⟨rfl, rfl, rfl, rfl⟩
  obtain ⟨hversion, hfield, hsignerField, hchainsField⟩ := hfields
  rw [zVersionResponse, hstrict, hversion, hfield, hsignerField, hchainsField]
  simp [Json.string?, Json.array?, hbuild', hsigner', mapM_zChainId hchains, guard]

theorem versionRoute_reads (request : HttpRequest) :
    ThrowsTyped (versionRoute framework abs request) ∧
      ∀ j, versionRoute framework abs request = .ok j →
        ∃ response, zVersionResponse j = some response ∧ response.toJson = j := by
  unfold versionRoute
  dsimp only
  split
  · rename_i checked hchecked
    refine ⟨fun thrown heq => ?_, fun j heq => ?_⟩
    · cases heq
    · obtain rfl := Except.ok.inj heq
      exact ⟨checked, zVersionResponse_idem hchecked, rfl⟩
  · refine ⟨fun thrown heq => ?_, fun j heq => ?_⟩
    · cases heq
      trivial
    · cases heq

theorem contentTypeGate_error {request : HttpRequest} {thrown : ThrownValue}
    (h : contentTypeGate request = .error thrown) : thrown.Typed := by
  unfold contentTypeGate at h
  split at h
  · cases h
  · split at h
    · cases h
    · cases h
      trivial

theorem signingRoute_conforms {scope : EndpointScope} {request : HttpRequest} {u : Unit}
    (hgate : contentTypeGate request = .ok u)
    (hfind : framework.find request.method request.path = some (.signing scope)) :
    (signingRoute framework abs scope request).Ensures ServerAnswer
      (Conforms abs.build request.requestId fun j => scope.zResponse j = some j) := by
  have hmethod := framework.post hfind
  have hparse := onParse_posted framework.codec abs.maxBodyBytes hmethod
    (contentTypeGate_json hgate hmethod)
  unfold signingRoute
  dsimp only
  cases hbody : (onParse framework.codec abs.maxBodyBytes request.bodyRequest).body with
  | error thrown =>
    refine failEarly_conforms abs request ?_ _
    rcases hparse with hlarge | ⟨-, -, hdecoded⟩
    · rw [hlarge] at hbody
      cases hbody
      trivial
    · rw [hbody, decodedBody] at hdecoded
      split at hdecoded
      · cases hdecoded
      · cases hj : framework.codec.parse
            (framework.codec.decode request.bodyRequest.bytes) with
        | ok j =>
          rw [hj] at hdecoded
          cases hdecoded
        | error thrown' =>
          rw [hj] at hdecoded
          cases hdecoded
          obtain ⟨message, rfl⟩ := framework.malformed hj
          trivial
  | ok body =>
    exact (protectedRoute_conforms abs.toAuthAbstractions scope
      (request.protectedRequest (onParse framework.codec abs.maxBodyBytes
        request.bodyRequest).rawBody)).handle (carryOut_answers framework abs scope request body)

/-- The document of a 200 is one that the schema of its route reads, unchanged. The documentation
has none. -/
def Route.Reads : Route → Json → Prop
  | .health, j => j = .obj [("status", .str "ok")]
  | .version, j => ∃ response, zVersionResponse j = some response ∧ response.toJson = j
  | .signing scope, j => scope.zResponse j = some j
  | _, _ => False

theorem buildGuardianServer_conforms (request : HttpRequest)
    (hapi : ∀ route, framework.find request.method request.path = some route →
      route.isDocumentation = false) :
    (buildGuardianServer framework abs request).Ensures ServerAnswer
      (Conforms abs.build request.requestId fun j => ∃ route,
        framework.find request.method request.path = some route ∧ route.Reads j) := by
  unfold buildGuardianServer
  cases hgate : contentTypeGate request with
  | error thrown => exact failEarly_conforms abs request (contentTypeGate_error hgate) _
  | ok u =>
    dsimp only
    cases hfind : framework.find request.method request.path with
    | none =>
      exact failEarly_conforms abs request (show ThrownValue.routerMiss.Typed from trivial) _
    | some route =>
      have hroute : ∀ {reads : Json → Prop} {p : Serving Response}, (∀ j, reads j → route.Reads j) →
          p.Ensures ServerAnswer (Conforms abs.build request.requestId reads) →
          p.Ensures ServerAnswer (Conforms abs.build request.requestId fun j => ∃ route',
            some route = some route' ∧ route'.Reads j) := by
        intro reads p hreads hp
        refine hp.mono fun _ response hconforms => { hconforms with success := fun j hj => ?_ }
        obtain ⟨hstatus, hgood⟩ := hconforms.success j hj
        exact ⟨hstatus, route, rfl, hreads j hgood⟩
      cases route with
      | health =>
        exact hroute (fun _ hj => hj) (openRoute_conforms abs request (healthRoute_reads abs))
      | version =>
        exact hroute (fun _ hj => hj) (openRoute_conforms abs request
          (Ensures.pure (versionRoute_reads framework abs request)))
      | openapi => cases hapi _ hfind
      | openapiJson => cases hapi _ hfind
      | signing scope =>
        exact hroute (fun _ hj => hj) (signingRoute_conforms framework abs hgate hfind)

end Server

/-- However the host answers, every response of the server but the documentation of the OpenAPI
plugin conforms, and the document of a 200 is one that the schema of the route reads unchanged. -/
theorem served_response_conforms (framework : Framework) (abs : GuardianAbstractions)
    (request : HttpRequest) (hapi : ∀ route,
      framework.find request.method request.path = some route → route.isDocumentation = false)
    (tr : List (Event server)) (response : Response)
    (h : Executes (buildGuardianServer framework abs request) tr response)
    (hanswers : ∀ e ∈ tr, ServerAnswer e) :
    Conforms abs.build request.requestId (fun j => ∃ route,
      framework.find request.method request.path = some route ∧ route.Reads j) response :=
  (buildGuardianServer_conforms framework abs request hapi).executes h hanswers

theorem serverAnswers_answer (op : server.Op) : ServerAnswer ⟨op, Sample.serverAnswers op⟩ := by
  rcases op with op | op
  · cases op
    case randomUUID =>
      change isCanonicalUuid Sample.requestUuid = true
      decide
    case handler info =>
      refine ⟨fun thrown heq => ?_, fun j heq => ?_⟩
      · cases heq
        trivial
      · cases heq
    all_goals trivial
  · cases op <;> trivial

theorem served_response_conforms_posted : Conforms Sample.abstractions.build
    (some Sample.requestUuid)
    (fun j => ∃ route, Sample.findRoute "POST" "/v1/facility/intent-request-bindings" = some route ∧
      route.Reads j)
    ((buildGuardianServer Sample.framework Sample.abstractions Sample.postedRequest).eval
      Sample.serverAnswers) := by
  have hrun := executes_trace Sample.serverAnswers
    (buildGuardianServer Sample.framework Sample.abstractions Sample.postedRequest)
  refine served_response_conforms Sample.framework Sample.abstractions Sample.postedRequest
    (fun route hfind => ?_) _ _ hrun fun e he => ?_
  · obtain rfl : Route.signing .intentRequestBindings = route := Option.some.inj hfind
    rfl
  have hanswered := trace_answered Sample.serverAnswers
    (buildGuardianServer Sample.framework Sample.abstractions Sample.postedRequest) e he
  obtain ⟨op, answer⟩ := e
  obtain rfl : answer = Sample.serverAnswers op := hanswered
  exact serverAnswers_answer op

end Guardian
