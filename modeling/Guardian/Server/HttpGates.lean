import Guardian.Server.AuthPipeline
import Guardian.Server.Http

/-!
# The gates before a signing call

What a request has behind it when the host is asked to sign: the requests of the shell in
their order, each with the answer that let it pass, and the one body that was captured,
authenticated, decoded and read.
-/

namespace Guardian
open Effect Text Program

/-- The answers of an environment that knew the token and the time. -/
def answersAt (info : TokenInfo) (now : TimeValue) : (op : ShellOp) → op.Answer
  | .randomUUID => ""
  | .authenticate _ => .resolved (.ok info)
  | .dateNow => now
  | .accountRateLimit _ => .expired
  | .handler _ => .error .other

def attemptAt (abs : AuthAbstractions) (scope : EndpointScope) (request : ProtectedRequest)
    (info : TokenInfo) (now : TimeValue) : Attempt := ⟨abs, scope, request, answersAt info now⟩

/-- The requests of the derives that let a token pass, in order. -/
inductive Cleared (abs : AuthAbstractions) (scope : EndpointScope) (request : ProtectedRequest)
    (info : TokenInfo) : List (Event shell) → Prop where
  | intro {token : String} {now : TimeValue} {clock budget : List (Event shell)}
      (bearer : bearerToken request.authorization = .ok token)
      (hmac : if info.requiresHmac then clock = [⟨.dateNow, now⟩] ∧
        HmacValid (attemptAt abs scope request info now) info else clock = [])
      (inScope : scope ∈ info.scopes)
      (granted : if abs.hasRateLimit then ∃ window : RateLimitWindow,
        budget = [⟨.accountRateLimit info, .resolved (.ok window)⟩] else budget = []) :
      Cleared abs scope request info
        (⟨.authenticate token, .resolved (.ok info)⟩ :: (clock ++ budget))

theorem unwrapOrThrow_ok {α : Type} {r : Except ThrownValue (Except GuardianError α)} {a : α} :
    unwrapOrThrow r = .ok a ↔ r = .ok (.ok a) := by
  rcases r with thrown | (error | b) <;> simp [unwrapOrThrow]

theorem withAbstractionDeadline_ok {α : Type} {abstraction : String} {ms : ℚ}
    {race : Race (Except GuardianError α)} {a : α} :
    unwrapOrThrow (withAbstractionDeadline abstraction ms race) = .ok a ↔
      race = .resolved (.ok a) := by
  rw [unwrapOrThrow_ok]
  cases race <;> simp [withAbstractionDeadline]

section Derives
variable {abs : AuthAbstractions} {scope : EndpointScope} {request : ProtectedRequest}
  {info : TokenInfo} {tr : List (Event shell)}

theorem authenticate_executes {token : String}
    (h : Executes (authenticate abs token) tr (.ok info)) :
    tr = [⟨.authenticate token, .resolved (.ok info)⟩] := by
  obtain ⟨race, tr', rfl, hrest⟩ := executes_perform.mp h
  obtain ⟨rfl, hr⟩ := runs_done.mp hrest
  have hrace := withAbstractionDeadline_ok.mp (Program.done.inj hr).symm
  rw [hrace]

theorem verifyHmac_executes {secret : String}
    (h : Executes (verifyHmac abs request secret) tr (.ok ())) :
    ∃ now : TimeValue, tr = [⟨.dateNow, now⟩] := by
  unfold verifyHmac at h
  dsimp only at h
  split at h
  · cases (runs_done.mp h).2
  · split at h
    · cases (runs_done.mp h).2
    · obtain ⟨now, tr', rfl, hrest⟩ := executes_perform.mp h
      change Executes (ite _ _ _) tr' (Except.ok () : Except ThrownValue Unit) at hrest
      split at hrest
      · cases (runs_done.mp hrest).2
      · split at hrest
        · obtain ⟨rfl, -⟩ := runs_done.mp hrest
          exact ⟨now, rfl⟩
        · cases (runs_done.mp hrest).2

/-- A stage that let a token pass asked for the time once, and the signature was valid then. -/
theorem hmacStage_executes {token : String}
    (hbearer : bearerToken request.authorization = .ok token)
    (h : Executes (hmacStage abs request info) tr (.ok ())) : ∃ now : TimeValue,
      if info.requiresHmac then tr = [⟨.dateNow, now⟩] ∧
        HmacValid (attemptAt abs scope request info now) info else tr = [] := by
  have hinfo : ∀ now, (attemptAt abs scope request info now).tokenInfo = some info := fun now =>
    Attempt.tokenInfo_of (Attempt.token_of hbearer) rfl
  have hvalid : ∀ now : TimeValue, (∀ e ∈ tr, e.answer = answersAt info now e.op) →
      info.requiresHmac = true → HmacValid (attemptAt abs scope request info now) info := by
    intro now hanswers
    rw [← hmac_passes_iff (hinfo now), Attempt.failure, hinfo, Option.bind_some, errorOf_eq_none]
    exact eval_of_executes h hanswers
  unfold hmacStage at h
  split at h
  · rename_i hflag
    split at h
    · cases (runs_done.mp h).2
    · obtain ⟨now, rfl⟩ := verifyHmac_executes h
      refine ⟨now, ?_⟩
      rw [if_pos hflag]
      refine ⟨rfl, hvalid now (fun e he => ?_) hflag⟩
      rw [List.mem_singleton.mp he]
      rfl
  · rename_i hflag
    refine ⟨⟨0, by decide, by decide⟩, ?_⟩
    rw [if_neg hflag]
    exact (runs_done.mp h).1

theorem rateLimitStage_executes {headers headers' : Headers}
    (h : Executes (rateLimitStage abs info headers) tr (.ok (), headers')) :
    if abs.hasRateLimit then ∃ window : RateLimitWindow,
      tr = [⟨.accountRateLimit info, .resolved (.ok window)⟩] else tr = [] := by
  unfold rateLimitStage at h
  split at h
  · obtain ⟨race, tr', rfl, hrest⟩ := executes_perform.mp h
    obtain ⟨rfl, hr⟩ := runs_done.mp hrest
    cases hunwrapped : unwrapOrThrow
        (withAbstractionDeadline "accountRateLimit" abs.timeouts.rateLimitMs race) with
    | error thrown =>
      rw [hunwrapped] at hr
      cases hr
    | ok window =>
      rw [if_pos ‹_›]
      refine ⟨window, ?_⟩
      rw [withAbstractionDeadline_ok.mp hunwrapped]
  · rw [if_neg ‹_›]
    exact (runs_done.mp h).1

theorem makeAuthPlugin_executes {headers headers' : Headers}
    (h : Executes (makeAuthPlugin abs scope request headers) tr (.ok info, headers')) :
    Cleared abs scope request info tr := by
  unfold makeAuthPlugin at h
  split at h
  · cases (runs_done.mp h).2
  · rename_i token hbearer
    obtain ⟨tr₁, tr₂, r, rfl, hauth, h⟩ := executes_bind.mp h
    cases r with
    | error thrown => cases (runs_done.mp h).2
    | ok info' =>
      obtain ⟨clock, tr₃, r, rfl, hhmac, h⟩ := executes_bind.mp h
      cases r with
      | error thrown => cases (runs_done.mp h).2
      | ok _ =>
        dsimp only at h
        split at h
        · cases (runs_done.mp h).2
        · rename_i hscope
          obtain ⟨budget, tr₄, r, rfl, hrate, h⟩ := executes_bind.mp h
          obtain ⟨rfl, hr⟩ := runs_done.mp h
          obtain ⟨verdict, headers''⟩ := r
          cases verdict with
          | error thrown => cases hr
          | ok _ =>
            cases hr
            obtain ⟨now, hclock⟩ := @hmacStage_executes abs scope request info' clock token hbearer
              hhmac
            rw [authenticate_executes hauth, List.append_nil]
            refine @Cleared.intro abs scope request info' token now clock budget hbearer hclock ?_
              (rateLimitStage_executes hrate)
            unfold scopeStage at hscope
            split at hscope
            · rename_i hmem
              exact hmem
            · cases hscope

def NotHandler : ShellOp → Prop
  | .handler _ => False
  | _ => True

theorem rateLimitStage_performs (abs : AuthAbstractions) (info : TokenInfo) (headers : Headers) :
    (rateLimitStage abs info headers).Performs NotHandler := by
  unfold rateLimitStage
  split
  · exact ⟨trivial, fun _ => trivial⟩
  · trivial

theorem makeAuthPlugin_performs (abs : AuthAbstractions) (scope : EndpointScope)
    (request : ProtectedRequest) (headers : Headers) :
    (makeAuthPlugin abs scope request headers).Performs NotHandler := by
  unfold makeAuthPlugin
  split
  · trivial
  · refine .bind ⟨trivial, fun _ => trivial⟩ fun r => ?_
    cases r with
    | error thrown => trivial
    | ok info =>
      refine .bind ((Attempt.hmacStage_performs abs request info).mono fun op hop => hop ▸ trivial)
        fun r => ?_
      cases r with
      | error thrown => trivial
      | ok _ =>
        dsimp only
        split
        · trivial
        · exact .bind (rateLimitStage_performs abs info headers) fun _ => trivial

theorem handleError_performs (request : ProtectedRequest) (headers : Headers)
    (thrown : ThrownValue) : (handleError request headers thrown).Performs NotHandler := by
  unfold handleError
  split
  · trivial
  · exact .bind ((Attempt.resolveRequestId_performs _).mono fun op hop => hop ▸ trivial)
      fun _ => trivial

theorem protectedRoute_handler {next : (ShellOp.handler info).Answer → Shell Response}
    (h : Runs (protectedRoute abs scope request) tr (.perform (.handler info) next)) :
    ∃ ids asked requestId, tr = ids ++ asked ∧
      Executes (resolveRequestId request.requestId) ids requestId ∧
      Cleared abs scope request info asked ∧ ∀ e ∈ tr, NotHandler e.op := by
  have hnot : ∀ {α : Type} {p : Shell α} {tr : List (Event shell)}
      {next : (ShellOp.handler info).Answer → Shell α}, p.Performs NotHandler →
      ¬Runs p tr (.perform (.handler info) next) := fun hp hruns => (hp.rest hruns).1
  have hids : (resolveRequestId request.requestId).Performs NotHandler :=
    (Attempt.resolveRequestId_performs _).mono fun op hop => hop ▸ trivial
  rcases runs_bind_perform h with ⟨next', hid⟩ | ⟨ids, tr₂, requestId, rfl, hid, h⟩
  · exact absurd hid (hnot hids)
  rcases runs_bind_perform h with ⟨next', hplugin⟩ | ⟨asked, tr₃, r, rfl, hplugin, h⟩
  · exact absurd hplugin (hnot (makeAuthPlugin_performs _ _ _ _))
  obtain ⟨verdict, headers⟩ := r
  cases verdict with
  | error thrown => exact absurd h (hnot (handleError_performs _ _ _))
  | ok info' =>
    cases h with
    | refl =>
      rw [List.append_nil]
      refine ⟨ids, asked, requestId, rfl, hid, makeAuthPlugin_executes hplugin, ?_⟩
      simp only [List.mem_append]
      rintro e (he | he)
      · exact hids.runs hid e he
      · exact (makeAuthPlugin_performs _ _ _ _).runs hplugin e he
    | step r h =>
      cases r with
      | ok j => cases (runs_done.mp h).2
      | error thrown => exact absurd h (hnot (handleError_performs _ _ _))

end Derives

section Signing
variable {framework : Framework} {abs : GuardianAbstractions} {tr : List (Event server)}
  {ctx : SigningContext} {body : ParsedSigningBody}

/-- The requests between the derives and the call of the host, in order. -/
inductive Prepared (abs : GuardianAbstractions) (body : ParsedSigningBody) :
    SigningContext → List (Event server) → Prop where
  | intro {probe : List (Event server)} {now : TimeValue}
      (probed : if abs.hasProbe then probe = [⟨.inr .probeUpstream, .ok (.ok ())⟩]
        else probe = []) :
      Prepared abs body ⟨body.chainId, now.ms, true⟩
        (probe ++ [⟨.inr (.getChainClient body.chainId), .ok (.ok ())⟩, ⟨.inl .dateNow, now⟩])

theorem probeStage_executes (h : Executes (probeStage abs) tr (.ok ())) :
    if abs.hasProbe then tr = [⟨.inr .probeUpstream, .ok (.ok ())⟩] else tr = [] := by
  unfold probeStage at h
  split at h
  · obtain ⟨probed, tr', rfl, hrest⟩ := executes_perform.mp h
    obtain ⟨rfl, hr⟩ := runs_done.mp hrest
    rw [if_pos ‹_›, unwrapOrThrow_ok.mp (Program.done.inj hr).symm]
  · rw [if_neg ‹_›]
    exact (runs_done.mp h).1

theorem runSigning_sign {body' : ParsedSigningBody}
    {next : (HostOp.sign ctx body).Answer → Serving (Except ThrownValue Json)}
    (h : Runs (abs.runSigning body') tr (.perform (.inr (.sign ctx body)) next)) :
    body' = body ∧ Prepared abs body ctx tr := by
  rcases runs_andThen_perform h with ⟨next', hprobe⟩ | ⟨probe, tr₂, u, rfl, hprobe, hclient⟩
  · exfalso
    unfold probeStage at hprobe
    split at hprobe
    · rcases runs_perform.mp hprobe with ⟨-, heq⟩ | ⟨r, tr', -, hrest⟩
      · cases heq
      · cases (runs_done.mp hrest).2
    · cases (runs_done.mp hprobe).2
  rcases runs_perform.mp hclient with ⟨-, heq⟩ | ⟨client, tr₃, rfl, hclock⟩
  · cases heq
  cases hunwrapped : unwrapOrThrow client with
  | error thrown =>
    rw [bind_done, hunwrapped] at hclock
    cases (runs_done.mp hclock).2
  | ok _ =>
    rw [bind_done, hunwrapped] at hclock
    rcases runs_perform.mp hclock with ⟨-, heq⟩ | ⟨now, tr₄, rfl, hsign⟩
    · cases heq
    rcases runs_perform.mp hsign with ⟨rfl, heq⟩ | ⟨race, tr₅, rfl, hdone⟩
    · cases heq
      refine ⟨rfl, ?_⟩
      rw [unwrapOrThrow_ok.mp hunwrapped]
      exact .intro (probeStage_executes hprobe)
    · cases (runs_done.mp hdone).2

theorem inLeft_not_host {α : Type} {p : Shell α} {op : HostOp}
    {next : op.Answer → Serving α} : ¬Runs p.inLeft tr (.perform (.inr op) next) := by
  intro h
  obtain ⟨tr', op', next', -, heq, -⟩ := runs_inLeft_perform h
  cases heq

theorem failEarly_not_host {request : HttpRequest} {thrown : ThrownValue} {op : HostOp}
    {next : op.Answer → Serving Response} :
    ¬Runs (failEarly abs request thrown) tr (.perform (.inr op) next) := inLeft_not_host

theorem openRoute_not_sign {request : HttpRequest}
    {handler : Serving (Except ThrownValue Json)}
    {next : (HostOp.sign ctx body).Answer → Serving Response}
    (hhandler : handler.Performs fun op : server.Op => op ≠ Sum.inr (HostOp.sign ctx body)) :
    ¬Runs (openRoute abs request handler) tr (.perform (.inr (.sign ctx body)) next) := by
  intro h
  rcases runs_bind_perform h with ⟨next', hid⟩ | ⟨ids, tr₂, requestId, rfl, -, h⟩
  · exact inLeft_not_host hid
  rcases runs_bind_perform h with ⟨next', hasked⟩ | ⟨asked, tr₃, r, rfl, -, h⟩
  · exact (hhandler.rest hasked).1 rfl
  cases r with
  | ok j => cases (runs_done.mp h).2
  | error thrown => exact inLeft_not_host h

section Handler
variable {scope : EndpointScope} {request : HttpRequest} {captured : Option ParsedBody}

theorem carries_shell {asked : List (Event shell)} (hasked : ∀ e ∈ asked, NotHandler e.op)
    (h : Carries (carryOut framework abs scope request captured) asked tr) :
    tr = asked.map Event.inLeft := by
  induction h with
  | nil => rfl
  | @cons e asked walk walk' hop hrest ih =>
    rw [ih fun d hd => hasked d (.tail _ hd), List.map_cons]
    have hcall : walk = [e.inLeft] := by
      obtain ⟨op, answer⟩ := e
      have hnot := hasked ⟨op, answer⟩ (.head _)
      cases op
      case handler => exact absurd hnot id
      all_goals
        obtain ⟨r, tr', rfl, hdone⟩ := executes_perform.mp hop
        obtain ⟨rfl, heq⟩ := runs_done.mp hdone
        cases heq
        rfl
    rw [hcall]
    rfl

theorem carryOut_sign {op : ShellOp}
    {next : (HostOp.sign ctx body).Answer → Serving (shell.Answer op)}
    (h : Runs (carryOut framework abs scope request captured op) tr
      (.perform (.inr (.sign ctx body)) next)) :
    (∃ info, op = .handler info) ∧ validateRequest framework scope request captured = .ok body ∧
      Prepared abs body ctx tr := by
  cases op
  case handler info =>
    refine ⟨⟨info, rfl⟩, ?_⟩
    change Runs (signingHandler framework abs scope request captured) tr _ at h
    unfold signingHandler at h
    cases hvalid : validateRequest framework scope request captured with
    | error thrown =>
      rw [hvalid] at h
      cases (runs_done.mp h).2
    | ok parsed =>
      rw [hvalid] at h
      rcases runs_bind_perform h with ⟨next', hrun⟩ | ⟨tr₁, tr₂, signed, rfl, -, hdone⟩
      · obtain ⟨rfl, hprepared⟩ := runSigning_sign hrun
        exact ⟨rfl, hprepared⟩
      · cases (runs_done.mp hdone).2
  all_goals
    rcases runs_perform.mp h with ⟨-, heq⟩ | ⟨r, tr', -, hdone⟩
    · cases heq
    · cases (runs_done.mp hdone).2

theorem validateRequest_ok (h : validateRequest framework scope request captured = .ok body) :
    zProtectedRequestHeaders request = true ∧
      (captured.bind ParsedBody.json?).bind scope.zBody = some body := by
  unfold validateRequest at h
  split at h
  · rename_i hheaders
    split at h
    · rename_i parsed hparsed
      cases h
      exact ⟨hheaders, hparsed⟩
    · cases h
  · cases h

end Handler

/-- What a request has shown before its derives, and what is signed of it. -/
structure Presented (framework : Framework) (abs : GuardianAbstractions) (scope : EndpointScope)
    (request : HttpRequest) (body : ParsedSigningBody) : Prop where
  routed : framework.find request.method request.path = some (.signing scope)
  posted : request.method = "POST"
  json : request.bodyRequest.isJson = true
  fits : request.bodyRequest.bytes.length ≤ abs.maxBodyBytes
  headers : zProtectedRequestHeaders request = true
  read : ∃ j, decodedBody framework.codec request.bodyRequest.bytes = .ok j ∧
    scope.zBody j = some body

theorem signingRoute_sign {scope : EndpointScope} {request : HttpRequest} {u : Unit}
    {next : (HostOp.sign ctx body).Answer → Serving Response}
    (hgate : contentTypeGate request = .ok u)
    (hfind : framework.find request.method request.path = some (.signing scope))
    (h : Runs (signingRoute framework abs scope request) tr
      (.perform (.inr (.sign ctx body)) next)) :
    Presented framework abs scope request body ∧ ∃ info ids asked prep requestId,
      tr = (ids ++ asked).map Event.inLeft ++ prep ∧
      Executes (resolveRequestId request.requestId) ids requestId ∧
      Cleared abs.toAuthAbstractions scope
        (request.protectedRequest request.bodyRequest.bytes) info asked ∧
      Prepared abs body ctx prep := by
  have hmethod := framework.post hfind
  have hjson := contentTypeGate_json hgate hmethod
  have hparse := onParse_posted framework.codec abs.maxBodyBytes hmethod hjson
  unfold signingRoute at h
  dsimp only at h
  cases hbody : (onParse framework.codec abs.maxBodyBytes request.bodyRequest).body with
  | error thrown =>
    rw [hbody] at h
    exact absurd h failEarly_not_host
  | ok captured =>
    rw [hbody] at h hparse
    rcases hparse with hlarge | ⟨hfits, hraw, hdecoded⟩
    · cases hlarge
    obtain ⟨shown, op, rest, w, prep, next', rfl, hruns, hcarries, hprep⟩ := runs_handle_perform h
    obtain ⟨⟨info, rfl⟩, hvalid, hprepared⟩ := carryOut_sign hprep
    obtain ⟨ids, asked, requestId, rfl, hids, hcleared, hshown⟩ := protectedRoute_handler hruns
    obtain ⟨hheaders, hread⟩ := validateRequest_ok hvalid
    rw [hraw] at hcleared
    refine ⟨⟨hfind, hmethod, hjson, hfits, hheaders, ?_⟩, info, ids, asked, prep, requestId, ?_,
      hids, hcleared, hprepared⟩
    · cases hj : decodedBody framework.codec request.bodyRequest.bytes with
      | error thrown =>
        rw [hj] at hdecoded
        cases hdecoded
      | ok j =>
        rw [hj] at hdecoded
        cases hdecoded
        exact ⟨j, rfl, hread⟩
    · rw [carries_shell hshown hcarries]

end Signing

theorem buildGuardianServer_sign {framework : Framework} {abs : GuardianAbstractions}
    {request : HttpRequest} {tr : List (Event server)} {ctx : SigningContext}
    {body : ParsedSigningBody} {next : (HostOp.sign ctx body).Answer → Serving Response}
    (h : Runs (buildGuardianServer framework abs request) tr
      (.perform (.inr (.sign ctx body)) next)) :
    ∃ scope, Presented framework abs scope request body ∧ ∃ info ids asked prep requestId,
      tr = (ids ++ asked).map Event.inLeft ++ prep ∧
      Executes (resolveRequestId request.requestId) ids requestId ∧
      Cleared abs.toAuthAbstractions scope
        (request.protectedRequest request.bodyRequest.bytes) info asked ∧
      Prepared abs body ctx prep := by
  unfold buildGuardianServer at h
  cases hgate : contentTypeGate request with
  | error thrown =>
    rw [hgate] at h
    exact absurd h failEarly_not_host
  | ok u =>
    rw [hgate] at h
    dsimp only at h
    cases hfind : framework.find request.method request.path with
    | none =>
      rw [hfind] at h
      exact absurd h failEarly_not_host
    | some route =>
      rw [hfind] at h
      cases route with
      | health =>
        refine absurd h (openRoute_not_sign ⟨by simp, fun r => trivial⟩)
      | version => exact absurd h (openRoute_not_sign trivial)
      | openapi => cases (runs_done.mp h).2
      | openapiJson => cases (runs_done.mp h).2
      | signing scope => exact ⟨scope, signingRoute_sign hgate hfind h⟩

section Served
variable {framework : Framework} {abs : GuardianAbstractions} {tr : List (Event server)}
  {response : Response} {j : Json}

theorem handleError_answers (request : ProtectedRequest) (headers : Headers)
    (thrown : ThrownValue) : (handleError request headers thrown).Ensures (fun _ => True)
      fun response => response.status = (resolveError "" (toGuardianError thrown)).status ∧
        ∃ envelope, response.body = .inl envelope := by
  have hstatus : ∀ requestId, (resolveError requestId (toGuardianError thrown)).status =
      (resolveError "" (toGuardianError thrown)).status := by
    intro requestId
    cases toGuardianError thrown <;> rfl
  unfold handleError
  split
  · exact .pure ⟨hstatus _, _, rfl⟩
  · exact .bind (ensures_true _) fun _ _ => .pure ⟨hstatus _, _, rfl⟩

def Unsigned (tr : List (Event server)) : Prop :=
  ∀ e ∈ tr, ∀ ctx body, e.op ≠ Sum.inr (HostOp.sign ctx body)

theorem Unsigned.append {tr tr' : List (Event server)} (h : Unsigned tr) (h' : Unsigned tr') :
    Unsigned (tr ++ tr') :=
  fun e he => (List.mem_append.mp he).elim (h e) (h' e)

/-- What a route with a handler answers, by what the handler did. -/
def AnsweredAs (handled : Except ThrownValue Json) (response : Response) : Prop :=
  match handled with
  | .ok j => response.status = 200 ∧ response.body = .inr j
  | .error thrown => response.status = (resolveError "" (toGuardianError thrown)).status ∧
      ∃ envelope, response.body = .inl envelope

theorem protectedRoute_settled {abs : AuthAbstractions} {scope : EndpointScope}
    {request : ProtectedRequest} {shown : List (Event shell)}
    (h : Executes (protectedRoute abs scope request) shown response) :
    ((∀ e ∈ shown, NotHandler e.op) ∧ ∃ envelope, response.body = .inl envelope) ∨
      ∃ before info handled after, shown = before ++ ⟨.handler info, handled⟩ :: after ∧
        (∀ e ∈ before, NotHandler e.op) ∧ (∀ e ∈ after, NotHandler e.op) ∧
        AnsweredAs handled response := by
  obtain ⟨ids, tr₂, requestId, rfl, hids, h⟩ := executes_bind.mp h
  obtain ⟨asked, tr₃, r, rfl, hasked, h⟩ := executes_bind.mp h
  have hidentified : ∀ e ∈ ids, NotHandler e.op := fun e he =>
    (Attempt.resolveRequestId_performs _).runs hids e he ▸ trivial
  have hderived := (makeAuthPlugin_performs _ _ _ _).runs hasked
  obtain ⟨verdict, headers⟩ := r
  cases verdict with
  | error thrown =>
    refine .inl ⟨fun e he => ?_, ((handleError_answers _ _ _).executes h fun _ _ => trivial).2⟩
    rcases List.mem_append.mp he with he | he
    · exact hidentified e he
    · rcases List.mem_append.mp he with he | he
      · exact hderived e he
      · exact (handleError_performs _ _ _).runs h e he
  | ok info =>
    obtain ⟨handled, after, rfl, hhandled⟩ := executes_perform.mp h
    refine .inr ⟨ids ++ asked, info, handled, after, (List.append_assoc _ _ _).symm,
      fun e he => (List.mem_append.mp he).elim (hidentified e) (hderived e), ?_⟩
    cases handled with
    | error thrown =>
      exact ⟨(handleError_performs _ _ _).runs hhandled,
        (handleError_answers _ _ _).executes hhandled fun _ _ => trivial⟩
    | ok j =>
      obtain ⟨rfl, hresponse⟩ := runs_done.mp hhandled
      cases hresponse
      refine ⟨fun e he => ?_, ?_⟩
      · cases he
      · exact ⟨rfl, rfl⟩

theorem runSigning_settled {body : ParsedSigningBody} {r : Except ThrownValue Json}
    (h : Executes (abs.runSigning body) tr r) :
    (∃ thrown, r = .error thrown ∧ Unsigned tr) ∨
      ∃ before ctx race, tr = before ++ [⟨.inr (.sign ctx body), race⟩] ∧
        Unsigned before ∧
        r = unwrapOrThrow (withAbstractionDeadline "sign" abs.timeouts.signMs race) := by
  have hprobed : (probeStage abs).Performs
      fun op : server.Op => op = Sum.inr HostOp.probeUpstream := by
    unfold probeStage
    split
    · exact ⟨rfl, fun _ => trivial⟩
    · trivial
  obtain ⟨probe, tr₂, u, rfl, hprobe, hclient⟩ := executes_bind.mp h
  have hunsigned : Unsigned probe := by
    intro e he ctx body heq
    rw [hprobed.runs hprobe e he] at heq
    cases heq
  cases u with
  | error thrown =>
    obtain ⟨rfl, hr⟩ := runs_done.mp hclient
    cases hr
    rw [List.append_nil]
    exact .inl ⟨thrown, rfl, hunsigned⟩
  | ok u =>
    obtain ⟨client, tr₃, rfl, hclock⟩ := executes_perform.mp hclient
    rw [bind_done] at hclock
    cases hunwrapped : unwrapOrThrow client with
    | error thrown =>
      rw [hunwrapped] at hclock
      obtain ⟨rfl, hr⟩ := runs_done.mp hclock
      cases hr
      refine .inl ⟨thrown, rfl, hunsigned.append fun e he ctx body heq => ?_⟩
      rw [List.mem_singleton.mp he] at heq
      cases heq
    | ok _ =>
      rw [hunwrapped] at hclock
      obtain ⟨now, tr₄, rfl, hsign⟩ := executes_perform.mp hclock
      obtain ⟨race, tr₅, rfl, hdone⟩ := executes_perform.mp hsign
      obtain ⟨rfl, hr⟩ := runs_done.mp hdone
      refine .inr ⟨probe ++ [⟨.inr (.getChainClient body.chainId), client⟩, ⟨.inl .dateNow, now⟩],
        _, race, (List.append_assoc _ [_, _] [_]).symm,
        hunsigned.append fun e he ctx body heq => ?_, Program.done.inj hr⟩
      simp only [List.mem_cons, List.not_mem_nil, or_false] at he
      rcases he with rfl | rfl <;> cases heq

/-- A handler that signed returns what the schema of its route reads of the host's document. -/
theorem signingHandler_settled {scope : EndpointScope} {request : HttpRequest}
    {captured : Option ParsedBody} {handled : Except ThrownValue Json}
    (h : Executes (signingHandler framework abs scope request captured) tr handled) :
    (∃ thrown, handled = .error thrown ∧ Unsigned tr) ∨
      ∃ before ctx body race, tr = before ++ [⟨.inr (.sign ctx body), race⟩] ∧
        Unsigned before ∧
        handled = (unwrapOrThrow (withAbstractionDeadline "sign" abs.timeouts.signMs race)).bind
          (validateResponse framework scope request) := by
  unfold signingHandler at h
  cases hvalid : validateRequest framework scope request captured with
  | error thrown =>
    rw [hvalid] at h
    obtain ⟨rfl, hr⟩ := runs_done.mp h
    cases hr
    exact .inl ⟨thrown, rfl, fun e he => by cases he⟩
  | ok body =>
    rw [hvalid] at h
    obtain ⟨tr₁, tr₂, signed, rfl, hrun, hdone⟩ := executes_bind.mp h
    obtain ⟨rfl, hr⟩ := runs_done.mp hdone
    obtain rfl := Program.done.inj hr
    rw [List.append_nil]
    rcases runSigning_settled hrun with ⟨thrown, rfl, hunsigned⟩ | ⟨before, ctx, race, rfl, hb, rfl⟩
    · exact .inl ⟨thrown, rfl, hunsigned⟩
    · exact .inr ⟨before, ctx, body, race, rfl, hb, rfl⟩

theorem carryOut_not_sign {scope : EndpointScope} {request : HttpRequest}
    {captured : Option ParsedBody} {shown : List (Event shell)}
    (hshown : ∀ e ∈ shown, NotHandler e.op)
    (h : Carries (carryOut framework abs scope request captured) shown tr) :
    Unsigned tr := by
  rw [carries_shell hshown h]
  intro e he ctx body heq
  obtain ⟨d, -, rfl⟩ := List.mem_map.mp he
  cases heq

/-- A signing route that asked the host to sign answers with what its schema reads of the host's
document; one that did not answers with an error. -/
theorem buildGuardianServer_settled {request : HttpRequest} {scope : EndpointScope}
    (hfind : framework.find request.method request.path = some (.signing scope))
    (h : Executes (buildGuardianServer framework abs request) tr response) :
    (Unsigned tr ∧ ∃ envelope, response.body = .inl envelope) ∨
      ∃ before ctx body race after, tr = before ++ ⟨.inr (.sign ctx body), race⟩ :: after ∧
        Unsigned (before ++ after) ∧
        AnsweredAs ((unwrapOrThrow (withAbstractionDeadline "sign" abs.timeouts.signMs race)).bind
          (validateResponse framework scope request)) response := by
  have hearly : ∀ {thrown : ThrownValue} {tr : List (Event server)},
      Executes (failEarly abs request thrown) tr response →
      Unsigned tr ∧ ∃ envelope, response.body = .inl envelope := by
    intro thrown tr h
    obtain ⟨tr', rfl, herror⟩ := executes_inLeft.mp h
    refine ⟨fun e he ctx body heq => ?_,
      ((handleError_answers _ _ _).executes herror fun _ _ => trivial).2⟩
    obtain ⟨d, -, rfl⟩ := List.mem_map.mp he
    cases heq
  unfold buildGuardianServer at h
  cases hgate : contentTypeGate request with
  | error thrown =>
    rw [hgate] at h
    exact .inl (hearly h)
  | ok u =>
    rw [hgate, hfind] at h
    dsimp only at h
    unfold signingRoute at h
    dsimp only at h
    cases hparsed : (onParse framework.codec abs.maxBodyBytes request.bodyRequest).body with
    | error thrown =>
      rw [hparsed] at h
      exact .inl (hearly h)
    | ok captured =>
      rw [hparsed] at h
      obtain ⟨shown, hroute, hcarries⟩ := executes_handle.mp h
      rcases protectedRoute_settled hroute with ⟨hshown, hfailed⟩ |
        ⟨before, info, handled, after, rfl, hbefore, hafter, hhandled⟩
      · exact .inl ⟨carryOut_not_sign hshown hcarries, hfailed⟩
      obtain ⟨w, w', rfl, hw, hrest⟩ := hcarries.split
      have hunsigned := carryOut_not_sign hbefore hw
      cases hrest with
      | @cons _ _ piece w'' hhandler hlast =>
        have hunsigned' := carryOut_not_sign hafter hlast
        rcases signingHandler_settled hhandler with ⟨thrown, hthrown, hnone⟩ |
          ⟨prep, ctx, body, race, rfl, hprep, hreturned⟩
        · cases hthrown
          exact .inl ⟨hunsigned.append (hnone.append hunsigned'), hhandled.2⟩
        · refine .inr ⟨w ++ prep, ctx, body, race, w'', by simp,
            (hunsigned.append hprep).append hunsigned', ?_⟩
          dsimp only at hreturned
          rw [← hreturned]
          exact hhandled

end Served

/-- Whenever the host is asked to sign, the request was presented well, every derive of its route
has answered for the bytes that were captured, the host was prepared once, and nothing was signed
before. -/
theorem signed_past_every_gate (framework : Framework) (abs : GuardianAbstractions)
    (request : HttpRequest) (tr : List (Event server)) (ctx : SigningContext)
    (body : ParsedSigningBody) (next : (HostOp.sign ctx body).Answer → Serving Response)
    (h : Runs (buildGuardianServer framework abs request) tr
      (.perform (.inr (.sign ctx body)) next)) :
    ∃ scope, Presented framework abs scope request body ∧ ∃ info ids asked prep requestId,
      tr = (ids ++ asked).map Event.inLeft ++ prep ∧
      Executes (resolveRequestId request.requestId) ids requestId ∧
      Cleared abs.toAuthAbstractions scope
        (request.protectedRequest request.bodyRequest.bytes) info asked ∧
      Prepared abs body ctx prep :=
  buildGuardianServer_sign h

def asksToSign : server.Op → Bool
  | .inr (.sign ..) => true
  | _ => false

theorem signed_past_every_gate_posted : ∃ scope body, Presented Sample.framework
    Sample.abstractions scope Sample.postedRequest body ∧ ∃ info asked, Cleared
      Sample.abstractions.toAuthAbstractions scope (Sample.postedRequest.protectedRequest
        Sample.postedRequest.bodyRequest.bytes) info asked := by
  have hany : ((buildGuardianServer Sample.framework Sample.abstractions
      Sample.postedRequest).trace Sample.serverAnswers).any
        (fun e => asksToSign e.op) = true := by
    decide +kernel
  obtain ⟨e, hmem, hsign⟩ := List.any_eq_true.mp hany
  obtain ⟨pre, post, htrace⟩ := List.append_of_mem hmem
  have hrun := executes_trace Sample.serverAnswers
    (buildGuardianServer Sample.framework Sample.abstractions Sample.postedRequest)
  rw [htrace] at hrun
  obtain ⟨next, hpending, -⟩ := hrun.split
  clear hrun
  obtain ⟨op, answer⟩ := e
  rcases op with op | op
  · cases hsign
  cases op
  case sign ctx body =>
    obtain ⟨scope, hpresented, info, ids, asked, prep, requestId, -, -, hcleared, -⟩ :=
      signed_past_every_gate Sample.framework Sample.abstractions Sample.postedRequest pre ctx body
        next hpending
    exact ⟨scope, body, hpresented, info, asked, hcleared⟩
  all_goals cases hsign

end Guardian
