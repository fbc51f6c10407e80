import Guardian.Coordinator.EntitledSubmissions
import Guardian.Core.SignedAt
import Guardian.Server.HttpGates
import Guardian.Server.ResponseCodec

/-!
# The routes over the sign runners

The server over a host that signs with the four sign runners and their default checks. A request
to the signer is followed back through the runner, the deadline and the gates of the route, and
a signature that is answered is followed forward to the document of the response.
-/

namespace Guardian
open Effect Text Program

def SigningError.tagged : SigningError → GuardianError
  | .validationFailed message checks => .validationFailed message checks
  | .stateConflict message checks => .stateConflict message checks
  | .notFound message chainId verifyingContract => .notFound message (some (.obj
      [("chainId", .num chainId), ("verifyingContract", .str verifyingContract)]))
  | .upstreamUnavailable message status => .upstreamUnavailable message status none
  | .internalError message => .internalError message

/-- What a settled call leaves in the race, when it is in time. -/
def Settled.race {α : Type} : Settled α → Race (Except GuardianError α)
  | .ok a => .resolved (.ok a)
  | .error (.err e) => .resolved (.error e.tagged)
  | .error (.thrown _) => .rejected .other

/-- A call that the timer may cut off before any of its requests and at its end. A call that is cut
off runs on: what it still asks is listed ahead of the answer, which does not wait for it. -/
def cutOff {H : Signature} {α β : Type} (expired : β) (settle : α → β) :
    Program H α → Program (hosted H) β
  | .done a =>
    .perform (.inr ()) fun late : Bool => .done (if late = true then expired else settle a)
  | .perform op next => .perform (.inr ()) fun late : Bool =>
    if late = true then (Program.perform op next).inLeft.bind fun _ => .done expired
    else .perform (.inl op) fun r => cutOff expired settle (next r)

def GuardianSetup.sign (setup : GuardianSetup) (deps : SignDeps) (ctx : SigningContext) :
    ParsedSigningBody → Signing (Settled Json)
  | .setRequest body => (Except.map SigningSuccess.toJson) <$>
      makeSignIntentRequestBinding deps setup.intentRequestBindingChecks ctx body
  | .setFund body => (Except.map SigningSuccess.toJson) <$>
      makeSignIntentFundBinding deps setup.intentFundBindingChecks ctx body
  | .swap body => (Except.map SigningSuccess.toJson) <$>
      makeSignIntentSwap deps setup.intentSwapChecks ctx body
  | .requestWhitelisting body => (Except.map RequestWhitelistingResponse.toJson) <$>
      makeSignRequestWhitelisting deps setup.requestWhitelistingChecks ctx body

inductive HealthOp where
  | liveness
  | probeUpstream

abbrev HealthOp.Answer : HealthOp → Type
  | liveness => Race (Except GuardianError Unit)
  | probeUpstream => Except ThrownValue (Except GuardianError Unit)

abbrev health : Signature := ⟨HealthOp, HealthOp.Answer⟩

/-- The environment of a signing call, beside the shell and the health of the host. -/
abbrev signingServer : Signature := (hosted env).sum (shell.sum health)

/-- The host's abstractions carried out; the shell and the host's health are left to their own
environments. -/
def GuardianSetup.serve (setup : GuardianSetup) (deps : SignDeps) :
    (op : server.Op) → Program signingServer (server.Answer op)
  | .inl op => @Program.call signingServer (.inr (.inl op))
  | .inr .liveness => @Program.call signingServer (.inr (.inr .liveness))
  | .inr .probeUpstream => @Program.call signingServer (.inr (.inr .probeUpstream))
  | .inr (.getChainClient chainId) => .done (.ok (if chainId ∈ setup.clients then .ok ()
      else .error (.unsupportedChain "unsupported" chainId)))
  | .inr (.sign ctx body) => (cutOff .expired Settled.race (setup.sign deps ctx body)).inLeft

def signingService (framework : Framework) (abs : GuardianAbstractions) (setup : GuardianSetup)
    (deps : SignDeps) (request : HttpRequest) : Program signingServer Response :=
  (buildGuardianServer framework abs request).handle (setup.serve deps)

section Race
variable {H : Signature} {α β : Type} {expired : β} {settle : α → β} {p : Program H α}
  {tr : List (Event (hosted H))}

/-- The requests of a call in its race: until it has fired, the timer is asked before each. -/
inductive TimedCall : List (Event H) → List (Event (hosted H)) → Prop where
  | inTime : TimedCall [] [⟨.inr (), false⟩]
  | late (abandoned : List (Event H)) :
    TimedCall abandoned (⟨.inr (), true⟩ :: abandoned.map Event.inLeft)
  | step {walk : List (Event H)} {tr : List (Event (hosted H))} (e : Event H)
      (rest : TimedCall walk tr) : TimedCall (e :: walk) (⟨.inr (), false⟩ :: e.inLeft :: tr)

theorem timed_racedTrace (walk : List (Event H)) : TimedCall walk (racedTrace walk) := by
  induction walk with
  | nil => exact .inTime
  | cons e walk ih => exact .step e ih

theorem TimedCall.mem {walk : List (Event H)} {e : Event H} (h : TimedCall walk tr)
    (he : e.inLeft ∈ tr) : e ∈ walk := by
  induction h with
  | inTime => cases List.mem_singleton.mp he
  | late abandoned =>
    rcases List.mem_cons.mp he with heq | he
    · cases heq
    · obtain ⟨d, hd, heq⟩ := List.mem_map.mp he
      rwa [← Event.inLeft_injective heq]
  | step d _ ih =>
    rcases List.mem_cons.mp he with heq | he
    · cases heq
    rcases List.mem_cons.mp he with heq | he
    · rw [Event.inLeft_injective heq]
      exact .head _
    · exact .tail _ (ih he)

theorem runs_cutOff {op : H.Op} {next : H.Answer op → Program (hosted H) β}
    (h : Runs (cutOff expired settle p) tr (.perform (.inl op) next)) :
    ∃ walk next', TimedCall walk tr ∧ Runs p walk (.perform op next') := by
  induction p generalizing tr with
  | done a =>
    rcases runs_perform.mp h with ⟨-, heq⟩ | ⟨late, tr', -, hdone⟩
    · cases heq
    · cases (runs_done.mp hdone).2
  | perform asked rest ih =>
    rcases runs_perform.mp h with ⟨-, heq⟩ | ⟨late, tr', rfl, hrest⟩
    · cases heq
    cases late with
    | true =>
      rcases runs_bind_perform hrest with ⟨next', hcall⟩ | ⟨tr₁, tr₂, a, -, -, hdone⟩
      · obtain ⟨abandoned, op', next'', rfl, hop, hwalk⟩ := runs_inLeft_perform hcall
        cases hop
        exact ⟨abandoned, next'', .late abandoned, hwalk⟩
      · cases (runs_done.mp hdone).2
    | false =>
      rcases runs_perform.mp hrest with ⟨rfl, heq⟩ | ⟨r, tr'', rfl, hnext⟩
      · cases heq
        exact ⟨[], rest, .inTime, .refl _⟩
      · obtain ⟨walk, next', htimed, hwalk⟩ := ih r hnext
        exact ⟨⟨asked, r⟩ :: walk, next', .step ⟨asked, r⟩ htimed,
          runs_perform.mpr (.inr ⟨r, walk, rfl, hwalk⟩)⟩

theorem executes_cutOff {b : β} (h : Executes (cutOff expired settle p) tr b) :
    b = expired ∧ (⟨.inr (), true⟩ : Event (hosted H)) ∈ tr ∨
      ∃ walk a, tr = racedTrace walk ∧ Executes p walk a ∧ b = settle a := by
  induction p generalizing tr with
  | done a =>
    obtain ⟨late, tr', rfl, hdone⟩ := executes_perform.mp h
    obtain ⟨rfl, hb⟩ := runs_done.mp hdone
    cases hb
    cases late with
    | true => exact .inl ⟨rfl, .head _⟩
    | false => exact .inr ⟨[], a, rfl, .refl _, rfl⟩
  | perform asked rest ih =>
    obtain ⟨late, tr', rfl, hrest⟩ := executes_perform.mp h
    cases late with
    | true =>
      obtain ⟨tr₁, tr₂, a, rfl, -, hdone⟩ := executes_bind.mp hrest
      cases (runs_done.mp hdone).2
      exact .inl ⟨rfl, .head _⟩
    | false =>
      obtain ⟨r, tr'', rfl, hnext⟩ := executes_perform.mp hrest
      rcases ih r hnext with ⟨rfl, hlate⟩ | ⟨walk, a, rfl, hwalk, rfl⟩
      · exact .inl ⟨rfl, .tail _ (.tail _ hlate)⟩
      · exact .inr ⟨⟨asked, r⟩ :: walk, a, rfl, executes_perform.mpr ⟨r, walk, rfl, hwalk⟩, rfl⟩

theorem racedTrace_snoc (walk : List (Event H)) (e : Event H) :
    racedTrace (walk ++ [e]) = racedTrace walk ++ [e.inLeft, ⟨.inr (), false⟩] := by
  simp [racedTrace]

theorem late_notMem_racedTrace (walk : List (Event H)) :
    (⟨.inr (), true⟩ : Event (hosted H)) ∉ racedTrace walk := by
  intro h
  rcases List.mem_append.mp h with h | h
  · obtain ⟨d, -, hd⟩ := List.mem_flatMap.mp h
    rcases List.mem_cons.mp hd with heq | hd
    · cases heq
    · cases List.mem_singleton.mp hd
  · cases List.mem_singleton.mp h

theorem mem_racedTrace {walk : List (Event H)} {e : Event H} :
    Event.inLeft e ∈ racedTrace walk ↔ e ∈ walk := by
  simp only [racedTrace, List.mem_append, List.mem_flatMap, List.mem_cons, List.not_mem_nil,
    or_false]
  constructor
  · intro h
    rcases h with ⟨d, hd, heq | heq⟩ | heq
    · cases heq
    · rw [Event.inLeft_injective heq]
      exact hd
    · cases heq
  · exact fun h => .inl ⟨e, h, .inr rfl⟩

end Race

section Runners
variable {α : Type} {deps : SignDeps} {ctx : SigningContext} {conflict : Prop}
  {checks : Signing (Settled (List CheckEntry))} {chainId : ℕ} {verifyingContract : Address}
  {build : Eip712Domain → Except Thrown TypedData} {respond : SigningSuccess → α}
  {toJson : α → Json} {walk : List SigningEvent}

theorem runSigner_issued {td : TypedData}
    {next : Op.Answer (.signTypedData td) → Signing (Settled Json)}
    (hchecks : Checks conflict checks)
    (h : Runs (Except.map toJson <$>
        runSigner deps ctx checks chainId verifyingContract build respond)
      walk (.perform (.signTypedData td) next)) :
    ∃ reads resolution entries resolved, walk = reads ++ resolution ∧
      Executes checks reads (.ok entries) ∧
      Executes (resolveDomain ctx verifyingContract deps.domainCache) resolution (.ok resolved) ∧
      build ⟨resolved.name, resolved.version, chainId, verifyingContract⟩ = .ok td := by
  rw [map_eq_pure_bind] at h
  rcases runs_bind_perform h with ⟨next', hrun⟩ | ⟨tr₁, tr₂, r, -, -, hdone⟩
  swap
  · cases (runs_done.mp hdone).2
  rcases runs_bind_perform hrun with ⟨next', hreads⟩ | ⟨reads, tr₂, r, rfl, hreads, hrest⟩
  · exact (not_runs_signTypedData hchecks hreads).elim
  cases r with
  | error failure => cases (runs_done.mp hrest).2
  | ok entries =>
    rcases runs_bind_perform hrest with
      ⟨next', hresolve⟩ | ⟨resolution, tr₃, r, rfl, hresolve, hsign⟩
    · exact (not_runs_signTypedData (resolveDomain_checking _ _ _) hresolve).elim
    cases r with
    | error e => cases (runs_done.mp hsign).2
    | ok resolved =>
      rcases runs_bind_perform hsign with ⟨next', hsign⟩ | ⟨tr₄, tr₅, settled, -, -, hdone⟩
      · obtain ⟨rfl, hbuilt⟩ := signPayload_issued hsign
        exact ⟨reads, resolution, entries, resolved, by simp, hreads, hresolve, hbuilt⟩
      · cases (runs_done.mp hdone).2

def Unanswered (walk : List SigningEvent) : Prop :=
  ∀ td signature, (⟨.signTypedData td, .ok signature⟩ : SigningEvent) ∉ walk

theorem unanswered_of_checking {β : Type} {p q : Signing β} {post : Unit → β → Prop}
    (h : p.Obeys checking post ()) (hr : Runs p walk q) : Unanswered walk :=
  fun _ _ hmem => asksNoSignature_of_runs h hr _ hmem

theorem Unanswered.append {walk' : List SigningEvent} (h : Unanswered walk)
    (h' : Unanswered walk') : Unanswered (walk ++ walk') :=
  fun td signature hmem => (List.mem_append.mp hmem).elim (h td signature) (h' td signature)

/-- The response that a call returned for its signature, event by event. -/
inductive SignedBy (deps : SignDeps) (ctx : SigningContext)
    (checks : Signing (Settled (List CheckEntry))) (td : TypedData) :
    SigningSuccess → List SigningEvent → Prop where
  | intro {reads resolution : List SigningEvent} {entries : List CheckEntry}
      {signature payloadHash : String} (checked : Executes checks reads (.ok entries))
      (hash : deps.hashTypedData td = .ok payloadHash) :
      SignedBy deps ctx checks td
        ⟨deps.guardianSigner, signature, payloadHash, nowIso ctx.now, entries⟩
        (reads ++ resolution ++ [⟨.signTypedData td, .ok signature⟩])

theorem SignedBy.last {td : TypedData} {success : SigningSuccess}
    (h : SignedBy deps ctx checks td success walk) : ∃ before,
      walk = before ++ [⟨.signTypedData td, .ok success.signature⟩] := by
  cases h with
  | intro _ _ => exact ⟨_, rfl⟩

theorem signPayload_walk {entries : List CheckEntry} {built : Except Thrown TypedData}
    {r : Settled SigningSuccess} (h : Executes (signPayload deps ctx entries built) walk r) :
    (∃ f, r = .error f ∧ Unanswered walk) ∨
      ∃ td signature payloadHash, deps.hashTypedData td = .ok payloadHash ∧
        walk = [⟨.signTypedData td, .ok signature⟩] ∧
        r = .ok ⟨deps.guardianSigner, signature, payloadHash, nowIso ctx.now, entries⟩ := by
  have hnone : Unanswered [] := fun _ _ h => by cases h
  unfold signPayload at h
  split at h
  · obtain ⟨rfl, hr⟩ := runs_done.mp h
    cases hr
    exact .inl ⟨_, rfl, hnone⟩
  · rename_i td
    split at h
    · obtain ⟨rfl, hr⟩ := runs_done.mp h
      cases hr
      exact .inl ⟨_, rfl, hnone⟩
    · rename_i payloadHash hhash
      obtain ⟨answer, tr', rfl, hanswer⟩ := executes_perform.mp h
      cases answer with
      | error e =>
        obtain ⟨rfl, hr⟩ := runs_done.mp hanswer
        cases hr
        refine .inl ⟨_, rfl, fun td' signature hmem => ?_⟩
        cases List.mem_singleton.mp hmem
      | ok signature =>
        obtain ⟨rfl, hr⟩ := runs_done.mp hanswer
        cases hr
        exact .inr ⟨td, signature, payloadHash, hhash, rfl, rfl⟩

theorem runSigner_settled {r : Settled Json} (hchecks : Checks conflict checks)
    (h : Executes (Except.map toJson <$> runSigner deps ctx checks chainId verifyingContract build
      respond) walk r) :
    (∃ f, r = .error f ∧ Unanswered walk) ∨ ∃ td success,
      SignedBy deps ctx checks td success walk ∧ r = .ok (toJson (respond success)) := by
  rw [map_eq_pure_bind] at h
  obtain ⟨walk, tr₂, settled, rfl, hrun, hdone⟩ := executes_bind.mp h
  obtain ⟨rfl, hr⟩ := runs_done.mp hdone
  obtain rfl := Program.done.inj hr
  rw [List.append_nil]
  obtain ⟨reads, tr₂, checked, rfl, hreads, hrest⟩ := executes_bind.mp hrun
  have hread := unanswered_of_checking hchecks hreads
  cases checked with
  | error failure =>
    obtain ⟨rfl, hsettled⟩ := runs_done.mp hrest
    cases hsettled
    exact .inl ⟨_, rfl, by simpa using hread⟩
  | ok entries =>
    obtain ⟨resolution, tr₃, domain, rfl, hresolve, hsign⟩ := executes_bind.mp hrest
    have hresolved := unanswered_of_checking (resolveDomain_checking _ _ _) hresolve
    cases domain with
    | error e =>
      obtain ⟨rfl, hsettled⟩ := runs_done.mp hsign
      cases hsettled
      exact .inl ⟨_, rfl, by simpa using hread.append hresolved⟩
    | ok resolved =>
      obtain ⟨tr₄, tr₅, signed, rfl, hpayload, hlast⟩ := executes_bind.mp hsign
      obtain ⟨rfl, hsettled⟩ := runs_done.mp hlast
      obtain rfl := Program.done.inj hsettled
      rw [List.append_nil, ← List.append_assoc]
      rcases signPayload_walk hpayload with ⟨f, rfl, hunanswered⟩ |
        ⟨td, signature, payloadHash, hhash, rfl, rfl⟩
      · exact .inl ⟨f, rfl, (hread.append hresolved).append hunanswered⟩
      · exact .inr ⟨td, _, .intro hreads hhash, rfl⟩

end Runners

def ParsedSigningBody.document (success : SigningSuccess) : ParsedSigningBody → Json
  | requestWhitelisting body =>
    RequestWhitelistingResponse.toJson ⟨success, success.guardian, body.nonce⟩
  | _ => success.toJson

section Sign
variable {policies : GuardianPolicies} {setup : GuardianSetup} {deps : SignDeps}
  {ctx : SigningContext} {body : ParsedSigningBody} {walk : List SigningEvent}

inductive SignatureDue (setup : GuardianSetup) (deps : SignDeps) (ctx : SigningContext)
    (body : ParsedSigningBody) (td : TypedData) : List SigningEvent → List SigningEvent → Prop where
  | intro {reads resolution : List SigningEvent} {entries : List CheckEntry}
      {resolved : Eip712DomainNameVersion}
      (checked : Executes (setup.checks ctx body) reads (.ok entries))
      (domain :
        Executes (resolveDomain ctx body.target.2 deps.domainCache) resolution (.ok resolved))
      (built : body.typedData resolved deps.guardianSigner = .ok td) :
      SignatureDue setup deps ctx body td reads (reads ++ resolution)

theorem checks_checks (hbuilds : policies.Builds deps.guardianSigner setup) (ctx : SigningContext)
    (body : ParsedSigningBody) : Checks True (setup.checks ctx body) := by
  have hweaken : ∀ {p : Signing (Settled (List CheckEntry))}, Checks False p → Checks True p :=
    fun hp => hp.mono fun _ r hr => by
      cases hr with
      | ok wellFormed passed => exact .ok wellFormed passed
      | validationFailed wellFormed failed => exact .validationFailed wellFormed failed
      | stateConflict allowed _ => exact allowed.elim
      | upstreamUnavailable message status => exact .upstreamUnavailable message status
      | thrown error => exact .thrown error
  cases body with
  | setRequest body =>
    exact hweaken (intentRequestBindingChecks_checks hbuilds.requestBinding ctx body)
  | setFund body =>
    rw [GuardianSetup.checks, hbuilds.fundBinding]
    exact intentFundBindingChecks_checks _ ctx body
  | swap body => exact hweaken (intentSwapChecks_checks hbuilds.swap ctx body)
  | requestWhitelisting body =>
    exact hweaken (requestWhitelistingChecks_checks hbuilds.requestWhitelisting ctx body)

theorem sign_issued (hbuilds : policies.Builds deps.guardianSigner setup) {td : TypedData}
    {next : Op.Answer (.signTypedData td) → Signing (Settled Json)}
    (h : Runs (setup.sign deps ctx body) walk (.perform (.signTypedData td) next)) :
    ∃ reads, SignatureDue setup deps ctx body td reads walk := by
  have hchecks := checks_checks hbuilds ctx body
  cases body with
  | setRequest body =>
    obtain ⟨reads, _, _, _, rfl, hreads, hresolve, hbuilt⟩ :=
      @runSigner_issued _ deps ctx True _ body.chainId body.facility
        (fun domain => buildIntentRequestBindingTypedData domain body) id _ _ td _ hchecks h
    exact ⟨reads, .intro hreads hresolve hbuilt⟩
  | setFund body =>
    obtain ⟨reads, _, _, _, rfl, hreads, hresolve, hbuilt⟩ :=
      @runSigner_issued _ deps ctx True _ body.chainId body.facility
        (fun domain => buildIntentFundBindingTypedData domain body) id _ _ td _ hchecks h
    exact ⟨reads, .intro hreads hresolve hbuilt⟩
  | swap body =>
    obtain ⟨reads, _, _, _, rfl, hreads, hresolve, hbuilt⟩ :=
      @runSigner_issued _ deps ctx True _ body.chainId body.facility
        (fun domain => buildIntentSwapTypedData domain body) id _ _ td _ hchecks h
    exact ⟨reads, .intro hreads hresolve hbuilt⟩
  | requestWhitelisting body =>
    obtain ⟨reads, _, _, _, rfl, hreads, hresolve, hbuilt⟩ :=
      @runSigner_issued _ deps ctx True _ body.chainId body.whitelistBook
        (fun domain => buildRequestWhitelistingTypedData domain body deps.guardianSigner) _ _ _ td _
        hchecks h
    exact ⟨reads, .intro hreads hresolve hbuilt⟩

theorem sign_settled (hbuilds : policies.Builds deps.guardianSigner setup) {r : Settled Json}
    (h : Executes (setup.sign deps ctx body) walk r) :
    (∃ f, r = .error f ∧ Unanswered walk) ∨ ∃ td success,
      SignedBy deps ctx (setup.checks ctx body) td success walk ∧
        r = .ok (body.document success) := by
  have hchecks := checks_checks hbuilds ctx body
  cases body with
  | setRequest body =>
    exact @runSigner_settled _ deps ctx True _ _ _ _ id SigningSuccess.toJson walk r hchecks h
  | setFund body =>
    exact @runSigner_settled _ deps ctx True _ _ _ _ id SigningSuccess.toJson walk r hchecks h
  | swap body =>
    exact @runSigner_settled _ deps ctx True _ _ _ _ id SigningSuccess.toJson walk r hchecks h
  | requestWhitelisting body =>
    rcases runSigner_settled hchecks h with hfailed | ⟨td, success, hsigned, rfl⟩
    · exact .inl hfailed
    · refine .inr ⟨td, success, hsigned, ?_⟩
      cases hsigned
      rfl

end Sign

def besideCall (e : Event (shell.sum health)) : Event signingServer := ⟨.inr e.op, e.answer⟩

def onShell (e : Event shell) : Event signingServer := besideCall e.inLeft

def upstreamProbed (abs : GuardianAbstractions) : List (Event signingServer) :=
  if abs.hasProbe then [besideCall ⟨.inr .probeUpstream, .ok (.ok ())⟩] else []

section Service
variable {framework : Framework} {abs : GuardianAbstractions} {policies : GuardianPolicies}
  {setup : GuardianSetup} {deps : SignDeps} {request : HttpRequest} {ctx : SigningContext}
  {body : ParsedSigningBody} {walk : List (Event signingServer)}

theorem carries_inLeft {shown : List (Event shell)}
    (h : Carries (setup.serve deps) (shown.map Event.inLeft) walk) :
    walk = shown.map onShell := by
  generalize hevents : shown.map Event.inLeft = events at h
  induction h generalizing shown with
  | nil =>
    rw [List.map_eq_nil_iff.mp hevents]
    rfl
  | cons hop _ ih =>
    obtain ⟨e, shown, rfl, rfl, hrest⟩ := List.map_eq_cons_iff.mp hevents
    obtain ⟨r, tr', rfl, hdone⟩ := executes_perform.mp hop
    obtain ⟨rfl, heq⟩ := runs_done.mp hdone
    cases heq
    rw [ih hrest, List.map_cons]
    rfl

theorem carries_prepared {prep : List (Event server)} (hprepared : Prepared abs body ctx prep)
    (h : Carries (setup.serve deps) prep walk) :
    body.chainId ∈ setup.clients ∧ ∃ now : TimeValue, ctx = ⟨body.chainId, now.ms, true⟩ ∧
      walk = upstreamProbed abs ++ [onShell ⟨.dateNow, now⟩] := by
  cases hprepared with
  | @intro probe now probed =>
    obtain ⟨w, w', rfl, hprobe, hrest⟩ := h.split
    have hw : w = upstreamProbed abs := by
      unfold upstreamProbed
      split at probed
      · rename_i hhas
        subst probed
        cases hprobe with
        | cons hop hnil =>
          cases hnil
          obtain ⟨r, tr', rfl, hdone⟩ := executes_perform.mp hop
          obtain ⟨rfl, heq⟩ := runs_done.mp hdone
          cases heq
          rw [if_pos hhas]
          rfl
      · rename_i hhas
        subst probed
        cases hprobe
        rw [if_neg hhas]
    subst hw
    cases hrest with
    | cons hclient hclock =>
      obtain ⟨rfl, hserved⟩ := runs_done.mp hclient
      have hchain : body.chainId ∈ setup.clients := by
        by_contra hunserved
        rw [if_neg hunserved] at hserved
        cases hserved
      cases hclock with
      | cons hnow hnil =>
        cases hnil
        obtain ⟨r, tr', rfl, hdone⟩ := executes_perform.mp hnow
        obtain ⟨rfl, heq⟩ := runs_done.mp hdone
        cases heq
        exact ⟨hchain, now, rfl, rfl⟩

/-- What stands behind a request to the signer, in time or of an abandoned call: the request of the
caller, each gate of its route, and the checks, the domain and the data of its body. -/
inductive SignerAsked (framework : Framework) (abs : GuardianAbstractions) (setup : GuardianSetup)
    (deps : SignDeps) (request : HttpRequest) (td : TypedData) (body : ParsedSigningBody)
    (now : TimeValue) (reads : List SigningEvent) : List (Event signingServer) → Prop where
  | intro {scope : EndpointScope} {info : TokenInfo} {ids asked : List (Event shell)}
      {requestId : String} {walk : List SigningEvent} {timed : List (Event (hosted env))}
      (presented : Presented framework abs scope request body)
      (identified : Executes (resolveRequestId request.requestId) ids requestId)
      (cleared : Cleared abs.toAuthAbstractions scope
        (request.protectedRequest request.bodyRequest.bytes) info asked)
      (served : body.chainId ∈ setup.clients)
      (due : SignatureDue setup deps ⟨body.chainId, now.ms, true⟩ body td reads walk)
      (raced : TimedCall walk timed) :
      SignerAsked framework abs setup deps request td body now reads
        ((ids ++ asked).map onShell ++ (upstreamProbed abs ++ [onShell ⟨.dateNow, now⟩]) ++
          timed.map Event.inLeft)

theorem carries_asked {tr : List (Event server)}
    {next : (HostOp.sign ctx body).Answer → Serving Response}
    (h : Runs (buildGuardianServer framework abs request) tr
      (.perform (.inr (.sign ctx body)) next))
    (hcarries : Carries (setup.serve deps) tr walk) {td : TypedData} {reads : List SigningEvent}
    {calls : List SigningEvent} (hdue : SignatureDue setup deps ctx body td reads calls)
    {timed : List (Event (hosted env))} (htimed : TimedCall calls timed) :
    ∃ now : TimeValue, ctx = ⟨body.chainId, now.ms, true⟩ ∧
      SignerAsked framework abs setup deps request td body now reads
        (walk ++ timed.map Event.inLeft) := by
  obtain ⟨scope, hpresented, info, ids, asked, prep, requestId, rfl, hids, hcleared, hprepared⟩ :=
    buildGuardianServer_sign h
  obtain ⟨w, w', rfl, hshown, hprep⟩ := hcarries.split
  obtain ⟨hserved, now, rfl, rfl⟩ := carries_prepared hprepared hprep
  have hwalk := @SignerAsked.intro framework abs setup deps request td body now reads scope info ids
    asked requestId calls timed hpresented hids hcleared hserved hdue htimed
  rw [carries_inLeft hshown]
  exact ⟨now, rfl, hwalk⟩

theorem signingService_issued (hbuilds : policies.Builds deps.guardianSigner setup) {td : TypedData}
    {next : Op.Answer (.signTypedData td) → Program signingServer Response}
    (h : Runs (signingService framework abs setup deps request) walk
      (.perform (.inl (.inl (.signTypedData td))) next)) :
    ∃ body now reads, SignerAsked framework abs setup deps request td body now reads walk := by
  obtain ⟨tr, asked, rest, w, last, next', rfl, hruns, hcarries, hlast⟩ := runs_handle_perform h
  rcases asked with op | op
  · rcases runs_perform.mp hlast with ⟨-, heq⟩ | ⟨r, tr', -, hdone⟩
    · cases heq
    · cases (runs_done.mp hdone).2
  cases op
  case sign ctx body =>
    obtain ⟨timed, op, next'', rfl, hop, hcall⟩ := runs_inLeft_perform hlast
    cases hop
    obtain ⟨calls, next₃, htimed, hsign⟩ := runs_cutOff hcall
    obtain ⟨reads, hdue⟩ := sign_issued hbuilds hsign
    obtain ⟨now, -, hasked⟩ := carries_asked hruns hcarries hdue htimed
    exact ⟨body, now, reads, hasked⟩
  case getChainClient chainId => cases (runs_done.mp hlast).2
  all_goals
    rcases runs_perform.mp hlast with ⟨-, heq⟩ | ⟨r, tr', -, hdone⟩
    · cases heq
    · cases (runs_done.mp hdone).2

theorem SignerAsked.decimal {td : TypedData} {now : TimeValue} {reads : List SigningEvent}
    (h : SignerAsked framework abs setup deps request td body now reads walk) : body.Decimal := by
  cases h with
  | @intro scope _ _ _ _ _ _ presented _ _ _ _ _ =>
    obtain ⟨j, -, hread⟩ := presented.read
    cases scope with
    | intentRequestBindings =>
      obtain ⟨parsed, hparsed, rfl⟩ := Option.map_eq_some_iff.mp hread
      exact zIntentRequestBindingBody_decimal hparsed
    | intentFundBindings =>
      obtain ⟨parsed, hparsed, rfl⟩ := Option.map_eq_some_iff.mp hread
      exact zIntentFundBindingBody_decimal hparsed
    | intentSwaps =>
      obtain ⟨parsed, hparsed, rfl⟩ := Option.map_eq_some_iff.mp hread
      exact zIntentSwapBody_decimal hparsed
    | requestWhitelistings =>
      obtain ⟨parsed, hparsed, rfl⟩ := Option.map_eq_some_iff.mp hread
      exact zRequestWhitelistingBody_decimal hparsed

theorem SignerAsked.entitled (hbuilds : policies.Builds deps.guardianSigner setup) {td : TypedData}
    {now : TimeValue} {reads : List SigningEvent}
    (h : SignerAsked framework abs setup deps request td body now reads walk)
    (views : ℕ → ChainViews) (hviews : ∀ e ∈ reads, AnswersViews views e)
    (hborn : ∀ contract, BornFirst (views body.chainId) policies.requestBinding body.chainId
      contract) :
    body.Entitled (views body.chainId) policies deps.guardianSigner
      ⟨body.chainId, now.ms, true⟩ := by
  have hdecimal := h.decimal
  cases h with
  | intro _ _ _ _ due _ =>
    cases due with
    | intro checked _ _ => exact checks_entitled hbuilds hdecimal rfl checked hviews hborn

theorem SignerAsked.first (hbuilds : policies.Builds deps.guardianSigner setup) {td : TypedData}
    {now : TimeValue} {reads : List SigningEvent}
    (h : SignerAsked framework abs setup deps request td body now reads walk) :
    ∀ e ∈ walk, ∀ td', e.op ≠ Sum.inl (Sum.inl (Op.signTypedData td')) := by
  cases h with
  | @intro _ _ ids asked _ calls _ _ _ _ _ due raced =>
    cases due with
    | @intro resolution _ _ checked domain _ =>
      intro e he td' heq
      rcases List.mem_append.mp he with hshell | hcall
      · obtain ⟨d, rfl⟩ : ∃ d, e = besideCall d := by
          rcases List.mem_append.mp hshell with hmem | hmem
          · obtain ⟨d, -, rfl⟩ := List.mem_map.mp hmem
            exact ⟨_, rfl⟩
          rcases List.mem_append.mp hmem with hmem | hmem
          · unfold upstreamProbed at hmem
            split at hmem
            · exact ⟨_, List.mem_singleton.mp hmem⟩
            · cases hmem
          · exact ⟨_, List.mem_singleton.mp hmem⟩
        cases heq
      · obtain ⟨d, hd, rfl⟩ := List.mem_map.mp hcall
        obtain ⟨op, answer⟩ := d
        cases heq
        have hmem : (⟨.signTypedData td', answer⟩ : SigningEvent) ∈ reads ++ resolution :=
          raced.mem hd
        rcases List.mem_append.mp hmem with hread | hresolved
        · exact asksNoSignature_of_runs (checks_checks hbuilds _ body) checked _ hread
        · exact asksNoSignature_of_runs (resolveDomain_checking _ _ _) domain _ hresolved

theorem carries_unsigned {tr : List (Event server)} (hunsigned : Unsigned tr)
    (h : Carries (setup.serve deps) tr walk) : ∀ e ∈ walk, ∃ d, e = besideCall d := by
  induction h with
  | nil =>
    intro e he
    cases he
  | @cons e tr piece walk' hop _ ih =>
    intro d hd
    rcases List.mem_append.mp hd with hd | hd
    · obtain ⟨op, answer⟩ := e
      rcases op with op | op
      · obtain ⟨r, tr', rfl, hdone⟩ := executes_perform.mp hop
        obtain ⟨rfl, -⟩ := runs_done.mp hdone
        exact ⟨⟨.inl op, r⟩, List.mem_singleton.mp hd⟩
      · cases op
        case sign ctx body => exact absurd rfl (hunsigned _ (.head _) ctx body)
        case getChainClient chainId =>
          obtain ⟨rfl, -⟩ := runs_done.mp hop
          cases hd
        case liveness =>
          obtain ⟨r, tr', rfl, hdone⟩ := executes_perform.mp hop
          obtain ⟨rfl, -⟩ := runs_done.mp hdone
          exact ⟨⟨.inr .liveness, r⟩, List.mem_singleton.mp hd⟩
        case probeUpstream =>
          obtain ⟨r, tr', rfl, hdone⟩ := executes_perform.mp hop
          obtain ⟨rfl, -⟩ := runs_done.mp hdone
          exact ⟨⟨.inr .probeUpstream, r⟩, List.mem_singleton.mp hd⟩
    · exact ih (fun e he => hunsigned e (.tail _ he)) d hd

theorem carries_unanswered {tr : List (Event server)} (hunsigned : Unsigned tr)
    (h : Carries (setup.serve deps) tr walk) (td : TypedData) (signature : String) :
    (⟨.inl (.inl (.signTypedData td)), .ok signature⟩ : Event signingServer) ∉ walk := by
  intro hmem
  obtain ⟨d, hd⟩ := carries_unsigned hunsigned h _ hmem
  cases hd

/-- The last request to the signer and the response it was answered with. -/
inductive SignerAnswered (framework : Framework) (abs : GuardianAbstractions)
    (setup : GuardianSetup) (deps : SignDeps) (request : HttpRequest) (body : ParsedSigningBody)
    (now : TimeValue) (reads : List SigningEvent) (td : TypedData) (success : SigningSuccess)
    (response : Response) : List (Event signingServer) → Prop where
  | intro {scope : EndpointScope} {asked rest : List (Event signingServer)} {calls}
      (behind : SignerAsked framework abs setup deps request td body now reads asked)
      (inTime : (⟨.inl (.inr ()), true⟩ : Event signingServer) ∉ asked)
      (signed : SignedBy deps ⟨body.chainId, now.ms, true⟩
        (setup.checks ⟨body.chainId, now.ms, true⟩ body) td success calls)
      (presented : Presented framework abs scope request body)
      (answered : AnsweredAs (validateResponse framework scope request (body.document success))
        response)
      (last : ∀ e ∈ rest, ∀ op, e.op ≠ Sum.inl (Sum.inl op)) :
      SignerAnswered framework abs setup deps request body now reads td success response
        (asked ++ ⟨.inl (.inl (.signTypedData td)), .ok success.signature⟩ :: rest)

/-- A call that was cut off, or in which no signature was returned. -/
def Unsettled (walk : List (Event signingServer)) : Prop :=
  (⟨.inl (.inr ()), true⟩ : Event signingServer) ∈ walk ∨ ∀ td signature,
    (⟨.inl (.inl (.signTypedData td)), .ok signature⟩ : Event signingServer) ∉ walk

theorem signingService_settled (hbuilds : policies.Builds deps.guardianSigner setup)
    {scope : EndpointScope} {response : Response}
    (hfind : framework.find request.method request.path = some (.signing scope))
    (h : Executes (signingService framework abs setup deps request) walk response) :
    (∃ envelope, response.body = .inl envelope) ∧ Unsettled walk ∨
      ∃ body now reads td success, SignerAnswered framework abs setup deps request body now reads td
        success response walk := by
  obtain ⟨tr, hserver, hcarries⟩ := executes_handle.mp h
  rcases buildGuardianServer_settled hfind hserver with ⟨hunsigned, hfailed⟩ |
    ⟨before, ctx, body, race, after, rfl, hunsigned, hanswered⟩
  · exact .inl ⟨hfailed, .inr (carries_unanswered hunsigned hcarries)⟩
  have hbefore : Unsigned before := fun e he => hunsigned e (List.mem_append_left _ he)
  have hafter : Unsigned after := fun e he => hunsigned e (List.mem_append_right _ he)
  obtain ⟨next, hpending, -⟩ := hserver.split
  obtain ⟨w, w', rfl, hw, hrest⟩ := hcarries.split
  cases hrest with
  | @cons _ _ piece w'' hsign hlast =>
    obtain ⟨timed, rfl, hcall⟩ := executes_inLeft.mp hsign
    rcases executes_cutOff hcall with ⟨rfl, hlate⟩ | ⟨calls, settled, rfl, hcalls, rfl⟩
    · refine .inl ⟨hanswered.2, .inl ?_⟩
      exact List.mem_append_right _ (List.mem_append_left _ (List.mem_map_of_mem hlate))
    rcases sign_settled hbuilds hcalls with ⟨f, rfl, hunanswered⟩ | ⟨td, success, hsigned, rfl⟩
    · refine .inl ⟨?_, .inr fun td signature hmem => ?_⟩
      · cases f with
        | err e => exact hanswered.2
        | thrown e => exact hanswered.2
      · rcases List.mem_append.mp hmem with hmem | hmem
        · exact carries_unanswered hbefore hw td signature hmem
        · rcases List.mem_append.mp hmem with hmem | hmem
          · obtain ⟨d, hd, heq⟩ := List.mem_map.mp hmem
            obtain ⟨op, answer⟩ := d
            cases heq
            exact hunanswered td signature (mem_racedTrace.mp hd)
          · exact carries_unanswered hafter hlast td signature hmem
    obtain ⟨scope', hpresented, -⟩ := buildGuardianServer_sign hpending
    obtain rfl : scope' = scope := by
      have hrouted := hpresented.routed
      rw [hfind] at hrouted
      cases hrouted
      rfl
    obtain ⟨due, hcallsEq⟩ := hsigned.last
    subst hcallsEq
    obtain ⟨next', hissued, -⟩ := hcalls.split
    obtain ⟨reads, hdue⟩ := sign_issued hbuilds hissued
    obtain ⟨now, rfl, hasked⟩ := carries_asked hpending hw hdue (timed_racedTrace due)
    have hanswer := @SignerAnswered.intro framework abs setup deps request body now reads td success
      response scope' _ (⟨.inl (.inr ()), false⟩ :: w'') _ hasked ?_ hsigned hpresented hanswered ?_
    · rw [racedTrace_snoc, List.map_append, List.append_assoc, ← List.append_assoc w]
      exact .inr ⟨body, now, reads, td, success, hanswer⟩
    · intro hlate
      rcases List.mem_append.mp hlate with hlate | hlate
      · obtain ⟨d, hd⟩ := carries_unsigned hbefore hw _ hlate
        cases hd
      · obtain ⟨d, hd, heq⟩ := List.mem_map.mp hlate
        obtain ⟨op, answer⟩ := d
        cases heq
        exact late_notMem_racedTrace due hd
    · intro e he op heq
      rcases List.mem_cons.mp he with rfl | he
      · cases heq
      · obtain ⟨d, rfl⟩ := carries_unsigned hafter hlast e he
        cases heq

/-- A signature and the texts around it fit the response schema. -/
structure Serves (deps : SignDeps) (now : TimeValue) (success : SigningSuccess) : Prop where
  guardian : isHex 40 (toLowerCase deps.guardianSigner) = true
  signature : isHex 130 (toLowerCase success.signature) = true
  payloadHash : isHex 64 (toLowerCase success.payloadHash) = true
  fourDigitYear : -62167219200000 ≤ now.ms ∧ now.ms ≤ 253402300799999
  reasons : ∀ entry ∈ success.checks, entry.reason ≠ some ""

theorem SignedBy.wire_iff {now : TimeValue} {chainId : ℕ} {td : TypedData}
    {success : SigningSuccess} {checks : Signing (Settled (List CheckEntry))}
    {calls : List SigningEvent} (hchecks : Checks True checks)
    (h : SignedBy deps ⟨chainId, now.ms, true⟩ checks td success calls) :
    success.Wire ↔ Serves deps now success := by
  cases h with
  | intro checked hash =>
    have hentries : Reported True (.ok _) := hchecks.executes checked (checking_follows _)
    cases hentries with
    | ok wellFormed _ =>
      constructor
      · intro hwire
        exact ⟨hwire.guardian, hwire.signature, hwire.payloadHash,
          (nowIso_rfc3339 now.ms).mp hwire.signedAt, fun e he => (hwire.checks e he).reason⟩
      · intro hserves
        exact ⟨hserves.guardian, hserves.signature, hserves.payloadHash,
          (nowIso_rfc3339 now.ms).mpr hserves.fourDigitYear,
          fun e he => ⟨(wellFormed e he).description, hserves.reasons e he⟩⟩

theorem zRequestWhitelistingBody_nonce {j : Json} {parsed : RequestWhitelistingBody}
    (h : zRequestWhitelistingBody j = some parsed) : zUintStringBelowMax parsed.nonce = true := by
  obtain ⟨accepted, haccept, rfl⟩ := Option.map_eq_some_iff.mp h
  simp only [RequestWhitelistingBody.accept, Option.bind_eq_bind, Option.bind_eq_some_iff,
    Option.pure_def, Option.some.injEq] at haccept
  obtain ⟨_, -, _, -, _, -, _, -, _, -, nonce, ⟨_, -, hnonce⟩, _, -, rfl⟩ := haccept
  exact (Json.stringWhere?_eq_some.mp hnonce).2

/-- The schema of the body's route reads a signed response exactly when it is on the wire. -/
theorem zResponse_document {scope : EndpointScope} {success : SigningSuccess} {j read : Json}
    (hbody : scope.zBody j = some body) :
    scope.zResponse (body.document success) = some read ↔
      success.Wire ∧ read = body.document success.lowered := by
  have hplain : (zSigningSuccess success.toJson).map SigningSuccess.toJson = some read ↔
      success.Wire ∧ read = success.lowered.toJson := by
    rw [Option.map_eq_some_iff]
    constructor
    · intro h
      obtain ⟨checked, hchecked, rfl⟩ := h
      obtain ⟨hwire, rfl⟩ := zSigningSuccess_toJson.mp hchecked
      exact ⟨hwire, rfl⟩
    · intro h
      exact ⟨_, zSigningSuccess_toJson.mpr ⟨h.1, rfl⟩, h.2.symm⟩
  cases scope with
  | intentRequestBindings =>
    obtain ⟨parsed, -, rfl⟩ := Option.map_eq_some_iff.mp hbody
    exact hplain
  | intentFundBindings =>
    obtain ⟨parsed, -, rfl⟩ := Option.map_eq_some_iff.mp hbody
    exact hplain
  | intentSwaps =>
    obtain ⟨parsed, -, rfl⟩ := Option.map_eq_some_iff.mp hbody
    exact hplain
  | requestWhitelistings =>
    obtain ⟨parsed, hparsed, rfl⟩ := Option.map_eq_some_iff.mp hbody
    have hnonce := zRequestWhitelistingBody_nonce hparsed
    change (zRequestWhitelistingResponse (RequestWhitelistingResponse.toJson
      ⟨success, success.guardian, parsed.nonce⟩)).map RequestWhitelistingResponse.toJson =
        some read ↔ _
    rw [Option.map_eq_some_iff]
    constructor
    · intro h
      obtain ⟨checked, hchecked, rfl⟩ := h
      obtain ⟨hwire, rfl⟩ := zRequestWhitelistingResponse_toJson.mp hchecked
      exact ⟨hwire.success, rfl⟩
    · intro h
      obtain ⟨hwire, rfl⟩ := h
      exact ⟨_, zRequestWhitelistingResponse_toJson.mpr ⟨⟨hwire, hwire.guardian, hnonce⟩, rfl⟩, rfl⟩

theorem SignerAnswered.served (hbuilds : policies.Builds deps.guardianSigner setup)
    {now : TimeValue} {reads : List SigningEvent} {td : TypedData} {success : SigningSuccess}
    {response : Response}
    (h : SignerAnswered framework abs setup deps request body now reads td success response walk) :
    (Serves deps now success → response.status = 200 ∧
      response.body = .inr (body.document success.lowered)) ∧
    (¬Serves deps now success → response.status = 500 ∧
      ∃ envelope, response.body = .inl envelope) := by
  cases h with
  | @intro scope _ _ _ _ _ signed presented answered _ =>
    obtain ⟨j, -, hbody⟩ := presented.read
    have hwire := signed.wire_iff (checks_checks hbuilds _ body)
    cases hread : scope.zResponse (body.document success) with
    | none =>
      rw [validateResponse, hread] at answered
      refine ⟨fun hserves => ?_, fun _ => answered⟩
      have hsome := (zResponse_document hbody).mpr ⟨hwire.mpr hserves, rfl⟩
      rw [hread] at hsome
      cases hsome
    | some read =>
      rw [validateResponse, hread] at answered
      obtain ⟨hfits, rfl⟩ := (zResponse_document hbody).mp hread
      exact ⟨fun _ => answered, fun hserves => absurd (hwire.mp hfits) hserves⟩

end Service

section Theorems
variable (framework : Framework) (abs : GuardianAbstractions) (policies : GuardianPolicies)
  (setup : GuardianSetup) (deps : SignDeps) (request : HttpRequest)

def EntitledReads (policies : GuardianPolicies) (deps : SignDeps) (body : ParsedSigningBody)
    (now : TimeValue) (reads : List SigningEvent) : Prop :=
  ∀ views : ℕ → ChainViews, (∀ e ∈ reads, AnswersViews views e) →
    (∀ contract, BornFirst (views body.chainId) policies.requestBinding body.chainId contract) →
    body.Entitled (views body.chainId) policies deps.guardianSigner ⟨body.chainId, now.ms, true⟩

/-- The signer is asked at most once for a request, behind every gate of its route, for a body that
honest reads entitle. -/
theorem signer_asked_past_every_gate (hbuilds : policies.Builds deps.guardianSigner setup)
    (tr : List (Event signingServer)) (td : TypedData)
    (next : Op.Answer (.signTypedData td) → Program signingServer Response)
    (h : Runs (signingService framework abs setup deps request) tr
      (.perform (.inl (.inl (.signTypedData td))) next)) :
    (∀ e ∈ tr, ∀ td', e.op ≠ Sum.inl (Sum.inl (Op.signTypedData td'))) ∧ ∃ body now reads,
      SignerAsked framework abs setup deps request td body now reads tr ∧
      EntitledReads policies deps body now reads := by
  obtain ⟨body, now, reads, hasked⟩ := signingService_issued hbuilds h
  exact ⟨hasked.first hbuilds, body, now, reads, hasked, hasked.entitled hbuilds⟩

/-- A document of a signing route is the signature of the signer for an entitled body, written out
in lower case. -/
theorem served_signature_entitled (hbuilds : policies.Builds deps.guardianSigner setup)
    (tr : List (Event signingServer)) (response : Response)
    (h : Executes (signingService framework abs setup deps request) tr response)
    (scope : EndpointScope)
    (hfind : framework.find request.method request.path = some (.signing scope)) (j : Json)
    (hbody : response.body = .inr j) :
    response.status = 200 ∧ ∃ body now reads td success,
      SignerAnswered framework abs setup deps request body now reads td success response tr ∧
      j = body.document success.lowered ∧ EntitledReads policies deps body now reads := by
  rcases signingService_settled hbuilds hfind h with ⟨⟨envelope, hfailed⟩, -⟩ |
    ⟨body, now, reads, td, success, hanswered⟩
  · rw [hbody] at hfailed
    cases hfailed
  have hserved := hanswered.served hbuilds
  by_cases hfits : Serves deps now success
  · obtain ⟨hstatus, hdocument⟩ := hserved.1 hfits
    rw [hbody] at hdocument
    refine ⟨hstatus, body, now, reads, td, success, hanswered, Sum.inr.inj hdocument, ?_⟩
    cases hanswered with
    | intro behind _ _ _ _ _ => exact behind.entitled hbuilds
  · obtain ⟨-, envelope, hfailed⟩ := hserved.2 hfits
    rw [hbody] at hfailed
    cases hfailed

/-- A signature that was returned in time is served, unless it does not fit the schema of its
response: then the route answers with status 500. -/
theorem signature_in_time_is_served (hbuilds : policies.Builds deps.guardianSigner setup)
    (tr : List (Event signingServer)) (response : Response)
    (h : Executes (signingService framework abs setup deps request) tr response)
    (scope : EndpointScope)
    (hfind : framework.find request.method request.path = some (.signing scope))
    (td : TypedData) (signature : String)
    (hsigned : (⟨.inl (.inl (.signTypedData td)), .ok signature⟩ : Event signingServer) ∈ tr)
    (hinTime : (⟨.inl (.inr ()), true⟩ : Event signingServer) ∉ tr) :
    ∃ (body : ParsedSigningBody) (now : TimeValue) (success : SigningSuccess),
      success.signature = signature ∧ success.guardian = deps.guardianSigner ∧
      deps.hashTypedData td = .ok success.payloadHash ∧ success.signedAt = nowIso now.ms ∧
      (Serves deps now success → response.status = 200 ∧
        response.body = .inr (body.document success.lowered)) ∧
      (¬Serves deps now success → response.status = 500 ∧
        ∃ envelope, response.body = .inl envelope) := by
  rcases signingService_settled hbuilds hfind h with ⟨-, hlate | hnone⟩ |
    ⟨body, now, reads, td', success, hanswered⟩
  · exact absurd hlate hinTime
  · exact absurd hsigned (hnone td signature)
  have hserved := hanswered.served hbuilds
  cases hanswered with
  | intro behind _ signed _ _ last =>
    obtain ⟨rfl, rfl⟩ : td' = td ∧ success.signature = signature := by
      rcases List.mem_append.mp hsigned with hbefore | hafter
      · exact absurd rfl (behind.first hbuilds _ hbefore td)
      · rcases List.mem_cons.mp hafter with heq | hrest
        · cases heq
          exact ⟨rfl, rfl⟩
        · exact absurd rfl (last _ hrest _)
    cases signed with
    | intro checked hash => exact ⟨body, now, _, rfl, rfl, hash, rfl, hserved⟩

end Theorems

namespace Sample

def serviceAnswers (late : Bool) : ∀ op : signingServer.Op, signingServer.Answer op
  | .inl (.inl (.eip712Domain ..)) => .ok ⟨"Facility", "1"⟩
  | .inl (.inl (.signTypedData _)) => .ok (hex 130)
  | .inl (.inl op) => boundClient op
  | .inl (.inr ()) => late
  | .inr (.inl op) => shellAnswers op
  | .inr (.inr .liveness) => .resolved (.ok ())
  | .inr (.inr .probeUpstream) => .ok (.ok ())

def service : Program signingServer Response :=
  signingService framework abstractions guardianSetup (signerDeps crypto kmsSigner) postedRequest

def served (late : Bool) : List (Event signingServer) := service.trace (serviceAnswers late)

def asksSigner : Event signingServer → Bool
  | ⟨.inl (.inl (.signTypedData _)), _⟩ => true
  | _ => false

def isFired : Event signingServer → Bool
  | ⟨.inl (.inr ()), late⟩ => late
  | _ => false

def unsigned (late : Bool) : List (Event signingServer) :=
  (served late).takeWhile fun e => !asksSigner e

/-- Both runs ask the signer, the second one after the timer has fired; the first one is answered
with a document. -/
theorem service_facts : ((served false).any asksSigner && (served true).any asksSigner &&
    (unsigned true).any isFired && (service.eval (serviceAnswers false)).body.isRight) = true := by
  decide +kernel

theorem first_of_any {α : Type} {p : α → Bool} {l : List α} (h : l.any p = true) :
    ∃ e post, p e = true ∧ l = l.takeWhile (fun e => !p e) ++ e :: post := by
  induction l with
  | nil => cases h
  | cons d l ih =>
    cases hd : p d with
    | true => exact ⟨d, l, hd, by simp [hd]⟩
    | false =>
      obtain ⟨e, post, he, heq⟩ := ih (by simpa [hd] using h)
      exact ⟨e, post, he, by simpa [hd] using heq⟩

theorem served_signs (late : Bool) (h : (served late).any asksSigner = true) : ∃ td post,
    served late = unsigned late ++ ⟨.inl (.inl (.signTypedData td)), .ok (hex 130)⟩ :: post := by
  obtain ⟨e, post, hsigner, htrace⟩ := first_of_any h
  have hmem : e ∈ service.trace (serviceAnswers late) := by
    rw [served] at htrace
    rw [htrace]
    exact List.mem_append_right _ (.head _)
  have hanswered := trace_answered (serviceAnswers late) service e hmem
  obtain ⟨op, answer⟩ := e
  obtain rfl : answer = serviceAnswers late op := hanswered
  rcases op with (op | op) | op
  · cases op
    case signTypedData td => exact ⟨td, post, htrace⟩
    all_goals cases hsigner
  · cases hsigner
  · cases hsigner

end Sample

/-- The signer is asked in time, and by a call that the timer has cut off. -/
theorem signer_asked_past_every_gate_posted : ∃ td body now reads td' body' now' reads',
    SignerAsked Sample.framework Sample.abstractions Sample.guardianSetup
      (signerDeps Sample.crypto Sample.kmsSigner) Sample.postedRequest td body now reads
      (Sample.unsigned false) ∧
    SignerAsked Sample.framework Sample.abstractions Sample.guardianSetup
      (signerDeps Sample.crypto Sample.kmsSigner) Sample.postedRequest td' body' now' reads'
      (Sample.unsigned true) ∧
    (Sample.unsigned true).any Sample.isFired = true := by
  have hfacts := Sample.service_facts
  simp only [Bool.and_eq_true] at hfacts
  obtain ⟨⟨⟨hsigns, hsignsLate⟩, hfired⟩, -⟩ := hfacts
  have hasked : ∀ late, (Sample.served late).any Sample.asksSigner = true →
      ∃ td body now reads, SignerAsked Sample.framework Sample.abstractions Sample.guardianSetup
        (signerDeps Sample.crypto Sample.kmsSigner) Sample.postedRequest td body now reads
        (Sample.unsigned late) := by
    intro late hsigner
    obtain ⟨td, post, htrace⟩ := Sample.served_signs late hsigner
    have hrun := executes_trace (Sample.serviceAnswers late) Sample.service
    rw [show Sample.service.trace (Sample.serviceAnswers late) = Sample.served late from rfl,
      htrace] at hrun
    obtain ⟨next, hpending, -⟩ := hrun.split
    obtain ⟨-, body, now, reads, hasked, -⟩ := signer_asked_past_every_gate Sample.framework
      Sample.abstractions Sample.guardianPolicies Sample.guardianSetup
      (signerDeps Sample.crypto Sample.kmsSigner) Sample.postedRequest
      Sample.guardianSetup_builds _ td next hpending
    exact ⟨td, body, now, reads, hasked⟩
  obtain ⟨td, body, now, reads, hintime⟩ := hasked false hsigns
  obtain ⟨td', body', now', reads', hlate⟩ := hasked true hsignsLate
  exact ⟨td, body, now, reads, td', body', now', reads', hintime, hlate, hfired⟩

theorem served_signature_entitled_posted :
    (Sample.service.eval (Sample.serviceAnswers false)).status = 200 := by
  have hrun := executes_trace (Sample.serviceAnswers false) Sample.service
  obtain ⟨j, hj⟩ := Sum.isRight_iff.mp (Bool.and_eq_true_iff.mp Sample.service_facts).2
  exact (served_signature_entitled Sample.framework Sample.abstractions Sample.guardianPolicies
    Sample.guardianSetup (signerDeps Sample.crypto Sample.kmsSigner) Sample.postedRequest
    Sample.guardianSetup_builds _ _ hrun .intentRequestBindings (by decide) j hj).1

theorem signature_in_time_is_served_posted : ∃ success : SigningSuccess,
    success.signature = Sample.hex 130 ∧ success.guardian = Sample.kmsAddress := by
  have hrun := executes_trace (Sample.serviceAnswers false) Sample.service
  have hfacts := Sample.service_facts
  simp only [Bool.and_eq_true] at hfacts
  obtain ⟨td, post, htrace⟩ := Sample.served_signs false hfacts.1.1.1
  have hlate : (⟨.inl (.inr ()), true⟩ : Event signingServer) ∉
      Sample.service.trace (Sample.serviceAnswers false) := by
    intro hmem
    have hanswered := trace_answered (Sample.serviceAnswers false) Sample.service _ hmem
    cases hanswered
  obtain ⟨body, now, success, hsignature, hguardian, -⟩ := signature_in_time_is_served
    Sample.framework Sample.abstractions Sample.guardianPolicies Sample.guardianSetup
    (signerDeps Sample.crypto Sample.kmsSigner) Sample.postedRequest Sample.guardianSetup_builds _ _
    hrun .intentRequestBindings (by decide) td (Sample.hex 130)
    (by rw [show Sample.service.trace (Sample.serviceAnswers false) = Sample.served false from rfl,
      htrace]; simp)
    hlate
  exact ⟨success, hsignature, hguardian⟩

end Guardian
