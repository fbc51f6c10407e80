import Guardian.Coordinator.SubmittedSignatures
import Guardian.Defaults.Entitled

/-!
# What is submitted was entitled

The guardian of the command line over the four default check runners. A submission has one
signing call behind it, and the call is read event by event: the clock, the reads of the
checks, the domain and the signer. What the checks read decides what was entitled.
-/

namespace Guardian
open Effect Text Program

/-- The policies of the command line; A.4 shares the one of A.1. -/
structure GuardianPolicies where
  requestBinding : IntentRequestBindingPolicy
  fundBinding : IntentFundBindingPolicy
  swap : IntentSwapPolicy
  maxNonceAboveFloor : ℤ
  acceptedWhitelistBooks : Option AddressSets

namespace GuardianPolicies
variable (policies : GuardianPolicies)

def a1 : A1Deps := ⟨policies.requestBinding, false, none⟩

def a4 (guardianSigner : Address) : RequestWhitelistingDeps where
  policy :=
    { policies.requestBinding with
      maxNonceAboveFloor := policies.maxNonceAboveFloor
      acceptedWhitelistBooks := policies.acceptedWhitelistBooks
      maxRequestContracts := none }
  guardianSigner := guardianSigner
  cache := false
  cacheTtlMs := none

/-- The check runners of a setup are the default ones under the policies. -/
structure Builds (guardianSigner : Address) (setup : GuardianSetup) : Prop where
  requestBinding :
    buildIntentRequestBindingChecks policies.a1 = .ok setup.intentRequestBindingChecks
  fundBinding :
    setup.intentFundBindingChecks = buildIntentFundBindingChecks policies.fundBinding
  swap : buildIntentSwapChecks policies.swap = .ok setup.intentSwapChecks
  requestWhitelisting :
    buildRequestWhitelistingChecks (policies.a4 guardianSigner) =
      .ok setup.requestWhitelistingChecks

end GuardianPolicies

namespace ParsedSigningBody

/-- The identifiers, amounts and nonce of a parsed body are canonical decimals. -/
def Decimal : ParsedSigningBody → Prop
  | setRequest body => UINT_DECIMAL_RE body.intent.id = true
  | setFund body => UINT_DECIMAL_RE body.intent.id = true
  | swap body => ∃ legA legB, body.legs = [legA, legB] ∧ legA.Decimal ∧ legB.Decimal
  | requestWhitelisting body => UINT_DECIMAL_RE body.nonce = true

def Entitled (view : ChainViews) (policies : GuardianPolicies) (guardianSigner : Address)
    (ctx : SigningContext) : ParsedSigningBody → Prop
  | setRequest body => RequestEntitled view policies.requestBinding ctx body.a1
  | setFund body => FundEntitled view policies.fundBinding ctx body
  | swap body => ∃ pmLeg debtLeg, SwapEntitled view policies.swap ctx body pmLeg debtLeg
  | requestWhitelisting body => WhitelistingEntitled view (policies.a4 guardianSigner) ctx body

def typedData (resolved : Eip712DomainNameVersion) (validator : Address) :
    ParsedSigningBody → Except Thrown TypedData
  | setRequest body => buildIntentRequestBindingTypedData
      ⟨resolved.name, resolved.version, body.chainId, body.facility⟩ body
  | setFund body => buildIntentFundBindingTypedData
      ⟨resolved.name, resolved.version, body.chainId, body.facility⟩ body
  | swap body => buildIntentSwapTypedData
      ⟨resolved.name, resolved.version, body.chainId, body.facility⟩ body
  | requestWhitelisting body => buildRequestWhitelistingTypedData
      ⟨resolved.name, resolved.version, body.chainId, body.whitelistBook⟩ body validator

end ParsedSigningBody

section Bodies
variable {j : Json}

theorem zIntentRequestBindingBody_decimal {body : IntentRequestBindingBody}
    (h : zIntentRequestBindingBody j = some body) : UINT_DECIMAL_RE body.intent.id = true := by
  obtain ⟨accepted, haccept, rfl⟩ := Option.map_eq_some_iff.mp h
  have hdecimal := IntentRequestBindingBody.accept_decimal haccept
  exact hdecimal

theorem zIntentFundBindingBody_decimal {body : IntentFundBindingBody}
    (h : zIntentFundBindingBody j = some body) : UINT_DECIMAL_RE body.intent.id = true := by
  obtain ⟨accepted, haccept, rfl⟩ := Option.map_eq_some_iff.mp h
  have hdecimal := IntentFundBindingBody.accept_decimal haccept
  exact hdecimal

theorem zIntentSwapBody_decimal {body : IntentSwapBody} (h : zIntentSwapBody j = some body) :
    ∃ legA legB, body.legs = [legA, legB] ∧ legA.Decimal ∧ legB.Decimal := by
  obtain ⟨accepted, haccept, rfl⟩ := Option.map_eq_some_iff.mp h
  obtain ⟨legA, legB, hlegs, ha, hb⟩ := IntentSwapBody.accept_legs haccept
  exact ⟨legA.lowered, legB.lowered, by simp [IntentSwapBody.lowered, hlegs], ha, hb⟩

theorem zRequestWhitelistingBody_decimal {body : RequestWhitelistingBody}
    (h : zRequestWhitelistingBody j = some body) : UINT_DECIMAL_RE body.nonce = true := by
  obtain ⟨accepted, haccept, rfl⟩ := Option.map_eq_some_iff.mp h
  have hdecimal := RequestWhitelistingBody.accept_decimal haccept
  exact hdecimal

end Bodies

theorem parseSigningBody_decimal {request : SigningRequest} {parsed : ParsedSigningBody}
    (h : parseSigningBody request = some parsed) : parsed.Decimal := by
  unfold parseSigningBody at h
  cases hkind : request.kind with
  | setRequest =>
    rw [hkind] at h
    obtain ⟨body, hbody, rfl⟩ := Option.map_eq_some_iff.mp h
    exact zIntentRequestBindingBody_decimal hbody
  | setFund =>
    rw [hkind] at h
    obtain ⟨body, hbody, rfl⟩ := Option.map_eq_some_iff.mp h
    exact zIntentFundBindingBody_decimal hbody
  | swap =>
    rw [hkind] at h
    obtain ⟨body, hbody, rfl⟩ := Option.map_eq_some_iff.mp h
    exact zIntentSwapBody_decimal hbody
  | requestWhitelisting =>
    rw [hkind] at h
    obtain ⟨body, hbody, rfl⟩ := Option.map_eq_some_iff.mp h
    exact zRequestWhitelistingBody_decimal hbody

theorem announced_decimal {G : Effect.Signature} {guardian : CoordinatorGuardian G}
    {request : SigningRequest} {parsed : ParsedSigningBody} {tr : History G} {announced : Announced}
    (hparsed : parsed.Decimal) (h : Announces guardian request parsed tr announced) :
    announced.parsed.Decimal := by
  cases h with
  | listed _ => exact hparsed
  | reserved _ _ _ parses _ =>
    simp only [zReservation, Option.bind_eq_bind, Option.bind_eq_some_iff] at parses
    obtain ⟨nonce, ⟨_, _, hnonce⟩, _, _, heq⟩ := parses
    cases heq
    exact (Bool.and_eq_true_iff.mp (Json.stringWhere?_eq_some.mp hnonce).2).1

section Walk
variable {α : Type} {deps : SignDeps} {ctx : SigningContext}

theorem runSigner_walk {checks : Signing (Settled (List CheckEntry))} {chainId : ℕ}
    {verifyingContract : Address} {build : Eip712Domain → Except Thrown TypedData}
    {respond : SigningSuccess → α} {tr : List SigningEvent} {a : α}
    (hcache : deps.domainCache = ⟨false, none⟩)
    (h : Executes (runSigner deps ctx checks chainId verifyingContract build respond) tr (.ok a)) :
    ∃ reads entries resolved td success,
      tr = reads ++ [⟨.eip712Domain ctx.chainId verifyingContract, .ok resolved⟩,
        ⟨.signTypedData td, .ok success.signature⟩] ∧
      Executes checks reads (.ok entries) ∧
      build ⟨resolved.name, resolved.version, chainId, verifyingContract⟩ = .ok td ∧
      a = respond success := by
  obtain ⟨reads, tr₂, r, rfl, hchecks, h⟩ := executes_bind.mp h
  cases r with
  | error failure => cases (runs_done.mp h).2
  | ok entries =>
    obtain ⟨tr₃, tr₄, r, rfl, hdomain, h⟩ := executes_bind.mp h
    cases r with
    | error e => cases (runs_done.mp h).2
    | ok resolved =>
      obtain ⟨tr₅, tr₆, settled, rfl, hsign, h⟩ := executes_bind.mp h
      obtain ⟨rfl, hsettled⟩ := runs_done.mp h
      rcases signPayload_settled hsign with ⟨f, rfl, -⟩ | ⟨td, success, hbuild, rfl, rfl, -⟩
      · cases hsettled
      · cases hsettled
        rw [hcache] at hdomain
        obtain ⟨answer, tr', rfl, hrest⟩ := executes_perform.mp hdomain
        refine ⟨reads, entries, resolved, td, success, ?_, hchecks, hbuild, rfl⟩
        cases answer with
        | ok read =>
          obtain ⟨rfl, hr⟩ := runs_done.mp hrest
          cases hr
          rfl
        | error e =>
          rw [bind_done] at hrest
          dsimp only at hrest
          split at hrest <;> cases (runs_done.mp hrest).2

/-- The timer is asked before every event of a host call, and once more at its end. -/
def racedTrace {H : Effect.Signature} (walk : List (Event H)) : List (Event (hosted H)) :=
  walk.flatMap (fun e => [⟨.inr (), false⟩, e.inLeft]) ++ [⟨.inr (), false⟩]

theorem raced_walk {H : Effect.Signature} {ms : ℚ} {p : Program H (Except Caught α)}
    {tr : List (Event (hosted H))} {a : α} (h : Executes (raced ms p) tr (.ok a)) :
    ∃ walk, tr = racedTrace walk ∧ Executes p walk (.ok a) := by
  induction p generalizing tr with
  | done r =>
    obtain ⟨expired, tr', rfl, hrest⟩ := executes_perform.mp h
    cases expired with
    | true => cases (runs_done.mp hrest).2
    | false =>
      obtain ⟨rfl, hr⟩ := runs_done.mp hrest
      cases hr
      exact ⟨[], rfl, .refl _⟩
  | perform op next ih =>
    obtain ⟨expired, tr', rfl, hrest⟩ := executes_perform.mp h
    cases expired with
    | true => cases (runs_done.mp hrest).2
    | false =>
      obtain ⟨r, tr'', rfl, hnext⟩ := executes_perform.mp hrest
      obtain ⟨walk, rfl, hwalk⟩ := ih r hnext
      exact ⟨⟨op, r⟩ :: walk, rfl, executes_perform.mpr ⟨r, walk, rfl, hwalk⟩⟩

theorem callSign_walk {chainId : ℕ} {toJson : α → Json}
    {sign : SigningContext → Signing (Settled α)} {walk : List SigningEvent} {j : Json}
    (h : Executes (callSign chainId toJson sign) walk (.ok j)) :
    ∃ now rest a, walk = ⟨.dateNow, now⟩ :: rest ∧
      Executes (sign ⟨chainId, now, true⟩) rest (.ok a) ∧ j = toJson a := by
  obtain ⟨now, tr', rfl, hrest⟩ := executes_perform.mp h
  rw [bind_done] at hrest
  obtain ⟨tr₁, tr₂, r, rfl, hsign, hlast⟩ := executes_bind.mp hrest
  cases r with
  | error failure => cases (runs_done.mp hlast).2
  | ok a =>
    obtain ⟨rfl, hr⟩ := runs_done.mp hlast
    cases hr
    exact ⟨now, tr₁, a, by rw [List.append_nil], hsign, rfl⟩

variable {c : Crypto} {signer : LoadedGuardianSigner} {setup : GuardianSetup}

theorem runSigning_walk {chainId : ℕ} {sign : Program (hosted env) (Except Caught Json)}
    {tr : List (Event (hosted env))} {j : Json}
    (h : Executes (runSigning (buildGuardianFromEnv c signer setup) chainId sign) tr (.ok j)) :
    chainId ∈ setup.clients ∧ Executes sign tr (.ok j) := by
  obtain ⟨tr₁, tr₂, probed, rfl, hprobe, h⟩ := executes_bind.mp h
  obtain ⟨rfl, hprobed⟩ := runs_done.mp hprobe
  cases hprobed
  obtain ⟨tr₂, tr₃, client, rfl, hclient, h⟩ := executes_bind.mp h
  change Executes (Program.inLeft (if chainId ∈ setup.clients then return .ok () else
    return .error (.error s!"Unsupported chain {chainId}"))) tr₂ client at hclient
  split at hclient
  · rename_i hmem
    obtain ⟨rfl, hclient⟩ := runs_done.mp hclient
    cases hclient
    exact ⟨hmem, h⟩
  · obtain ⟨rfl, hclient⟩ := runs_done.mp hclient
    cases hclient
    cases (runs_done.mp h).2

def signingWalk (parsed : ParsedSigningBody) (now : ℤ) (reads : List SigningEvent)
    (resolved : Eip712DomainNameVersion) (td : TypedData) (signature : String) :
    List SigningEvent :=
  ⟨.dateNow, now⟩ :: (reads ++ [⟨.eip712Domain parsed.chainId parsed.target.2, .ok resolved⟩,
    ⟨.signTypedData td, .ok signature⟩])

def GuardianSetup.checks (setup : GuardianSetup) (ctx : SigningContext) :
    ParsedSigningBody → Signing (Settled (List CheckEntry))
  | .setRequest body => setup.intentRequestBindingChecks ctx body
  | .setFund body => setup.intentFundBindingChecks ctx body
  | .swap body => setup.intentSwapChecks ctx body
  | .requestWhitelisting body => setup.requestWhitelistingChecks ctx body

inductive SigningCall (signer : LoadedGuardianSigner) (setup : GuardianSetup)
    (parsed : ParsedSigningBody) (signature : String) : List (Event (hosted env)) → Prop where
  | intro {now : ℤ} {reads : List SigningEvent} {entries : List CheckEntry}
      {resolved : Eip712DomainNameVersion} {td : TypedData} {returned : String}
      (served : parsed.chainId ∈ setup.clients)
      (checked : Executes (setup.checks ⟨parsed.chainId, now, true⟩ parsed) reads (.ok entries))
      (built : parsed.typedData resolved signer.guardianSigner = .ok td)
      (lowered : signature = toLowerCase returned) :
      SigningCall signer setup parsed signature
        (racedTrace (signingWalk parsed now reads resolved td returned))

theorem hostedCall_walk {chainId : ℕ} {verifyingContract : Address} (toJson : α → Json)
    (checks : SigningContext → Signing (Settled (List CheckEntry)))
    (build : Eip712Domain → Except Thrown TypedData) (respond : SigningSuccess → α)
    {tr : List (Event (hosted env))} {j : Json}
    (h : Executes (runSigning (buildGuardianFromEnv c signer setup) chainId (raced setup.signMs
      (callSign chainId toJson fun ctx => runSigner (signerDeps c signer) ctx (checks ctx) chainId
        verifyingContract build respond))) tr (.ok j)) :
    chainId ∈ setup.clients ∧ ∃ now reads entries resolved td success,
      tr = racedTrace ((⟨.dateNow, now⟩ : SigningEvent) ::
        (reads ++ [⟨.eip712Domain chainId verifyingContract, .ok resolved⟩,
          ⟨.signTypedData td, .ok success.signature⟩])) ∧
      Executes (checks ⟨chainId, now, true⟩) reads (.ok entries) ∧
      build ⟨resolved.name, resolved.version, chainId, verifyingContract⟩ = .ok td ∧
      j = toJson (respond success) := by
  obtain ⟨hclient, hraced⟩ := runSigning_walk h
  obtain ⟨walk, rfl, hcall⟩ := raced_walk hraced
  obtain ⟨now, rest, a, rfl, hsign, rfl⟩ := callSign_walk hcall
  obtain ⟨reads, entries, resolved, td, success, rfl, hchecks, hbuild, rfl⟩ :=
    runSigner_walk rfl hsign
  exact ⟨hclient, now, reads, entries, resolved, td, success, rfl, hchecks, hbuild, rfl⟩

theorem runSigningOf_walk {parsed : ParsedSigningBody} {tr : List (Event (hosted env))} {j : Json}
    (h : Executes (runSigningOf (buildGuardianFromEnv c signer setup) parsed) tr (.ok j))
    {checked : SigningSuccess} (hchecked : parsed.zResponse j = some checked) :
    SigningCall signer setup parsed checked.signature tr := by
  cases parsed with
  | setRequest body =>
    obtain ⟨hclient, now, reads, entries, resolved, td, success, rfl, hchecks, hbuild, rfl⟩ :=
      hostedCall_walk SigningSuccess.toJson (fun ctx => setup.intentRequestBindingChecks ctx body)
        (fun domain => buildIntentRequestBindingTypedData domain body) id h
    exact .intro hclient hchecks hbuild (zSigningSuccess_eq hchecked).1
  | setFund body =>
    obtain ⟨hclient, now, reads, entries, resolved, td, success, rfl, hchecks, hbuild, rfl⟩ :=
      hostedCall_walk SigningSuccess.toJson (fun ctx => setup.intentFundBindingChecks ctx body)
        (fun domain => buildIntentFundBindingTypedData domain body) id h
    exact .intro hclient hchecks hbuild (zSigningSuccess_eq hchecked).1
  | swap body =>
    obtain ⟨hclient, now, reads, entries, resolved, td, success, rfl, hchecks, hbuild, rfl⟩ :=
      hostedCall_walk SigningSuccess.toJson (fun ctx => setup.intentSwapChecks ctx body)
        (fun domain => buildIntentSwapTypedData domain body) id h
    exact .intro hclient hchecks hbuild (zSigningSuccess_eq hchecked).1
  | requestWhitelisting body =>
    obtain ⟨hclient, now, reads, entries, resolved, td, success, rfl, hchecks, hbuild, rfl⟩ :=
      hostedCall_walk RequestWhitelistingResponse.toJson
        (fun ctx => setup.requestWhitelistingChecks ctx body)
        (fun domain => buildRequestWhitelistingTypedData domain body signer.guardianSigner)
        (fun success => ⟨success, signer.guardianSigner, body.nonce⟩) h
    exact .intro hclient hchecks hbuild (zRequestWhitelistingResponse_eq hchecked).1

end Walk

section Entitlement
variable {policies : GuardianPolicies} {guardianSigner : Address} {setup : GuardianSetup}
  {ctx : SigningContext} {reads : List SigningEvent} {entries : List CheckEntry}
  {views : ℕ → ChainViews}

theorem buildIntentRequestBindingChecks_ok {deps : A1Deps}
    {runner : CheckRunner IntentRequestBindingBody}
    (h : buildIntentRequestBindingChecks deps = .ok runner) :
    runner = fun ctx body => Settled.ofResult <$> runA1 ctx body.a1 deps := by
  unfold buildIntentRequestBindingChecks at h
  cases hpolicy : assertRetargetterPolicy "buildIntentRequestBindingChecks" deps.policy with
  | error e =>
    rw [hpolicy] at h
    cases h
  | ok u =>
    rw [hpolicy] at h
    exact (Except.ok.inj h).symm

theorem buildIntentSwapChecks_ok {policy : IntentSwapPolicy} {runner : CheckRunner IntentSwapBody}
    (h : buildIntentSwapChecks policy = .ok runner) :
    0 ≤ policy.swapPriceToleranceBps ∧ runner = runA3 policy := by
  unfold buildIntentSwapChecks at h
  split at h
  · cases h
  · exact ⟨by omega, (Except.ok.inj h).symm⟩

theorem checks_entitled (hbuilds : policies.Builds guardianSigner setup)
    {parsed : ParsedSigningBody} (hdecimal : parsed.Decimal) (hchain : ctx.chainId = parsed.chainId)
    (h : Executes (setup.checks ctx parsed) reads (.ok entries))
    (hviews : ∀ e ∈ reads, AnswersViews views e)
    (hborn : ∀ contract, BornFirst (views parsed.chainId) policies.requestBinding parsed.chainId
      contract) :
    parsed.Entitled (views parsed.chainId) policies guardianSigner ctx := by
  cases parsed with
  | setRequest body =>
    have hrunner := buildIntentRequestBindingChecks_ok hbuilds.requestBinding
    rw [GuardianSetup.checks, hrunner] at h
    dsimp only at h
    rw [map_eq_pure_bind] at h
    obtain ⟨tr₁, tr₂, r, rfl, hrun, hlast⟩ := executes_bind.mp h
    obtain ⟨rfl, hr⟩ := runs_done.mp hlast
    obtain rfl := ofResult_eq_ok.mp (Program.done.inj hr).symm
    exact (runA1_entitled hchain rfl (hborn _)).executes hrun
      (fun e he => hviews e (by simpa using he)) entries rfl
  | setFund body =>
    rw [GuardianSetup.checks, hbuilds.fundBinding] at h
    exact runA2_entitled hchain hdecimal h hviews
  | swap body =>
    obtain ⟨hbps, hrunner⟩ := buildIntentSwapChecks_ok hbuilds.swap
    obtain ⟨legA, legB, hlegs, ha, hb⟩ := hdecimal
    rw [GuardianSetup.checks, hrunner] at h
    exact (runA3_entitled hchain hbps hlegs ha hb).executes h hviews entries rfl
  | requestWhitelisting body =>
    obtain ⟨-, hrunner⟩ := buildRequestWhitelistingChecks_ok hbuilds.requestWhitelisting
    rw [GuardianSetup.checks, hrunner] at h
    have hentitled := @runA4_entitled views ctx (policies.a4 guardianSigner) body hchain rfl
      hdecimal fun contract _ => hborn contract
    exact hentitled.executes h hviews entries rfl

end Entitlement

/-- What stands behind a submission: the one signing call, what it signed, and what its reads
entitled if they were honest for some view of the chain. -/
inductive EntitledSubmission (policies : GuardianPolicies) (signer : LoadedGuardianSigner)
    (setup : GuardianSetup) (announced : Announced) :
    Submission → History (hosted env) → Prop where
  | intro {now : ℤ} {reads : List SigningEvent} {resolved : Eip712DomainNameVersion}
      {td : TypedData} {signature : String} (served : announced.parsed.chainId ∈ setup.clients)
      (built : announced.parsed.typedData resolved signer.guardianSigner = .ok td)
      (entitled : ∀ views : ℕ → ChainViews, (∀ e ∈ reads, AnswersViews views e) →
        (∀ contract, BornFirst (views announced.parsed.chainId) policies.requestBinding
          announced.parsed.chainId contract) →
        announced.parsed.Entitled (views announced.parsed.chainId) policies signer.guardianSigner
          ⟨announced.parsed.chainId, now, true⟩) :
      EntitledSubmission policies signer setup announced
        ⟨announced.parsed.chainId, toLowerCase signature, announced.nonce⟩
        ((racedTrace (signingWalk announced.parsed now reads resolved td signature)).map
          Event.inLeft)

theorem mem_signingWalk {parsed : ParsedSigningBody} {now : ℤ} {reads : List SigningEvent}
    {resolved : Eip712DomainNameVersion} {td : TypedData} {signature : String} {e : SigningEvent}
    (he : e ∈ reads) :
    e.inLeft ∈ racedTrace (signingWalk parsed now reads resolved td signature) := by
  refine List.mem_append_left _ (List.mem_flatMap.mpr ⟨e, ?_, .tail _ (.head _)⟩)
  exact .tail _ (List.mem_append_left _ he)

theorem EntitledSubmission.at_view {policies : GuardianPolicies} {signer : LoadedGuardianSigner}
    {setup : GuardianSetup} {announced : Announced} {submission : Submission}
    {signing : History (hosted env)}
    (h : EntitledSubmission policies signer setup announced submission signing)
    (views : ℕ → ChainViews) (hviews : ∀ e, Event.inLeft (Event.inLeft e) ∈ signing →
      AnswersViews views e)
    (hborn : ∀ contract, BornFirst (views submission.chainId) policies.requestBinding
      submission.chainId contract) :
    ∃ now, announced.parsed.Entitled (views submission.chainId) policies signer.guardianSigner
      ⟨submission.chainId, now, true⟩ := by
  cases h with
  | @intro now _ _ _ _ _ _ entitled =>
    refine ⟨now, entitled views (fun e he => hviews e ?_) hborn⟩
    exact List.mem_map_of_mem (mem_signingWalk he)

/-- In every run of the coordinator a submission is of an entitled body. -/
theorem submission_entitled {c : Crypto} (policies : GuardianPolicies)
    (signer : LoadedGuardianSigner) (setup : GuardianSetup)
    (hbuilds : policies.Builds signer.guardianSigner setup)
    (options : GuardianCoordinatorOptions (hosted env))
    (hguardian : options.guardian = buildGuardianFromEnv c signer setup) (fuel n : ℕ)
    (hist : History (hosted env)) (id : String) (submission : Submission)
    (next : Except Caught Json → Coordinating (hosted env) SignTimeouts)
    (h : Runs (runGuardianCoordinator options fuel n .empty) hist
      (.perform (.inr (.putSubmission id submission)) next)) :
    ∃ before announcing signing request parsed announced,
      hist = before ++ (announcing ++ signing) ∧ request.id = id ∧
      Open options before request ∧ Admitted options request parsed ∧
      Announces options.guardian request parsed announcing announced ∧
      EntitledSubmission policies signer setup announced submission signing := by
  have hasks := runGuardianCoordinator_asks h rfl
  cases hasks with
  | intro isOpen asks =>
    cases asks with
    | submitting admitted announces signs =>
      rename_i before request parsed announced announcing signing success
      have hdecimal := announced_decimal (parseSigningBody_decimal admitted.parses) announces
      refine ⟨before, announcing, signing, request, parsed, announced, rfl, rfl, isOpen, admitted,
        announces, ?_⟩
      cases signs with
      | intro returned valid payloadHash guardianSigner =>
        rw [hguardian] at returned
        have hcall := runSigningOf_walk returned valid
        revert hcall
        generalize success.signature = signature
        intro hcall
        cases hcall with
        | intro served checked built lowered =>
          rw [lowered]
          exact .intro served built fun views hviews hborn =>
            checks_entitled hbuilds hdecimal rfl checked hviews hborn

namespace Sample

def guardianPolicies : GuardianPolicies where
  requestBinding := { trustingPolicy with trustedRequestContracts := fun _ => some [hex 40] }
  fundBinding := bindingPolicy
  swap := swapPolicy
  maxNonceAboveFloor := 10
  acceptedWhitelistBooks := none

def guardianSetup : GuardianSetup where
  clients := [1]
  signMs := 6000
  intentRequestBindingChecks ctx body := Settled.ofResult <$> runA1 ctx body.a1 guardianPolicies.a1
  intentFundBindingChecks := buildIntentFundBindingChecks bindingPolicy
  intentSwapChecks := runA3 swapPolicy
  requestWhitelistingChecks := runA4 50 (guardianPolicies.a4 kmsAddress)
  whitelistNonceCandidates := none

theorem guardianSetup_builds : guardianPolicies.Builds kmsSigner.guardianSigner guardianSetup :=
  ⟨rfl, rfl, rfl, rfl⟩

/-- A request of an accepted factory, with its puller and its consumer. -/
def classicChain : Chain where
  head := 100
  logs := [⟨hex 40, .rolesUpdated, 90, 0, some "0xPULL", some 1, none, none⟩,
    ⟨hex 40, .rolesUpdated, 90, 1, some "0xCONS", some 2, none, none⟩,
    ⟨"0xFAC", .requestCreated, 90, 2, none, none, some (hex 40), none⟩]
  owner := fun _ => some "0xOWN"
  provenance := fun _ _ => some true
  operation := fun _ => none
  code := fun _ _ => none
  logs_le_head := by decide
  logs_positioned := by decide

def classicView : ChainViews :=
  { classicChain with
    fundReads := fun _ _ _ => none
    isPositionManager := fun _ _ => some false
    positionManagerReads := fun _ => none
    nonceReads := fun _ _ _ => none }

def classicPolicies : GuardianPolicies := { guardianPolicies with requestBinding := policy }

def classicSetup : GuardianSetup :=
  { guardianSetup with
    intentRequestBindingChecks := fun ctx body =>
      Settled.ofResult <$> runA1 ctx body.a1 classicPolicies.a1
    requestWhitelistingChecks := runA4 50 (classicPolicies.a4 kmsAddress) }

theorem classicSetup_builds : classicPolicies.Builds kmsSigner.guardianSigner classicSetup :=
  ⟨rfl, rfl, rfl, rfl⟩

theorem classicView_born (contract : Address) : BornFirst classicView policy 1 contract := by
  intro f _ d hd _ l hl _ _ _
  have hblock : ∀ l ∈ classicChain.logs, l.blockNumber = 90 := by decide
  rw [hblock d hd, hblock l hl]

def classicAnswers : ∀ op : (coord (hosted env)).Op, (coord (hosted env)).Answer op
  | .inl (.inl .dateNow) => (1000000 : ℤ)
  | .inl (.inl (.eip712Domain ..)) => .ok ⟨"Facility", "1"⟩
  | .inl (.inl (.signTypedData _)) => .ok (hex 130)
  | .inl (.inl op) => serve (fun _ => classicChain) op
  | .inl (.inr ()) => false
  | .inr (.getSigningRequests ..) => .ok (pageWith (hex 40))
  | .inr (.putNonce ..) => .error .zodError
  | .inr (.putSubmission ..) => .ok .null
  | .inr (.log _) => ()

theorem classicAnswers_views (op : Op) :
    AnswersViews (fun _ => classicView) ⟨op, classicAnswers (.inl (.inl op))⟩ := by
  cases op with
  | fundReads => exact fun reads h => by cases h
  | positionManagerReads => exact fun reads h => by cases h
  | nonceReads => exact fun reads h => by cases h
  | isPositionManager chain calls =>
    intro slots h s hs
    cases Except.ok.inj h
    have hslot : s.2 ∈ List.replicate calls.length (Slot.success false) := (List.of_mem_zip hs).2
    rw [List.eq_of_mem_replicate hslot]
    rfl
  | ownerAndProvenance chain rc checks =>
    exact serve_answers (fun _ => classicChain) (.ownerAndProvenance chain rc checks)
  | operation chain retargetter =>
    exact serve_answers (fun _ => classicChain) (.operation chain retargetter)
  | getBlockNumber chain => exact serve_answers (fun _ => classicChain) (.getBlockNumber chain)
  | getCode chain address block =>
    exact serve_answers (fun _ => classicChain) (.getCode chain address block)
  | getLogs chain addresses fromBlock toBlock =>
    exact serve_answers (fun _ => classicChain) (.getLogs chain addresses fromBlock toBlock)
  | _ => trivial

def classicOptions : GuardianCoordinatorOptions (hosted env) :=
  ⟨buildGuardianFromEnv crypto kmsSigner classicSetup, 100, some [1], none⟩

def classicTrace : History (hosted env) :=
  (runGuardianCoordinator classicOptions 1 1 .empty).trace classicAnswers

def submits : (coord (hosted env)).Op → Option (String × Submission)
  | .inr (.putSubmission id submission) => some (id, submission)
  | _ => none

def readsLogs : (coord (hosted env)).Op → Bool
  | .inl (.inl (.getLogs ..)) => true
  | _ => false

def beforeSubmission : History (hosted env) :=
  classicTrace.takeWhile fun e => (submits e.op).isNone

theorem classicRun_facts :
    (classicTrace.dropWhile fun e => (submits e.op).isNone).head?.map (fun e => submits e.op) =
      some (some ("r1", ⟨1, hex 130, none⟩)) ∧
    beforeSubmission.any (fun e => readsLogs e.op) = true := by
  decide +kernel

theorem classicTrace_eq : ∃ answer after, classicTrace =
    beforeSubmission ++ ⟨.inr (.putSubmission "r1" ⟨1, hex 130, none⟩), answer⟩ :: after := by
  have hhead := classicRun_facts.1
  obtain ⟨⟨op, answer⟩, he, hop⟩ := Option.map_eq_some_iff.mp hhead
  obtain ⟨after, hafter⟩ := List.head?_eq_some_iff.mp he
  dsimp only at hop
  unfold submits at hop
  split at hop
  · cases hop
    refine ⟨answer, after, ?_⟩
    rw [← hafter]
    exact (List.takeWhile_append_dropWhile ..).symm
  · cases hop

theorem beforeSubmission_answered : ∀ e ∈ beforeSubmission, e.answer = classicAnswers e.op :=
  fun e he => trace_answered _ _ e ((List.takeWhile_sublist _).subset he)

end Sample

/-- The logs are read and the body is submitted for; the reads are those of one view of the
chain, so the body was entitled by that view. -/
theorem submission_entitled_classic : ∃ (announced : Announced) (signing : History (hosted env))
    (now : ℤ), (∃ e ∈ Sample.beforeSubmission, Sample.readsLogs e.op = true) ∧
      EntitledSubmission Sample.classicPolicies Sample.kmsSigner Sample.classicSetup announced
        ⟨1, Sample.hex 130, none⟩ signing ∧
      announced.parsed.Entitled Sample.classicView Sample.classicPolicies
        Sample.kmsSigner.guardianSigner ⟨1, now, true⟩ := by
  obtain ⟨answer, after, htrace⟩ := Sample.classicTrace_eq
  have hrun := executes_trace Sample.classicAnswers
    (runGuardianCoordinator Sample.classicOptions 1 1 .empty)
  rw [show Program.trace _ _ = _ from htrace] at hrun
  obtain ⟨next, hrun, _⟩ := hrun.split
  obtain ⟨before, announcing, signing, request, parsed, announced, hhist, -, -, -, -, hentitled⟩ :=
    submission_entitled Sample.classicPolicies Sample.kmsSigner Sample.classicSetup
      Sample.classicSetup_builds Sample.classicOptions rfl 1 1 Sample.beforeSubmission "r1" _ next
      hrun
  obtain ⟨now, hview⟩ := hentitled.at_view (fun _ => Sample.classicView)
    (fun e he => by
      have hanswer : e.answer = Sample.classicAnswers (.inl (.inl e.op)) :=
        Sample.beforeSubmission_answered _ (by
          rw [hhist]
          exact List.mem_append_right _ (List.mem_append_right _ he))
      have hviews := Sample.classicAnswers_views e.op
      rw [← hanswer] at hviews
      exact hviews) Sample.classicView_born
  exact ⟨announced, signing, now, List.any_eq_true.mp Sample.classicRun_facts.2, hentitled, hview⟩

end Guardian
