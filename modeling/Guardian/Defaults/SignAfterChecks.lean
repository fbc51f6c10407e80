import Guardian.Core.SignRunners
import Guardian.Defaults.Reported

/-!
# No signature without passed checks

A sign runner comes to the signer once, behind a check runner that returned its
entries and a domain that was resolved, and with the payload built for that
domain. Stated of runs, so nothing is assumed of the chain, the caches or the
signer, and a run may stop anywhere.
-/

namespace Guardian
open Effect Program

def CarriesNoChecks : Failure → Prop
  | .err (.validationFailed ..) => False
  | .err (.stateConflict ..) => False
  | _ => True

/-- What signs and what it was behind; `conflict` is whether a state conflict may be reported. -/
structure SignsAfterChecks {α : Type} (deps : SignDeps) (conflict : Prop)
    (checks : Signing (Settled (List CheckEntry)))
    (domain : Signing (Except SigningError Eip712DomainNameVersion))
    (build : Eip712DomainNameVersion → Except Thrown TypedData) (success : α → SigningSuccess)
    (call : Signing (Settled α)) : Prop where
  issued : ∀ pre td next, Runs call pre (.perform (.signTypedData td) next) →
    (∀ e ∈ pre, AsksNoSignature e.op) ∧
      ∃ tr₁ tr₂ entries nameVersion, pre = tr₁ ++ tr₂ ∧ Executes checks tr₁ (.ok entries) ∧
        Executes domain tr₂ (.ok nameVersion) ∧ build nameVersion = .ok td
  answered : ∀ tr a, Executes call tr (.ok a) →
    (∃ pre td, tr = pre ++ [⟨.signTypedData td, .ok (success a).signature⟩] ∧
      deps.hashTypedData td = .ok (success a).payloadHash) ∧
    (success a).guardian = deps.guardianSigner ∧
    ∀ c ∈ (success a).checks, c.WellFormed ∧ c.passed = true
  failed : ∀ tr f, Executes call tr (.error f) →
    CarriesNoChecks f ∨ Reported conflict (.error f)
  reported : ∀ tr r, Executes checks tr r → Reported conflict r

section Checking
variable {α : Type} {p : Signing α} {post : Unit → α → Prop}

theorem checking_follows (tr : List SigningEvent) : checking.Follows () tr :=
  Protocol.follows_of_forall (fun _ _ _ => trivial) (fun _ _ => trivial)

theorem not_runs_signTypedData (h : p.Obeys checking post ()) {tr : List SigningEvent}
    {td : TypedData} {next : Op.Answer (.signTypedData td) → Signing α} :
    ¬ Runs p tr (.perform (.signTypedData td) next) :=
  fun hr => (h.runs hr (checking_follows tr)).1

theorem asksNoSignature_of_runs (h : p.Obeys checking post ()) {q : Signing α}
    {tr : List SigningEvent} (hr : Runs p tr q) : ∀ e ∈ tr, AsksNoSignature e.op :=
  h.permits_mem hr (checking_follows tr)

end Checking

theorem resolveDomain_checking (ctx : SigningContext) (verifyingContract : Address)
    (cacheDeps : Eip712DomainCacheDeps) :
    (resolveDomain ctx verifyingContract cacheDeps).Obeys checking
      (fun _ r => ∀ e, r = .error e → CarriesNoChecks (.err e)) () := by
  have hread : (readDomainCache (eip712DomainCacheKey ctx.chainId verifyingContract)
      cacheDeps.cache).Obeys checking (fun _ _ => True) () := by
    unfold readDomainCache
    split
    · refine .call_bind trivial fun hit _ => ?_
      cases hit <;> exact .pure trivial
    · exact .pure trivial
  refine .bind hread fun _ hit _ => ?_
  cases hit with
  | some hit => exact .pure fun e he => by cases he
  | none =>
    refine .call_bind trivial fun answer _ => ?_
    match answer with
    | .ok result =>
      have hwrite : (writeDomainCache (eip712DomainCacheKey ctx.chainId verifyingContract)
          cacheDeps result).Obeys checking (fun _ _ => True) () := by
        unfold writeDomainCache
        split
        · exact .call_bind trivial fun _ _ => .pure trivial
        · exact .pure trivial
      exact .bind hwrite fun _ _ _ => .pure fun e he => by cases he
    | .error e =>
      dsimp only
      split
      · refine .pure fun e he => ?_
        cases he
        trivial
      · refine .pure fun e he => ?_
        cases he
        trivial

section SignPayload
variable {deps : SignDeps} {ctx : SigningContext} {entries : List CheckEntry}
  {built : Except Thrown TypedData} {tr : List SigningEvent}

theorem signPayload_issued {td : TypedData}
    {next : Op.Answer (.signTypedData td) → Signing (Settled SigningSuccess)}
    (h : Runs (signPayload deps ctx entries built) tr (.perform (.signTypedData td) next)) :
    tr = [] ∧ built = .ok td := by
  unfold signPayload at h
  split at h
  · cases (runs_done.mp h).2
  · split at h
    · cases (runs_done.mp h).2
    · cases h with
      | refl => exact ⟨rfl, rfl⟩
      | step answer h => cases answer <;> cases (runs_done.mp h).2

theorem signPayload_settled {r : Settled SigningSuccess}
    (h : Executes (signPayload deps ctx entries built) tr r) :
    (∃ f, r = .error f ∧ CarriesNoChecks f) ∨
      ∃ td success, built = .ok td ∧ r = .ok success ∧
        tr = [⟨.signTypedData td, .ok success.signature⟩] ∧
        deps.hashTypedData td = .ok success.payloadHash ∧
        success.guardian = deps.guardianSigner ∧ success.checks = entries := by
  unfold signPayload at h
  split at h
  · cases (runs_done.mp h).2
    exact .inl ⟨_, rfl, trivial⟩
  · rename_i td
    split at h
    · cases (runs_done.mp h).2
      exact .inl ⟨_, rfl, trivial⟩
    · rename_i payloadHash hhash
      obtain ⟨answer, tr', rfl, hanswer⟩ := executes_perform.mp h
      cases answer with
      | error e =>
        cases (runs_done.mp hanswer).2
        exact .inl ⟨_, rfl, by cases e <;> trivial⟩
      | ok signature =>
        obtain ⟨rfl, hr⟩ := runs_done.mp hanswer
        cases hr
        exact .inr ⟨td, _, rfl, rfl, rfl, hhash, rfl, rfl⟩

end SignPayload

theorem runSigner_signsAfterChecks {α : Type} (deps : SignDeps) (ctx : SigningContext)
    {conflict : Prop} {checks : Signing (Settled (List CheckEntry))} (chainId : ℕ)
    (verifyingContract : Address) (build : Eip712Domain → Except Thrown TypedData)
    {respond : SigningSuccess → α} {success : α → SigningSuccess}
    (hrespond : ∀ s, success (respond s) = s) (hchecks : Checks conflict checks) :
    SignsAfterChecks deps conflict checks
      (resolveDomain ctx verifyingContract deps.domainCache)
      (fun d => build ⟨d.name, d.version, chainId, verifyingContract⟩) success
      (runSigner deps ctx checks chainId verifyingContract build respond) := by
  have hreported : ∀ tr r, Executes checks tr r → Reported conflict r := fun tr r h =>
    hchecks.executes h (checking_follows tr)
  have hdomain := resolveDomain_checking ctx verifyingContract deps.domainCache
  refine ⟨?_, ?_, ?_, hreported⟩
  · intro pre td next h
    rcases runs_bind_perform h with ⟨_, h⟩ | ⟨tr₁, tr₂, r, rfl, h₁, h⟩
    · exact (not_runs_signTypedData hchecks h).elim
    match r, h₁, h with
    | .error failure, _, h => cases (runs_done.mp h).2
    | .ok entries, h₁, h =>
      rcases runs_bind_perform h with ⟨_, h⟩ | ⟨tr₂, tr₃, r, rfl, h₂, h⟩
      · exact (not_runs_signTypedData hdomain h).elim
      match r, h₂, h with
      | .error e, _, h => cases (runs_done.mp h).2
      | .ok nameVersion, h₂, h =>
        rcases runs_bind_perform h with ⟨_, h⟩ | ⟨_, _, settled, _, _, h⟩
        · obtain ⟨rfl, hbuilt⟩ := signPayload_issued h
          rw [List.append_nil]
          exact ⟨fun e he => (List.mem_append.mp he).elim (asksNoSignature_of_runs hchecks h₁ e)
            (asksNoSignature_of_runs hdomain h₂ e), tr₁, tr₂, entries, nameVersion, rfl, h₁, h₂,
            hbuilt⟩
        · cases (runs_done.mp h).2
  · intro tr a h
    obtain ⟨tr₁, tr₂, r, rfl, h₁, h⟩ := executes_bind.mp h
    match r, h₁, h with
    | .error failure, _, h => cases (runs_done.mp h).2
    | .ok entries, h₁, h =>
      obtain ⟨tr₂, tr₃, r, rfl, h₂, h⟩ := executes_bind.mp h
      match r, h₂, h with
      | .error e, _, h => cases (runs_done.mp h).2
      | .ok nameVersion, h₂, h =>
        obtain ⟨tr₃, tr₄, settled, rfl, h₃, h⟩ := executes_bind.mp h
        obtain ⟨rfl, hsettled⟩ := runs_done.mp h
        rcases signPayload_settled h₃ with ⟨f, rfl, _⟩ | ⟨td, s, _, rfl, rfl, hhash, hg, hcs⟩
        · cases hsettled
        · cases hsettled
          rw [hrespond]
          refine ⟨⟨tr₁ ++ tr₂, td, by simp, hhash⟩, hg, ?_⟩
          rw [hcs]
          cases hreported _ _ h₁ with
          | ok hwell hpassed => exact fun c hc => ⟨hwell c hc, hpassed c hc⟩
  · intro tr f h
    obtain ⟨tr₁, tr₂, r, rfl, h₁, h⟩ := executes_bind.mp h
    match r, h₁, h with
    | .error failure, h₁, h =>
      cases (runs_done.mp h).2
      exact .inr (hreported _ _ h₁)
    | .ok entries, h₁, h =>
      obtain ⟨tr₂, tr₃, r, rfl, h₂, h⟩ := executes_bind.mp h
      match r, h₂, h with
      | .error e, h₂, h =>
        cases (runs_done.mp h).2
        exact .inl (hdomain.executes h₂ (checking_follows _) e rfl)
      | .ok nameVersion, h₂, h =>
        obtain ⟨tr₃, tr₄, settled, rfl, h₃, h⟩ := executes_bind.mp h
        obtain ⟨rfl, hsettled⟩ := runs_done.mp h
        rcases signPayload_settled h₃ with ⟨f, rfl, hf⟩ | ⟨td, s, _, rfl, _⟩
        · cases hsettled
          exact .inl hf
        · cases hsettled

/-- The four endpoints over their default check runners. -/
theorem sign_only_after_checks (deps : SignDeps) (ctx : SigningContext) :
    (∀ a1 runner body, buildIntentRequestBindingChecks a1 = .ok runner →
      SignsAfterChecks deps False (runner ctx body)
        (resolveDomain ctx body.facility deps.domainCache)
        (fun d => buildIntentRequestBindingTypedData ⟨d.name, d.version, body.chainId,
          body.facility⟩ body) id (makeSignIntentRequestBinding deps runner ctx body)) ∧
    (∀ policy body,
      SignsAfterChecks deps True (buildIntentFundBindingChecks policy ctx body)
        (resolveDomain ctx body.facility deps.domainCache)
        (fun d => buildIntentFundBindingTypedData ⟨d.name, d.version, body.chainId,
          body.facility⟩ body) id
        (makeSignIntentFundBinding deps (buildIntentFundBindingChecks policy) ctx body)) ∧
    (∀ policy runner body, buildIntentSwapChecks policy = .ok runner →
      SignsAfterChecks deps False (runner ctx body)
        (resolveDomain ctx body.facility deps.domainCache)
        (fun d => buildIntentSwapTypedData ⟨d.name, d.version, body.chainId,
          body.facility⟩ body) id (makeSignIntentSwap deps runner ctx body)) ∧
    (∀ a4 runner body, buildRequestWhitelistingChecks a4 = .ok runner →
      SignsAfterChecks deps False (runner ctx body)
        (resolveDomain ctx body.whitelistBook deps.domainCache)
        (fun d => buildRequestWhitelistingTypedData ⟨d.name, d.version, body.chainId,
          body.whitelistBook⟩ body deps.guardianSigner)
        RequestWhitelistingResponse.toSigningSuccess
        (makeSignRequestWhitelisting deps runner ctx body)) := by
  refine ⟨fun a1 runner body h => ?_, fun policy body => ?_, fun policy runner body h => ?_,
    fun a4 runner body h => ?_⟩
  · exact runSigner_signsAfterChecks deps ctx body.chainId body.facility
      (fun domain => buildIntentRequestBindingTypedData domain body) (fun _ => rfl)
      (intentRequestBindingChecks_checks h ctx body)
  · exact runSigner_signsAfterChecks deps ctx body.chainId body.facility
      (fun domain => buildIntentFundBindingTypedData domain body) (fun _ => rfl)
      (intentFundBindingChecks_checks policy ctx body)
  · exact runSigner_signsAfterChecks deps ctx body.chainId body.facility
      (fun domain => buildIntentSwapTypedData domain body) (fun _ => rfl)
      (intentSwapChecks_checks h ctx body)
  · exact runSigner_signsAfterChecks deps ctx body.chainId body.whitelistBook
      (fun domain => buildRequestWhitelistingTypedData domain body deps.guardianSigner)
      (fun _ => rfl) (requestWhitelistingChecks_checks h ctx body)

namespace Sample

def emptySets : AddressSets := fun _ => none

def trustingPolicy : IntentRequestBindingPolicy where
  maxDeadlineSecondsAhead := 100
  trustedRequestContracts := fun _ => some ["0xReq"]
  acceptedRetargetters := emptySets
  minRetargetterRepaymentBufferSeconds := none
  acceptedRequestFactories := emptySets
  acceptedFlashLoanRequestFactories := emptySets
  acceptedFlashLoanRequestExecutors := emptySets
  acceptedOwners := emptySets
  acceptedPullers := emptySets
  acceptedConsumers := emptySets
  eventScanBlockRange := 10
  eventScanMaxLookbackBlocks := 100
  eventScanDeadlineMs := none
  onLookbackExhausted := none

def trustingDeps : A1Deps := ⟨trustingPolicy, false, none⟩

def signDeps : SignDeps :=
  ⟨fun td => .ok ("hash of " ++ td.primaryType), "0xguardian", ⟨false, none⟩⟩

def signCtx : SigningContext := ⟨1, 1000000, false⟩

def requestBinding : IntentRequestBindingBody := ⟨1, "0xfacility", ⟨"7"⟩, "0xreq", 1050⟩

end Sample

theorem sign_only_after_checks_trusted :
    ∃ runner tr success, buildIntentRequestBindingChecks Sample.trustingDeps = .ok runner ∧
      Executes (makeSignIntentRequestBinding Sample.signDeps runner Sample.signCtx
        Sample.requestBinding) tr (.ok success) ∧ success.payloadHash = "hash of SetRequestParams" ∧
      ∀ c ∈ success.checks, c.WellFormed ∧ c.passed = true := by
  have hrun : Executes (makeSignIntentRequestBinding Sample.signDeps
      (fun ctx body => Settled.ofResult <$> runA1 ctx body.a1 Sample.trustingDeps) Sample.signCtx
      Sample.requestBinding)
      [⟨.eip712Domain 1 "0xfacility", .ok ⟨"Facility", "1"⟩⟩, ⟨.signTypedData _, .ok "0xsignature"⟩]
      (.ok ⟨"0xguardian", "0xsignature", "hash of SetRequestParams", nowIso 1000000,
        trustedRequestContractChecks (checkDeadline 1000 1050 100)⟩) := .step _ (.step _ (.refl _))
  have hsigns := (sign_only_after_checks Sample.signDeps Sample.signCtx).1 Sample.trustingDeps _
    Sample.requestBinding rfl
  exact ⟨_, _, _, rfl, hrun, rfl, (hsigns.answered _ _ hrun).2.2⟩

end Guardian
