import Guardian.Defaults.IntentRequestBinding

/-!
# The A.4 runner

Batch cap and whitelist-book gate come before any read; then, for a whitelist
operation, the A.1 runner is applied to each contract and its entries, less the
deadline, are kept under a suffix. The deadline and the nonce window are checked
once for the whole request.
-/

namespace Guardian
open Effect Text

/-- The A.1 policy and the three fields of A.4; without `acceptedWhitelistBooks` any
book is read. -/
structure RequestWhitelistingPolicy extends IntentRequestBindingPolicy where
  maxNonceAboveFloor : ℤ
  acceptedWhitelistBooks : Option AddressSets
  maxRequestContracts : Option ℤ

def DEFAULT_MAX_REQUEST_CONTRACTS : ℤ := 50

structure RequestWhitelistingDeps where
  policy : RequestWhitelistingPolicy
  guardianSigner : Address
  cache : Bool
  cacheTtlMs : Option ℤ

def RequestWhitelistingDeps.a1 (deps : RequestWhitelistingDeps) : A1Deps :=
  ⟨deps.policy.toIntentRequestBindingPolicy, deps.cache, deps.cacheTtlMs⟩

def rollupA4 (checks : List CheckEntry) : CheckResult := rollUp checks "Appendix A.4 checks failed"

def skippedNonceChecks : List CheckEntry := NONCE_CHECK_DESCRIPTIONS.map skipped

def batchDescription : String := "requestContracts batch size is within MAX_REQUEST_CONTRACTS"
def bookDescription : String := "whitelist book is on the accepted-books list"
def nonceStateDescription : String := "whitelist book exposes per-validator nonce state"

def isA1DeadlineEntry (entry : CheckEntry) : Bool :=
  entry.description == DEADLINE_CHECK_DESCRIPTION

def suffixed (entry : CheckEntry) (contract : Address) : CheckEntry :=
  let description := s!"{entry.description} (for {contract})"
  if entry.skipped then skipped description
  else if entry.passed then passed description
  else failed description (entry.reason.getD "check failed")

def suffixedA1 (entries : List CheckEntry) (contract : Address) : List CheckEntry :=
  (entries.filter fun e => !isA1DeadlineEntry e).map fun e => suffixed e contract

def nestedEntries (contract : Address) : CheckResult → Settled (List CheckEntry)
  | .ok entries => .ok (suffixedA1 entries contract)
  | .error (.upstreamUnavailable message status) =>
    .error (.err (.upstreamUnavailable message status))
  | .error (.validationFailed _ entries) => .ok (suffixedA1 entries contract)
  | .error (.stateConflict _ entries) => .ok (suffixedA1 entries contract)
  | .error _ => .error (.thrown ⟨"r.error.checks is not iterable"⟩)

def runA1Batch (ctx : SigningContext) (chainId deadline : ℕ) (deps : A1Deps) :
    List CheckEntry → List Address → Signing (Settled (List CheckEntry))
  | checks, [] => return .ok checks
  | checks, requestContract :: contracts => do
    let r ← runA1 ctx ⟨chainId, requestContract, deadline⟩ deps
    match nestedEntries requestContract r with
    | .error failure => return .error failure
    | .ok entries => runA1Batch ctx chainId deadline deps (checks ++ entries) contracts

def checkNonce (deps : RequestWhitelistingDeps) (ctx : SigningContext)
    (body : RequestWhitelistingBody) (checks : List CheckEntry) :
    Signing (Settled (List CheckEntry)) :=
  match toBigInt body.nonce with
  | .error e => return .error (.thrown e)
  | .ok nonce => do
    let answer : Except RpcError (ℕ × Bool) ← ask
      (.nonceReads ctx.chainId body.whitelistBook deps.guardianSigner nonce)
    match answer with
    | .ok (floor, consumed) =>
      return .ofResult (rollupA4
        (checks ++ checkNonceWindow nonce consumed floor deps.policy.maxNonceAboveFloor))
    | .error e =>
      if isDeterministicContractCallFailure e ["validatorNonceFloor", "isNonceConsumed"] then
        return .ofResult (rollupA4 (checks ++
          failed nonceStateDescription
            (s!"whitelist book {body.whitelistBook} did not answer " ++
              "validatorNonceFloor/isNonceConsumed (EOA or non-book contract)") ::
          skippedNonceChecks))
      else return .error (.err (upstream "whitelist-book read failed upstream"))

def bookChecks (policy : RequestWhitelistingPolicy) (body : RequestWhitelistingBody) :
    List CheckEntry :=
  match policy.acceptedWhitelistBooks with
  | none => []
  | some books => [checkMembership bookDescription body.whitelistBook (books.on body.chainId)]

def batchEntries (deps : RequestWhitelistingDeps) (ctx : SigningContext)
    (body : RequestWhitelistingBody) (checks : List CheckEntry) :
    Signing (Settled (List CheckEntry)) :=
  match body.operation with
  | .whitelist => runA1Batch ctx body.chainId body.deadline deps.a1 checks body.requestContracts
  | .unwhitelist => return .ok checks

def runA4 (maxRequestContracts : ℤ) (deps : RequestWhitelistingDeps) (ctx : SigningContext)
    (body : RequestWhitelistingBody) : Signing (Settled (List CheckEntry)) :=
  let deadlineCheck :=
    checkDeadline ctx.nowUnixSeconds body.deadline deps.policy.maxDeadlineSecondsAhead
  let gate := bookChecks deps.policy body
  if (body.requestContracts.length : ℤ) > maxRequestContracts then
    return .ofResult (rollupA4 [failed batchDescription
      (s!"batch of {body.requestContracts.length} contracts exceeds the maximum of " ++
        s!"{maxRequestContracts}")])
  else if gate.any fun c => !c.passed then
    return .ofResult (rollupA4 (gate ++ deadlineCheck :: skippedNonceChecks))
  else do
    match ← batchEntries deps ctx body gate with
    | .error failure => return .error failure
    | .ok checks => checkNonce deps ctx body (checks ++ [deadlineCheck])

def buildRequestWhitelistingChecks (deps : RequestWhitelistingDeps) :
    Except Thrown (CheckRunner RequestWhitelistingBody) :=
  let maxRequestContracts := deps.policy.maxRequestContracts.getD DEFAULT_MAX_REQUEST_CONTRACTS
  if maxRequestContracts < 1 then
    .error ⟨"buildRequestWhitelistingChecks: maxRequestContracts must be a positive integer, " ++
      s!"got {maxRequestContracts}"⟩
  else do
    assertRetargetterPolicy "buildRequestWhitelistingChecks"
      deps.policy.toIntentRequestBindingPolicy
    return runA4 maxRequestContracts deps

theorem buildRequestWhitelistingChecks_ok {deps : RequestWhitelistingDeps}
    {runner : CheckRunner RequestWhitelistingBody}
    (h : buildRequestWhitelistingChecks deps = .ok runner) :
    1 ≤ deps.policy.maxRequestContracts.getD DEFAULT_MAX_REQUEST_CONTRACTS ∧
      runner = runA4 (deps.policy.maxRequestContracts.getD DEFAULT_MAX_REQUEST_CONTRACTS) deps := by
  unfold buildRequestWhitelistingChecks at h
  dsimp only at h
  split at h
  · cases h
  · cases hpolicy : assertRetargetterPolicy "buildRequestWhitelistingChecks"
        deps.policy.toIntentRequestBindingPolicy with
    | error e =>
      rw [hpolicy] at h
      cases h
    | ok u =>
      rw [hpolicy] at h
      cases h
      exact ⟨by omega, rfl⟩

end Guardian
