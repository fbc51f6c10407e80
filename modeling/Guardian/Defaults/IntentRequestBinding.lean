import Guardian.Defaults.RoleEvents

/-!
# The A.1 runner

The policy, the on-chain reads, the two pure evaluations and `runA1` with its
cache flow. The runner reads the contract's owner and the provenance answers in
one multicall, and then takes the retargetter path or scans the role events.
-/

namespace Guardian
open Effect Text

def ROLE_PULLER : ℕ := 1 <<< 0
def ROLE_CONSUMER : ℕ := 1 <<< 1

inductive LookbackExhausted where
  | skip
  | fail
  deriving DecidableEq, Repr

structure IntentRequestBindingPolicy where
  maxDeadlineSecondsAhead : ℤ
  trustedRequestContracts : AddressSets
  acceptedRetargetters : AddressSets
  minRetargetterRepaymentBufferSeconds : Option ℤ
  acceptedRequestFactories : AddressSets
  acceptedFlashLoanRequestFactories : AddressSets
  acceptedFlashLoanRequestExecutors : AddressSets
  acceptedOwners : AddressSets
  acceptedPullers : AddressSets
  acceptedConsumers : AddressSets
  eventScanBlockRange : ℤ
  eventScanMaxLookbackBlocks : ℤ
  eventScanDeadlineMs : Option ℤ
  onLookbackExhausted : Option LookbackExhausted

def DEFAULT_MIN_RETARGETTER_REPAYMENT_BUFFER_SECONDS : ℤ := 80 * 24 * 60 * 60

def isOnChainSet (sets : AddressSets) (chainId : ℕ) (address : Address) : Bool :=
  match sets chainId with
  | none => false
  | some set => set.any fun candidate => toLowerCase candidate == toLowerCase address

def isTrustedRequestContract (requestContract : Address) (chainId : ℕ)
    (policy : IntentRequestBindingPolicy) : Bool :=
  isOnChainSet policy.trustedRequestContracts chainId requestContract

def isAcceptedRetargetter (owner : Address) (chainId : ℕ)
    (policy : IntentRequestBindingPolicy) : Bool :=
  isOnChainSet policy.acceptedRetargetters chainId owner

theorem isOnChainSet_iff {sets : AddressSets} {chainId : ℕ} {a : Address} :
    isOnChainSet sets chainId a = true ↔ ∃ c ∈ sets.on chainId, toLowerCase c = toLowerCase a := by
  unfold isOnChainSet AddressSets.on
  cases sets chainId <;> simp

def assertRetargetterPolicy (builder : String) (policy : IntentRequestBindingPolicy) :
    Except Thrown Unit :=
  match policy.minRetargetterRepaymentBufferSeconds with
  | some buffer =>
    if buffer < 0 then
      .error ⟨builder ++
        ": minRetargetterRepaymentBufferSeconds must be a non-negative integer, " ++
        s!"got {buffer}"⟩
    else .ok ()
  | none => .ok ()

def factoryDescription : String := "request contract was deployed by an accepted factory"
def ownerDescription : String := "owner of request contract is on the accepted-owners list"
def pullerDescription : String :=
  "puller role on request contract is held only by accepted parties"
def consumerDescription : String :=
  "consumer role on request contract is held only by accepted parties"
def executorDescription : String :=
  "executor role on flash-loan request is held only by accepted parties"
def attachedDescription : String :=
  "request contract is the retargetter's attached operation request"
def bufferDescription : String :=
  "retargetter repayment deadline is at least MIN_RETARGETTER_REPAYMENT_BUFFER ahead of now"

structure RetargetterOnChainData where
  retargetter : Address
  attachedRequest : Address
  repaymentDeadline : ℕ

inductive FetchedA1 where
  | onChain (data : A1OnChainData)
  | retargetter (data : RetargetterOnChainData)

def factoryChecks (policy : IntentRequestBindingPolicy) (chainId : ℕ) : List FactoryCheck :=
  (policy.acceptedRequestFactories.on chainId).map (fun f => ⟨f, "isRequest"⟩) ++
    (policy.acceptedFlashLoanRequestFactories.on chainId).map (fun f => ⟨f, "isFlashLoanRequest"⟩)

/-- The factories that answered `true`, by lower-cased address, and those that failed. -/
def classifySlot (acc : OrderedMap Address Address × List Address) (check : FactoryCheck) :
    Slot Bool → OrderedMap Address Address × List Address
  | .failure _ => (acc.1, acc.2 ++ [check.factory])
  | .success true => (acc.1.set (toLowerCase check.factory) check.factory, acc.2)
  | .success false => acc

def classifyFactories (slots : List (FactoryCheck × Slot Bool)) :
    OrderedMap Address Address × List Address :=
  slots.foldl (fun acc s => classifySlot acc s.1 s.2) (.empty, [])

def fetchRetargetterOperation (ctx : SigningContext) (retargetter : Address) :
    Signing (Except SigningError FetchedA1) := do
  let answer : Except RpcError RetargetterOperation ← ask (.operation ctx.chainId retargetter)
  match answer with
  | .ok operation =>
    return .ok (.retargetter ⟨retargetter, operation.request, operation.repaymentDeadline⟩)
  | .error _ => return .error (upstream "retargetter operation read failed upstream")

/-- The archive read of the `fail` disposition: code before the window. -/
def predatesWindow (ctx : SigningContext) (requestContract : Address)
    (policy : IntentRequestBindingPolicy) (latestBlock : ℕ) : Signing Bool :=
  if policy.onLookbackExhausted = some .fail ∧
      (latestBlock : ℤ) > policy.eventScanMaxLookbackBlocks then do
    let beforeWindow := (latestBlock : ℤ) - policy.eventScanMaxLookbackBlocks - 1
    let answer : Except RpcError (Option String) ← ask
      (.getCode ctx.chainId requestContract beforeWindow)
    match answer with
    | .ok code => return code.isSome
    | .error _ => return false
  else return false

def scanArgs (ctx : SigningContext) (requestContract : Address)
    (policy : IntentRequestBindingPolicy) (matchedFactories : List Address) (latestBlock : ℕ) :
    ScanArgs where
  chain := ctx.chainId
  factories := matchedFactories
  requestContract := requestContract
  latestBlock := latestBlock
  blockRange := policy.eventScanBlockRange
  maxLookbackBlocks := policy.eventScanMaxLookbackBlocks
  deadlineMs := policy.eventScanDeadlineMs
  hasSignal := ctx.hasSignal

/-- Stage 2: the role-events scan against every matched factory. -/
def scanRoles (ctx : SigningContext) (requestContract : Address)
    (policy : IntentRequestBindingPolicy) (owner firstFactory : Address)
    (matchedFactories : List Address) (latestBlock : ℕ) :
    Signing (Except SigningError FetchedA1) := do
  match ← scanRoleHolders (scanArgs ctx requestContract policy matchedFactories latestBlock) with
  | .error _ => return .error (upstream "role-events scan failed upstream")
  | .ok (.tooOld partialHolders) =>
    return .ok (.onChain (.tooOld firstFactory owner (some partialHolders)))
  | .ok (.resolved holders _ deploymentFactory) =>
    return .ok (.onChain (.resolved (deploymentFactory.getD firstFactory) owner holders))

def fetchRoles (ctx : SigningContext) (requestContract : Address)
    (policy : IntentRequestBindingPolicy) (owner firstFactory : Address)
    (matchedFactories : List Address) : Signing (Except SigningError FetchedA1) := do
  let block : Except RpcError ℕ ← ask (.getBlockNumber ctx.chainId)
  match block with
  | .error _ => return .error (upstream "getBlockNumber failed upstream")
  | .ok latestBlock => do
    if ← predatesWindow ctx requestContract policy latestBlock then
      return .ok (.onChain (.tooOld firstFactory owner none))
    else scanRoles ctx requestContract policy owner firstFactory matchedFactories latestBlock

def fetchA1OnChain (ctx : SigningContext) (chainId : ℕ) (requestContract : Address)
    (policy : IntentRequestBindingPolicy) : Signing (Except SigningError FetchedA1) := do
  let checks := factoryChecks policy chainId
  let stage1 : Except RpcError (Slot Address × List.Vector (Slot Bool) checks.length) ← ask
    (.ownerAndProvenance ctx.chainId requestContract checks)
  match stage1 with
  | .error _ => return .error (upstream "request-contract read failed upstream")
  | .ok (.failure e, _) =>
    if isDeterministicContractCallFailure e ["owner"] then return .ok (.onChain .noFactory)
    else return .error (upstream "request-contract read failed upstream")
  | .ok (.success owner, slots) =>
    if isAcceptedRetargetter owner chainId policy then fetchRetargetterOperation ctx owner
    else
      let (factoryHits, failedFactories) := classifyFactories (checks.zip slots.toList)
      match factoryHits.entries.map Prod.snd with
      | [] =>
        if failedFactories ≠ [] then
          return .error (upstream "accepted-factory read failed upstream")
        else return .ok (.onChain .noFactory)
      | firstFactory :: rest =>
        fetchRoles ctx requestContract policy owner firstFactory (firstFactory :: rest)

def rogueHolders (holders accepted : List Address) : List Address :=
  holders.filter fun h => !memLower h accepted

def checkSubset (description : String) (holders accepted : List Address) : CheckEntry :=
  if holders.length = 0 then failed description "no live role-holder found in role-events scan"
  else
    let rogue := rogueHolders holders accepted
    if rogue.length > 0 then
      failed description ("rogue role-holder(s): " ++ ", ".intercalate rogue)
    else passed description

def checkPartialHolders (description : String) (holders accepted : List Address)
    (disposition : LookbackExhausted) : CheckEntry :=
  let rogue := rogueHolders holders accepted
  if rogue.length > 0 then
    failed description
      ("rogue role-holder(s) observed within the lookback window: " ++ ", ".intercalate rogue)
  else
    match disposition with
    | .fail =>
      failed description
        ("role-events scan exhausted eventScanMaxLookbackBlocks without observing deployment; " ++
          "policy onLookbackExhausted=fail rejects unverifiable role-holder sets")
    | .skip => skipped description

theorem rogueHolders_empty {holders accepted : List Address} :
    ¬ (rogueHolders holders accepted).length > 0 ↔
      ∀ h ∈ holders, memLower h accepted = true := by
  simp [rogueHolders]

theorem checkSubset_passed {d : String} {holders accepted : List Address} :
    (checkSubset d holders accepted).passed = true ↔
      holders ≠ [] ∧ ∀ h ∈ holders, memLower h accepted = true := by
  rw [checkSubset, ← rogueHolders_empty]
  by_cases h₀ : holders.length = 0
  · simp [List.length_eq_zero_iff.mp h₀]
  · have hne : holders ≠ [] := fun h => h₀ (by rw [h]; rfl)
    by_cases h₁ : (rogueHolders holders accepted).length > 0
    · simp [h₀, h₁, hne]
    · simp [h₀, h₁, hne]

theorem checkPartialHolders_passed {d : String} {holders accepted : List Address}
    {disposition : LookbackExhausted} :
    (checkPartialHolders d holders accepted disposition).passed = true ↔
      disposition = .skip ∧ ∀ h ∈ holders, memLower h accepted = true := by
  rw [← rogueHolders_empty]
  unfold checkPartialHolders
  by_cases h : (rogueHolders holders accepted).length > 0
  · simp [h]
  · cases disposition <;> simp [h]

def provenanceFailed (reason : String) (deadlineCheck : CheckEntry) : List CheckEntry :=
  [failed factoryDescription reason, skipped ownerDescription, skipped pullerDescription,
    skipped consumerDescription, deadlineCheck]

def roleCheck (data : RoleMap ⊕ RoleMap) (policy : IntentRequestBindingPolicy)
    (description : String) (roleMask : ℕ) (accepted : List Address) : CheckEntry :=
  match data with
  | .inl holders => checkSubset description (holdersOf holders roleMask) accepted
  | .inr partialHolders =>
    checkPartialHolders description (holdersOf partialHolders roleMask) accepted
      (policy.onLookbackExhausted.getD .skip)

def evaluateRoles (factory owner : Address) (data : RoleMap ⊕ RoleMap) (chainId : ℕ)
    (policy : IntentRequestBindingPolicy) (deadlineCheck : CheckEntry) : List CheckEntry :=
  let acceptedFlashLoanFactories := policy.acceptedFlashLoanRequestFactories.on chainId
  let accepted := policy.acceptedRequestFactories.on chainId ++ acceptedFlashLoanFactories
  if !memLower factory accepted then
    provenanceFailed
      s!"previously-matched factory {factory} is no longer in the accepted-factories list"
      deadlineCheck
  else
    let factoryCheck := passed factoryDescription
    let ownerCheck := checkMembership ownerDescription owner (policy.acceptedOwners.on chainId)
    if memLower factory acceptedFlashLoanFactories then
      [factoryCheck, ownerCheck,
        roleCheck data policy executorDescription ROLE_PULLER
          (policy.acceptedFlashLoanRequestExecutors.on chainId), deadlineCheck]
    else
      [factoryCheck, ownerCheck,
        roleCheck data policy pullerDescription ROLE_PULLER (policy.acceptedPullers.on chainId),
        roleCheck data policy consumerDescription ROLE_CONSUMER
          (policy.acceptedConsumers.on chainId), deadlineCheck]

def evaluateA1 (data : A1OnChainData) (chainId : ℕ) (policy : IntentRequestBindingPolicy)
    (deadlineCheck : CheckEntry) : List CheckEntry :=
  match data with
  | .noFactory =>
    provenanceFailed "no accepted factory recognises this contract as one of its deployments"
      deadlineCheck
  | .tooOld factory owner partialHolders =>
    evaluateRoles factory owner (.inr (partialHolders.getD .empty)) chainId policy deadlineCheck
  | .resolved factory owner holders =>
    evaluateRoles factory owner (.inl holders) chainId policy deadlineCheck

def evaluateRetargetter (data : RetargetterOnChainData) (requestContract : Address)
    (nowUnixSeconds : ℤ) (policy : IntentRequestBindingPolicy) (deadlineCheck : CheckEntry) :
    List CheckEntry :=
  let attachedCheck :=
    if toLowerCase data.attachedRequest = toLowerCase requestContract then
      passed attachedDescription
    else failed attachedDescription
      (if data.attachedRequest = ZERO_ADDRESS then
        s!"retargetter {data.retargetter} has no active operation"
      else
        s!"retargetter {data.retargetter} is attached to {data.attachedRequest}, not this contract")
  let buffer := policy.minRetargetterRepaymentBufferSeconds.getD
    DEFAULT_MIN_RETARGETTER_REPAYMENT_BUFFER_SECONDS
  let floor := nowUnixSeconds + buffer
  let bufferCheck :=
    if (data.repaymentDeadline : ℤ) ≥ floor then passed bufferDescription
    else failed bufferDescription
      (s!"repayment deadline {data.repaymentDeadline} is below floor {floor} " ++
        s!"(now={nowUnixSeconds}, min-buffer={buffer})")
  [passed "owner of request contract is on the accepted-retargetters list",
    skipped factoryDescription, skipped ownerDescription, skipped pullerDescription,
    skipped consumerDescription, attachedCheck, bufferCheck, deadlineCheck]

def trustedRequestContractChecks (deadlineCheck : CheckEntry) : List CheckEntry :=
  [passed "request contract is on the trusted-request-contracts list",
    skipped factoryDescription, skipped ownerDescription, skipped pullerDescription,
    skipped consumerDescription, deadlineCheck]

def rollupA1 (checks : List CheckEntry) : CheckResult := rollUp checks "Appendix A.1 checks failed"

structure A1Deps where
  policy : IntentRequestBindingPolicy
  cache : Bool
  cacheTtlMs : Option ℤ

structure A1Request where
  chainId : ℕ
  requestContract : Address
  deadline : ℕ

def A1Request.cacheKey (body : A1Request) : String :=
  key body.chainId (toLowerCase body.requestContract)

/-- A hit whose owner is by now a listed retargetter counts as a miss. -/
def usableEntry (chainId : ℕ) (policy : IntentRequestBindingPolicy) :
    A1OnChainData → Option A1OnChainData
  | .noFactory => some .noFactory
  | .tooOld factory owner p =>
    if isAcceptedRetargetter owner chainId policy then none else some (.tooOld factory owner p)
  | .resolved factory owner h =>
    if isAcceptedRetargetter owner chainId policy then none else some (.resolved factory owner h)

def readCache (body : A1Request) (deps : A1Deps) : Signing (Option A1OnChainData) :=
  if deps.cache then do
    let hit : Except Unit (Option A1OnChainData) ← ask (.cacheGet body.cacheKey)
    match hit with
    | .ok (some data) => return usableEntry body.chainId deps.policy data
    | _ => return none
  else return none

/-- A probe-only `tooOld` has no scan behind it and is not written back. -/
def isProbeOnly : A1OnChainData → Bool
  | .tooOld _ _ none => true
  | _ => false

def writeCache (body : A1Request) (deps : A1Deps) (data : A1OnChainData) : Signing Unit :=
  if deps.cache && !isProbeOnly data then do
    let _ : Except Unit Unit ← ask (.cacheSet body.cacheKey data deps.cacheTtlMs)
    return ()
  else return ()

def runA1 (ctx : SigningContext) (body : A1Request) (deps : A1Deps) : Signing CheckResult :=
  let policy := deps.policy
  let deadlineCheck :=
    checkDeadline ctx.nowUnixSeconds body.deadline policy.maxDeadlineSecondsAhead
  if isTrustedRequestContract body.requestContract body.chainId policy then
    return rollupA1 (trustedRequestContractChecks deadlineCheck)
  else do
    match ← readCache body deps with
    | some data => return rollupA1 (evaluateA1 data body.chainId policy deadlineCheck)
    | none =>
      match ← fetchA1OnChain ctx body.chainId body.requestContract policy with
      | .error e => return .error e
      | .ok (.retargetter data) =>
        return rollupA1
          (evaluateRetargetter data body.requestContract ctx.nowUnixSeconds policy deadlineCheck)
      | .ok (.onChain data) => do
        writeCache body deps data
        return rollupA1 (evaluateA1 data body.chainId policy deadlineCheck)

def IntentRequestBindingBody.a1 (body : IntentRequestBindingBody) : A1Request :=
  ⟨body.chainId, body.requestContract, body.deadline⟩

/-- The builder throws on a policy its runner could not evaluate. -/
def buildIntentRequestBindingChecks (deps : A1Deps) :
    Except Thrown (CheckRunner IntentRequestBindingBody) := do
  assertRetargetterPolicy "buildIntentRequestBindingChecks" deps.policy
  return fun ctx body => Settled.ofResult <$> runA1 ctx body.a1 deps

theorem readCache_performs (body : A1Request) (deps : A1Deps) :
    (readCache body deps).Performs fun op : Op => ∃ k, op = .cacheGet k := by
  unfold readCache
  split
  · refine .call_bind ⟨_, rfl⟩ fun hit => ?_
    match hit with
    | .ok (some _) => trivial
    | .ok none => trivial
    | .error _ => trivial
  · trivial

def IsFetchRead (chain : ℕ) : Op → Prop
  | .ownerAndProvenance c _ _ => c = chain
  | .operation c _ => c = chain
  | .getBlockNumber c => c = chain
  | .getCode c _ _ => c = chain
  | op => IsScanRead op

section Performs
variable {ctx : SigningContext} {policy : IntentRequestBindingPolicy}

theorem predatesWindow_performs (rc : Address) (latestBlock : ℕ) :
    (predatesWindow ctx rc policy latestBlock).Performs fun op : Op =>
      ∃ n, op = .getCode ctx.chainId rc n := by
  rw [predatesWindow]
  split
  · refine .call_bind ⟨_, rfl⟩ fun answer => ?_
    cases answer <;> trivial
  · trivial

theorem isFetchRead_of_isScanRead {chain : ℕ} {op : Op} (h : IsScanRead op) :
    IsFetchRead chain op := by
  cases op with
  | getLogs => trivial
  | signalAborted => trivial
  | dateNow => trivial
  | _ => exact h.elim

theorem fetchRoles_performs (rc owner firstFactory : Address) (matched : List Address) :
    (fetchRoles ctx rc policy owner firstFactory matched).Performs (IsFetchRead ctx.chainId) := by
  refine .call_bind rfl fun block => ?_
  cases block with
  | error e => trivial
  | ok latestBlock =>
    refine .bind ((predatesWindow_performs rc latestBlock).mono ?_) fun predates => ?_
    · rintro op ⟨n, rfl⟩
      rfl
    · cases predates with
      | true => trivial
      | false =>
        refine .bind (scanRoleHolders_performs.mono fun _ => isFetchRead_of_isScanRead)
          fun outcome => ?_
        match outcome with
        | .error _ => trivial
        | .ok (.tooOld _) => trivial
        | .ok (.resolved ..) => trivial

theorem fetchA1OnChain_performs (id : ℕ) (rc : Address) :
    (fetchA1OnChain ctx id rc policy).Performs (IsFetchRead ctx.chainId) := by
  refine .call_bind rfl fun stage1 => ?_
  match stage1 with
  | .error _ => trivial
  | .ok (.failure e, _) =>
    dsimp only
    split <;> trivial
  | .ok (.success owner, slots) =>
    dsimp only
    split
    · refine .call_bind rfl fun answer => ?_
      cases answer <;> trivial
    · split
      · split <;> trivial
      · exact fetchRoles_performs rc owner _ _

theorem writeCache_performs (body : A1Request) (deps : A1Deps) (data : A1OnChainData) :
    (writeCache body deps data).Performs fun op : Op => ∃ k v ttl, op = .cacheSet k v ttl := by
  rw [writeCache]
  split
  · exact .call_bind ⟨_, _, _, rfl⟩ fun _ => trivial
  · trivial

end Performs

end Guardian
