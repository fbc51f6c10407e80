import Guardian.Defaults.Helpers

/-!
# The A.2 runner

The fund is checked against the accepted list before any read. One multicall then
answers for the fund's owner and the intent; a read that fails because of the
addresses in the request is a failed owner check, any other failure is upstream.
A fund that is already bound is the only check that reports a state conflict.
-/

namespace Guardian
open Effect Text

structure IntentFundBindingPolicy where
  maxDeadlineSecondsAhead : ℤ
  acceptedFunds : AddressSets
  acceptedOwners : AddressSets

def fundOwnerDescription : String := "fund contract owner is on the accepted-owners list"
def pmDescription : String :=
  "proposed position manager matches the intent's position-manager asset"
def noCurrentFundDescription : String := "intent has no currently bound fund"
def depositorRoleDescription : String := "fund holds DEPOSITOR_ROLE for the facility"

def rollupA2 (checks : List CheckEntry) : CheckResult := rollUp checks "Appendix A.2 checks failed"

def skippedFundReads : List CheckEntry :=
  [skipped pmDescription, skipped noCurrentFundDescription, skipped depositorRoleDescription]

def evaluateFundReadFailure (body : IntentFundBindingBody) (ownerReadFailed : Bool)
    (deadlineCheck fundOnList : CheckEntry) : CheckResult :=
  rollupA2 ([deadlineCheck, fundOnList,
    failed fundOwnerDescription
      (if ownerReadFailed then
        s!"fund contract {body.fundContract} did not answer owner() " ++
          "(EOA or non-Ownable contract); owner could not be read deterministically"
      else
        s!"facility {body.facility} did not answer getIntent({body.intent.id}) " ++
          "(EOA or non-facility contract); fund owner could not be read deterministically")] ++
    skippedFundReads)

def pmAssets (reads : FundReads) : List Address :=
  ([reads.depositAsset, reads.targetAsset].filter IntentAsset.isPositionManager).map
    IntentAsset.asset

def checkPositionManager (body : IntentFundBindingBody) (reads : FundReads) : CheckEntry :=
  if (pmAssets reads).any fun a => toLowerCase a == toLowerCase body.positionManager then
    passed pmDescription
  else failed pmDescription
    (if (pmAssets reads).length = 0 then
      s!"intent {body.intent.id} declares no position-manager asset"
    else
      s!"intent {body.intent.id} declares position-manager asset(s) " ++
        ", ".intercalate (pmAssets reads) ++ s!" but the request proposes {body.positionManager}")

def checkNoCurrentFund (body : IntentFundBindingBody) (reads : FundReads) : CheckEntry :=
  if reads.currentFund = ZERO_ADDRESS then passed noCurrentFundDescription
  else failed noCurrentFundDescription
    (s!"intent {body.intent.id} is currently bound to {reads.currentFund}; " ++
      "unbind (setFund(0,...)) before rebinding to a new fund")

def rollupFundState (deadlineCheck fundOnList ownerCheck pmCheck noCurrentFundCheck
    depositorRoleCheck : CheckEntry) : CheckResult :=
  let all := [deadlineCheck, fundOnList, ownerCheck, pmCheck, noCurrentFundCheck,
    depositorRoleCheck]
  let class422 := [deadlineCheck, fundOnList, ownerCheck, pmCheck, depositorRoleCheck]
  if class422.any fun c => !c.passed then rollupA2 all
  else if !noCurrentFundCheck.passed then
    .error (.stateConflict "Intent already has a fund bound (Appendix A.2)" all)
  else .ok all

def evaluateFund (body : IntentFundBindingBody) (acceptedOwners : List Address)
    (reads : FundReads) (deadlineCheck fundOnList : CheckEntry) : CheckResult :=
  rollupFundState deadlineCheck fundOnList
    (checkMembership fundOwnerDescription reads.owner acceptedOwners)
    (checkPositionManager body reads) (checkNoCurrentFund body reads)
    (skipped depositorRoleDescription)

def runA2 (policy : IntentFundBindingPolicy) (ctx : SigningContext)
    (body : IntentFundBindingBody) : Signing (Settled (List CheckEntry)) :=
  match toBigInt body.intent.id with
  | .error e => return .error (.thrown e)
  | .ok intentId =>
    let deadlineCheck :=
      checkDeadline ctx.nowUnixSeconds body.deadline policy.maxDeadlineSecondsAhead
    let fundOnList := checkMembership "fund contract is on the accepted-funds list"
      body.fundContract (policy.acceptedFunds.on body.chainId)
    if !fundOnList.passed then
      return .ofResult (rollupA2
        ([deadlineCheck, fundOnList, skipped fundOwnerDescription] ++ skippedFundReads))
    else do
      let answer : Except RpcError FundReads ← ask
        (.fundReads ctx.chainId body.fundContract body.facility intentId)
      match answer with
      | .ok reads =>
        return .ofResult (evaluateFund body (policy.acceptedOwners.on body.chainId) reads
          deadlineCheck fundOnList)
      | .error e =>
        if isDeterministicContractCallFailure e ["owner", "getIntent"] then
          return .ofResult (evaluateFundReadFailure body
            (e.isContractFunctionExecutionError && e.functionName == "owner")
            deadlineCheck fundOnList)
        else return .error (.err (upstream "fund-binding read failed upstream"))

def buildIntentFundBindingChecks (policy : IntentFundBindingPolicy) :
    CheckRunner IntentFundBindingBody :=
  runA2 policy

end Guardian
