import Guardian.Defaults.Helpers

/-!
# The A.3 runner

Every accepted factory is asked about both legs in one multicall. Exactly one leg
must be a position manager, so a factory that could not be asked leaves the answer
open and fails the request upstream. The share price is read from the position
manager of that leg and compared with the amounts.
-/

namespace Guardian
open Effect Text

structure IntentSwapPolicy where
  maxDeadlineSecondsAhead : ℤ
  acceptedPmFactories : AddressSets
  acceptedPmOwners : AddressSets
  swapPriceToleranceBps : ℤ

def VIRTUAL_ASSETS : ℤ := 1

def pmLegDescription : String :=
  "exactly one leg's asset is a position manager from an accepted factory"
def pmOwnerDescription : String := "position manager owner is on the accepted-owners list"
def debtAssetDescription : String :=
  "non-PM leg's asset equals the position manager's debt asset"
def sharePriceDescription : String :=
  "swap legs match the position-manager share price within tolerance"

def rollupA3 (checks : List CheckEntry) : CheckResult := rollUp checks "Appendix A.3 checks failed"

def pmLegFailed (reason : String) (deadlineCheck : CheckEntry) : CheckResult :=
  rollupA3 [failed pmLegDescription reason, skipped pmOwnerDescription,
    skipped debtAssetDescription, skipped sharePriceDescription, deadlineCheck]

def pmCalls (factories : List Address) (legA legB : SwapLeg) : List (Address × Address) :=
  factories.map (fun f => (f, legA.asset)) ++ factories.map (fun f => (f, legB.asset))

/-- How many slots failed deterministically; `none` if one failed in any other way. -/
def deterministicFailures : List (Slot Bool) → Option ℕ
  | [] => some 0
  | .success _ :: slots => deterministicFailures slots
  | .failure e :: slots =>
    if isDeterministicContractCallFailure e ["isPositionManager"] then
      (deterministicFailures slots).map (· + 1)
    else none

def hits (slots : List (Slot Bool)) : Bool :=
  slots.any fun
    | .success result => result
    | .failure _ => false

inductive PmLeg where
  | legA
  | legB
  | rejected (reason : String)
  | upstreamFailed
  deriving DecidableEq, Repr

def resolvePmLeg (factoryCount : ℕ) (slots : List (Slot Bool)) : PmLeg :=
  match deterministicFailures slots with
  | none => .upstreamFailed
  | some failures =>
    let aHits := hits (slots.take factoryCount)
    let bHits := hits (slots.drop factoryCount)
    if aHits = bHits then
      if !aHits && decide (failures > 0) then .upstreamFailed
      else if aHits then
        .rejected "both legs resolved as position managers; expected exactly one"
      else .rejected "neither leg's asset is a position manager from an accepted factory"
    else if aHits then .legA
    else .legB

def checkDebtAsset (debtLeg : SwapLeg) (reads : PositionManagerReads) : CheckEntry :=
  if toLowerCase debtLeg.asset = toLowerCase reads.debtAsset then passed debtAssetDescription
  else failed debtAssetDescription
    (s!"non-PM leg asset is {debtLeg.asset} but PM debt asset is {reads.debtAsset} " ++
      s!"(collateral asset for reference: {reads.collateralAsset})")

def priceDenominator (reads : PositionManagerReads) : ℤ :=
  reads.totalSupply + reads.virtualShareOffset + reads.managementFeeShares +
    reads.performanceFeeShares

def checkSharePrice (pmShares actualDebt : ℤ) (reads : PositionManagerReads) (bps : ℤ) :
    CheckEntry :=
  let denom := priceDenominator reads
  if denom = 0 then
    failed sharePriceDescription
      "PM share-price denominator is zero (totalSupply + virtual + fees == 0)"
  else
    let expectedDebt := (pmShares * (reads.totalAssets + VIRTUAL_ASSETS)).tdiv denom
    let delta :=
      if actualDebt > expectedDebt then actualDebt - expectedDebt else expectedDebt - actualDebt
    let tolerance := bpsToleranceWithWeiFloor expectedDebt bps
    if delta ≤ tolerance then passed sharePriceDescription
    else failed sharePriceDescription
      (s!"actual debt {actualDebt} deviates from expected {expectedDebt} " ++
        s!"by {delta} (tolerance {tolerance}, bps={bps})")

/-- Without a debt match the price is moot, and the amounts are not parsed. -/
def sharePriceEntry (pmLeg debtLeg : SwapLeg) (reads : PositionManagerReads) (bps : ℤ) :
    Except Thrown CheckEntry :=
  if !(checkDebtAsset debtLeg reads).passed then return skipped sharePriceDescription
  else do
    let pmShares ← toBigInt pmLeg.amount
    let actualDebt ← toBigInt debtLeg.amount
    return checkSharePrice pmShares actualDebt reads bps

def evaluatePositionManager (policy : IntentSwapPolicy) (chainId : ℕ) (pmLeg debtLeg : SwapLeg)
    (reads : PositionManagerReads) (deadlineCheck : CheckEntry) : Settled (List CheckEntry) :=
  match sharePriceEntry pmLeg debtLeg reads policy.swapPriceToleranceBps with
  | .error e => .error (.thrown e)
  | .ok priceCheck => .ofResult (rollupA3
    [passed pmLegDescription,
      checkMembership pmOwnerDescription reads.owner (policy.acceptedPmOwners.on chainId),
      checkDebtAsset debtLeg reads, priceCheck, deadlineCheck])

def checkPmLeg (policy : IntentSwapPolicy) (ctx : SigningContext) (chainId : ℕ)
    (deadlineCheck : CheckEntry) (pmLeg debtLeg : SwapLeg) :
    Signing (Settled (List CheckEntry)) := do
  let answer : Except RpcError PositionManagerReads ← ask
    (.positionManagerReads ctx.chainId pmLeg.asset)
  match answer with
  | .error _ => return .error (.err (upstream "position-manager read failed upstream"))
  | .ok reads => return evaluatePositionManager policy chainId pmLeg debtLeg reads deadlineCheck

def pmFactoryReadFailed : Settled (List CheckEntry) :=
  .error (.err (upstream "position-manager factory read failed upstream"))

def resolveLegs (policy : IntentSwapPolicy) (ctx : SigningContext) (body : IntentSwapBody)
    (deadlineCheck : CheckEntry) (legA legB : SwapLeg) : Signing (Settled (List CheckEntry)) := do
  let factories := policy.acceptedPmFactories.on body.chainId
  let calls := pmCalls factories legA legB
  let answer : Except RpcError (List.Vector (Slot Bool) calls.length) ← ask
    (.isPositionManager ctx.chainId calls)
  match answer with
  | .error _ => return pmFactoryReadFailed
  | .ok slots =>
    match resolvePmLeg factories.length slots.toList with
    | .upstreamFailed => return pmFactoryReadFailed
    | .rejected reason => return .ofResult (pmLegFailed reason deadlineCheck)
    | .legA => checkPmLeg policy ctx body.chainId deadlineCheck legA legB
    | .legB => checkPmLeg policy ctx body.chainId deadlineCheck legB legA

def runA3 (policy : IntentSwapPolicy) (ctx : SigningContext) (body : IntentSwapBody) :
    Signing (Settled (List CheckEntry)) :=
  match body.legs with
  | legA :: legB :: _ =>
    let deadlineCheck :=
      checkDeadline ctx.nowUnixSeconds body.deadline policy.maxDeadlineSecondsAhead
    if policy.acceptedPmFactories.on body.chainId = [] then
      return .ofResult
        (pmLegFailed "no accepted PM factories configured for this chain" deadlineCheck)
    else resolveLegs policy ctx body deadlineCheck legA legB
  | _ => return .error (.err (upstream "intent-swap body did not contain two legs"))

/-- The builder throws on a tolerance that is not a natural number of basis points. -/
def buildIntentSwapChecks (policy : IntentSwapPolicy) :
    Except Thrown (CheckRunner IntentSwapBody) :=
  if policy.swapPriceToleranceBps < 0 then
    .error ⟨"buildIntentSwapChecks: swapPriceToleranceBps must be a non-negative integer, " ++
      s!"got {policy.swapPriceToleranceBps}"⟩
  else .ok (runA3 policy)

end Guardian
