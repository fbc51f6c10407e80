import Guardian.Core.TypedData
import Guardian.Lib.Program
import Guardian.Lib.Replay
import Mathlib.Data.Vector.Defs

/-!
# What a signing call may ask of the outside

One request kind for each call site: the chain client's reads, the two caches,
the clock, the request's abort signal and the signer. Every chain read names the
chain its client was resolved for. Nothing is promised about the answers: a read
may fail in any way, and a cache may throw, miss, or return any value its schema
accepts.
-/

namespace Guardian
open Effect

/-- The viem error classes that the checks look for in a cause chain. A revert
records whether it carries revert data and whether a cause has code 3. -/
inductive ErrorCause where
  | abiDecodingZeroData
  | contractFunctionZeroData
  | contractFunctionReverted (hasRevertData hasExecutionRevertedCode : Bool)
  | other
  deriving DecidableEq, Repr

/-- A thrown RPC error; `causes` starts with the error itself. -/
structure RpcError where
  isBaseError : Bool
  isContractFunctionExecutionError : Bool
  functionName : String
  causes : List ErrorCause
  deriving DecidableEq, Repr

/-- One slot of a multicall with `allowFailure: true`. -/
inductive Slot (α : Type) where
  | success (result : α)
  | failure (error : RpcError)
  deriving DecidableEq, Repr

structure FactoryCheck where
  factory : Address
  functionName : String
  deriving DecidableEq, Repr

structure RetargetterOperation where
  request : Address
  repaymentDeadline : ℕ
  deriving DecidableEq, Repr

inductive EventName where
  | rolesUpdated
  | requestCreated
  | flashLoanRequestCreated
  deriving DecidableEq, Repr

/-- A decoded log; an argument that did not decode is absent. -/
structure Log where
  address : Address
  eventName : EventName
  blockNumber : ℕ
  logIndex : ℕ
  user : Option Address
  roles : Option ℕ
  request : Option Address
  flashLoanRequest : Option Address
  deriving DecidableEq, Repr

abbrev RoleMap := OrderedMap Address ℕ

inductive A1OnChainData where
  | noFactory
  | tooOld (factory owner : Address) (partialHolders : Option RoleMap)
  | resolved (factory owner : Address) (holders : RoleMap)

structure IntentAsset where
  asset : Address
  isPositionManager : Bool
  deriving DecidableEq, Repr

structure FundReads where
  owner : Address
  depositAsset : IntentAsset
  targetAsset : IntentAsset
  currentFund : Address
  deriving DecidableEq, Repr

structure PositionManagerReads where
  owner : Address
  collateralAsset : Address
  debtAsset : Address
  totalAssets : ℕ
  totalSupply : ℕ
  managementFeeShares : ℕ
  performanceFeeShares : ℕ
  virtualShareOffset : ℕ
  deriving DecidableEq, Repr

inductive Op where
  | cacheGet (key : String)
  | cacheSet (key : String) (value : A1OnChainData) (ttlMs : Option ℤ)
  | ownerAndProvenance (chain : ℕ) (requestContract : Address) (factoryChecks : List FactoryCheck)
  | operation (chain : ℕ) (retargetter : Address)
  | getBlockNumber (chain : ℕ)
  | getCode (chain : ℕ) (address : Address) (blockNumber : ℤ)
  | getLogs (chain : ℕ) (address : List Address) (fromBlock toBlock : ℤ)
  | signalAborted
  | dateNow
  | fundReads (chain : ℕ) (fundContract facility : Address) (intentId : ℤ)
  | isPositionManager (chain : ℕ) (calls : List (Address × Address))
  | positionManagerReads (chain : ℕ) (positionManager : Address)
  | nonceReads (chain : ℕ) (whitelistBook guardianSigner : Address) (nonce : ℤ)
  | domainCacheGet (key : String)
  | domainCacheSet (key : String) (value : Eip712DomainNameVersion) (ttlMs : Option ℤ)
  | eip712Domain (chain : ℕ) (verifyingContract : Address)
  | signTypedData (typedData : TypedData)

/-- A thrown answer is an `error`; viem returns one slot for each call. -/
abbrev Op.Answer : Op → Type
  | cacheGet _ => Except Unit (Option A1OnChainData)
  | cacheSet .. => Except Unit Unit
  | ownerAndProvenance _ _ factoryChecks =>
    Except RpcError (Slot Address × List.Vector (Slot Bool) factoryChecks.length)
  | operation .. => Except RpcError RetargetterOperation
  | getBlockNumber _ => Except RpcError ℕ
  | getCode .. => Except RpcError (Option String)
  | getLogs .. => Except RpcError (List Log)
  | signalAborted => Bool
  | dateNow => ℤ
  | fundReads .. => Except RpcError FundReads
  | isPositionManager _ calls => Except RpcError (List.Vector (Slot Bool) calls.length)
  | positionManagerReads .. => Except RpcError PositionManagerReads
  | nonceReads .. => Except RpcError (ℕ × Bool)
  | domainCacheGet _ => Except Unit (Option Eip712DomainNameVersion)
  | domainCacheSet .. => Except Unit Unit
  | eip712Domain .. => Except RpcError Eip712DomainNameVersion
  | signTypedData _ => Except SignTypedDataError String

abbrev env : Signature := ⟨Op, Op.Answer⟩

abbrev Signing (α : Type) := Program env α

abbrev SigningEvent := Event env

abbrev ask (op : Op) : Signing op.Answer := @Program.call env op

/-- The per-request context; the chain client is the one resolved for `chainId`. -/
structure SigningContext where
  chainId : ℕ
  /-- `now.getTime()`. -/
  now : ℤ
  hasSignal : Bool

/-- `Math.floor(ctx.now.getTime() / 1000)`. -/
def SigningContext.nowUnixSeconds (ctx : SigningContext) : ℤ := ctx.now / 1000

abbrev CheckRunner (Body : Type) := SigningContext → Body → Signing (Settled (List CheckEntry))

end Guardian
