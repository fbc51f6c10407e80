import Guardian.Core.Schemas

/-!
# The EIP-712 payloads

The domain, the five struct kinds and the builders that turn a request body into
the typed data a signer receives. `BigInt` of a field that is not an integer
literal throws, and so do a foreign verifying contract and a swap without
exactly two legs.
-/

namespace Guardian
open Text

def toBigInt (s : String) : Except Thrown ℤ :=
  match bigInt s with
  | some n => .ok n
  | none => .error ⟨"Cannot convert " ++ s ++ " to a BigInt"⟩

structure Eip712DomainNameVersion where
  name : String
  version : String
  deriving DecidableEq, Repr

structure Eip712Domain where
  name : String
  version : String
  chainId : ℕ
  verifyingContract : Address
  deriving DecidableEq, Repr

inductive FieldValue where
  | uint (n : ℤ)
  | address (a : Address)
  | addressArray (as : List Address)
  deriving DecidableEq, Repr

structure FieldType where
  name : String
  type : String
  deriving DecidableEq, Repr

/-- viem's `TypedDataDefinition`; `message` lists the fields by name. -/
structure TypedData where
  domain : Eip712Domain
  types : List (String × List FieldType)
  primaryType : String
  message : List (String × FieldValue)
  deriving DecidableEq, Repr

def setRequestParamsTypes : List (String × List FieldType) :=
  [("SetRequestParams",
    [⟨"id", "uint256"⟩, ⟨"newRequest", "address"⟩, ⟨"deadline", "uint256"⟩])]

def setFundParamsTypes : List (String × List FieldType) :=
  [("SetFundParams", [⟨"id", "uint256"⟩, ⟨"newFund", "address"⟩, ⟨"deadline", "uint256"⟩])]

def swapParamsTypes : List (String × List FieldType) :=
  [("SwapParams",
    [⟨"id1", "uint256"⟩, ⟨"token1", "address"⟩, ⟨"id2", "uint256"⟩, ⟨"token2", "address"⟩,
      ⟨"amount1", "uint256"⟩, ⟨"amount2", "uint256"⟩, ⟨"deadline", "uint256"⟩])]

def sharedFields : List FieldType :=
  [⟨"targets", "address[]"⟩, ⟨"deadline", "uint256"⟩, ⟨"validator", "address"⟩,
    ⟨"nonce", "uint256"⟩]

def whitelistRequestTypes : List (String × List FieldType) := [("WhitelistRequest", sharedFields)]

def unwhitelistRequestTypes : List (String × List FieldType) :=
  [("UnwhitelistRequest", sharedFields)]

def assertVerifyingContract (builder field : String) (domain : Eip712Domain) (target : Address) :
    Except Thrown Unit :=
  if toLowerCase domain.verifyingContract = toLowerCase target then .ok ()
  else .error ⟨builder ++ ": domain.verifyingContract must equal body." ++ field⟩

def buildIntentRequestBindingTypedData (domain : Eip712Domain) (body : IntentRequestBindingBody) :
    Except Thrown TypedData := do
  assertVerifyingContract "buildIntentRequestBindingTypedData" "facility" domain body.facility
  let id ← toBigInt body.intent.id
  return {
    domain
    types := setRequestParamsTypes
    primaryType := "SetRequestParams"
    message := [("id", .uint id), ("newRequest", .address body.requestContract),
      ("deadline", .uint body.deadline)] }

def buildIntentFundBindingTypedData (domain : Eip712Domain) (body : IntentFundBindingBody) :
    Except Thrown TypedData := do
  assertVerifyingContract "buildIntentFundBindingTypedData" "facility" domain body.facility
  let id ← toBigInt body.intent.id
  return {
    domain
    types := setFundParamsTypes
    primaryType := "SetFundParams"
    message := [("id", .uint id), ("newFund", .address body.fundContract),
      ("deadline", .uint body.deadline)] }

/-- Ascending id, then lower-cased asset, then amount. -/
def canonicaliseSwapLegs : List SwapLeg → Except Thrown (SwapLeg × SwapLeg)
  | [a, b] => do
    let idA ← toBigInt a.intent.id
    let idB ← toBigInt b.intent.id
    if idA < idB then return (a, b)
    if idA > idB then return (b, a)
    let assetA := toLowerCase a.asset
    let assetB := toLowerCase b.asset
    if assetA < assetB then return (a, b)
    if assetA > assetB then return (b, a)
    let amountA ← toBigInt a.amount
    let amountB ← toBigInt b.amount
    if amountA < amountB then return (a, b)
    if amountA > amountB then return (b, a)
    return (a, b)
  | _ => .error ⟨"canonicaliseSwapLegs requires exactly two legs"⟩

def buildIntentSwapTypedData (domain : Eip712Domain) (body : IntentSwapBody) :
    Except Thrown TypedData := do
  assertVerifyingContract "buildIntentSwapTypedData" "facility" domain body.facility
  let (first, second) ← canonicaliseSwapLegs body.legs
  let id1 ← toBigInt first.intent.id
  let id2 ← toBigInt second.intent.id
  let amount1 ← toBigInt first.amount
  let amount2 ← toBigInt second.amount
  return {
    domain
    types := swapParamsTypes
    primaryType := "SwapParams"
    message := [("id1", .uint id1), ("token1", .address first.asset), ("id2", .uint id2),
      ("token2", .address second.asset), ("amount1", .uint amount1), ("amount2", .uint amount2),
      ("deadline", .uint body.deadline)] }

def messageOf (body : RequestWhitelistingBody) (validator : Address) :
    Except Thrown (List (String × FieldValue)) := do
  let nonce ← toBigInt body.nonce
  return [("targets", .addressArray body.requestContracts), ("deadline", .uint body.deadline),
    ("validator", .address validator), ("nonce", .uint nonce)]

def buildWhitelistRequestTypedData (domain : Eip712Domain) (body : RequestWhitelistingBody)
    (validator : Address) : Except Thrown TypedData := do
  assertVerifyingContract "buildWhitelistRequestTypedData" "whitelistBook" domain
    body.whitelistBook
  let message ← messageOf body validator
  return { domain, types := whitelistRequestTypes, primaryType := "WhitelistRequest", message }

def buildUnwhitelistRequestTypedData (domain : Eip712Domain) (body : RequestWhitelistingBody)
    (validator : Address) : Except Thrown TypedData := do
  assertVerifyingContract "buildUnwhitelistRequestTypedData" "whitelistBook" domain
    body.whitelistBook
  let message ← messageOf body validator
  return { domain, types := unwhitelistRequestTypes, primaryType := "UnwhitelistRequest", message }

def buildRequestWhitelistingTypedData (domain : Eip712Domain) (body : RequestWhitelistingBody)
    (validator : Address) : Except Thrown TypedData :=
  match body.operation with
  | .whitelist => buildWhitelistRequestTypedData domain body validator
  | .unwhitelist => buildUnwhitelistRequestTypedData domain body validator

end Guardian
