import Guardian.Core.Environment

/-!
# The sign runners

`eip712Domain()` resolution with its cache, and the four sign runners: run the
checks, resolve the domain, build and hash the typed data, call the signer and
assemble the response. `hashTypedData` is the EIP-712 digest, which may throw.
-/

namespace Guardian
open Effect Text

structure Eip712DomainCacheDeps where
  cache : Bool
  cacheTtlMs : Option ℤ

def eip712DomainCacheKey (chainId : ℕ) (verifyingContract : Address) : String :=
  key chainId (toLowerCase verifyingContract)

def isGenuineRevert (hasRevertData hasExecutionRevertedCode : Bool) : Bool :=
  hasRevertData || hasExecutionRevertedCode

def isDeterministicDomainFailure (e : RpcError) : Bool :=
  e.isBaseError && e.causes.any fun
    | .contractFunctionZeroData => true
    | .contractFunctionReverted hasRevertData hasCode => isGenuineRevert hasRevertData hasCode
    | _ => false

def readDomainCache (k : String) (cache : Bool) : Signing (Option Eip712DomainNameVersion) :=
  if cache then do
    let hit : Except Unit (Option Eip712DomainNameVersion) ← ask (.domainCacheGet k)
    match hit with
    | .ok found => return found
    | .error _ => return none
  else return none

def writeDomainCache (k : String) (deps : Eip712DomainCacheDeps)
    (value : Eip712DomainNameVersion) : Signing Unit :=
  if deps.cache then do
    let _ : Except Unit Unit ← ask (.domainCacheSet k value deps.cacheTtlMs)
    return ()
  else return ()

def fetchEip712DomainNameVersion (chainId : ℕ) (verifyingContract : Address)
    (deps : Eip712DomainCacheDeps) : Signing (Except SigningError Eip712DomainNameVersion) := do
  let k := eip712DomainCacheKey chainId verifyingContract
  match ← readDomainCache k deps.cache with
  | some hit => return .ok hit
  | none => do
    let answer : Except RpcError Eip712DomainNameVersion ← ask
      (.eip712Domain chainId verifyingContract)
    match answer with
    | .ok result => do
      writeDomainCache k deps result
      return .ok result
    | .error e =>
      if isDeterministicDomainFailure e then
        return .error (.notFound
          (s!"Verifying contract at {verifyingContract} does not implement " ++
            "ERC-5267 eip712Domain().") chainId verifyingContract)
      else
        return .error (.upstreamUnavailable
          s!"eip712Domain() read failed at {verifyingContract}." 503)

def resolveDomain (ctx : SigningContext) (verifyingContract : Address)
    (cacheDeps : Eip712DomainCacheDeps) :
    Signing (Except SigningError Eip712DomainNameVersion) :=
  fetchEip712DomainNameVersion ctx.chainId verifyingContract cacheDeps

def padLeft (width : ℕ) (s : String) : String :=
  String.ofList (List.replicate (width - s.toList.length) '0') ++ s

def civilOfDays (days : ℤ) : ℤ × ℤ × ℤ :=
  let z := days + 719468
  let era := z / 146097
  let dayOfEra := z - era * 146097
  let yearOfEra := (dayOfEra - dayOfEra / 1460 + dayOfEra / 36524 - dayOfEra / 146096) / 365
  let dayOfYear := dayOfEra - (365 * yearOfEra + yearOfEra / 4 - yearOfEra / 100)
  let shifted := (5 * dayOfYear + 2) / 153
  let month := if shifted < 10 then shifted + 3 else shifted - 9
  let year := yearOfEra + era * 400
  (if month ≤ 2 then year + 1 else year, month, dayOfYear - (153 * shifted + 2) / 5 + 1)

def isoYear (year : ℤ) : String :=
  if 0 ≤ year ∧ year ≤ 9999 then padLeft 4 (toString year)
  else (if year < 0 then "-" else "+") ++ padLeft 6 (toString year.natAbs)

def nowIso (now : ℤ) : String :=
  let (year, month, day) := civilOfDays (now / 86400000)
  let ms := now % 86400000
  isoYear year ++ "-" ++ padLeft 2 (toString month) ++ "-" ++ padLeft 2 (toString day) ++ "T" ++
    padLeft 2 (toString (ms / 3600000)) ++ ":" ++ padLeft 2 (toString (ms / 60000 % 60)) ++ ":" ++
    padLeft 2 (toString (ms / 1000 % 60)) ++ "." ++ padLeft 3 (toString (ms % 1000)) ++ "Z"

example : nowIso 1709164799999 = "2024-02-28T23:59:59.999Z" := by decide

structure SigningSuccess where
  guardian : Address
  signature : String
  payloadHash : String
  signedAt : String
  checks : List CheckEntry
  deriving DecidableEq, Repr

structure RequestWhitelistingResponse extends SigningSuccess where
  address : Address
  nonce : String
  deriving DecidableEq, Repr

structure SignDeps where
  hashTypedData : TypedData → Except Thrown String
  guardianSigner : Address
  domainCache : Eip712DomainCacheDeps

def signPayload (deps : SignDeps) (ctx : SigningContext) (checks : List CheckEntry)
    (built : Except Thrown TypedData) : Signing (Settled SigningSuccess) :=
  match built with
  | .error e => return .error (.thrown e)
  | .ok typedData =>
    match deps.hashTypedData typedData with
    | .error e => return .error (.thrown e)
    | .ok payloadHash => do
      let answer : Except SignTypedDataError String ← ask (.signTypedData typedData)
      match answer with
      | .error e => return .error e.failure
      | .ok signature =>
        return .ok ⟨deps.guardianSigner, signature, payloadHash, nowIso ctx.now, checks⟩

def runSigner {α : Type} (deps : SignDeps) (ctx : SigningContext)
    (checks : Signing (Settled (List CheckEntry))) (chainId : ℕ) (verifyingContract : Address)
    (build : Eip712Domain → Except Thrown TypedData) (respond : SigningSuccess → α) :
    Signing (Settled α) := do
  match ← checks with
  | .error failure => return .error failure
  | .ok entries =>
    match ← resolveDomain ctx verifyingContract deps.domainCache with
    | .error e => return .error (.err e)
    | .ok domain => do
      let settled ← signPayload deps ctx entries
        (build ⟨domain.name, domain.version, chainId, verifyingContract⟩)
      return settled.map respond

def makeSignIntentRequestBinding (deps : SignDeps) (checks : CheckRunner IntentRequestBindingBody)
    (ctx : SigningContext) (body : IntentRequestBindingBody) : Signing (Settled SigningSuccess) :=
  runSigner deps ctx (checks ctx body) body.chainId body.facility
    (fun domain => buildIntentRequestBindingTypedData domain body) id

def makeSignIntentFundBinding (deps : SignDeps) (checks : CheckRunner IntentFundBindingBody)
    (ctx : SigningContext) (body : IntentFundBindingBody) : Signing (Settled SigningSuccess) :=
  runSigner deps ctx (checks ctx body) body.chainId body.facility
    (fun domain => buildIntentFundBindingTypedData domain body) id

def makeSignIntentSwap (deps : SignDeps) (checks : CheckRunner IntentSwapBody)
    (ctx : SigningContext) (body : IntentSwapBody) : Signing (Settled SigningSuccess) :=
  runSigner deps ctx (checks ctx body) body.chainId body.facility
    (fun domain => buildIntentSwapTypedData domain body) id

def makeSignRequestWhitelisting (deps : SignDeps) (checks : CheckRunner RequestWhitelistingBody)
    (ctx : SigningContext) (body : RequestWhitelistingBody) :
    Signing (Settled RequestWhitelistingResponse) :=
  runSigner deps ctx (checks ctx body) body.chainId body.whitelistBook
    (fun domain =>
      match body.operation with
      | .whitelist => buildWhitelistRequestTypedData domain body deps.guardianSigner
      | .unwhitelist => buildUnwhitelistRequestTypedData domain body deps.guardianSigner)
    (fun success => ⟨success, deps.guardianSigner, body.nonce⟩)

end Guardian
