import Guardian.Core.Checks
import Guardian.Lib.Json

/-!
# The request schemas

The wire primitives and the four request bodies. Each schema is split in two:
`accept` validates a document and keeps its strings as they were sent, and
`lowered` is the address transform; `parse` is their composition, which is the
body a route hands on. Bodies are plain records, as after `z.infer`.
-/

namespace Guardian
open Text

def isHexDigit (c : Char) : Bool := (digitValue c).isSome

/-- `^0x[0-9a-fA-F]{n}$`. -/
def isHex (n : ℕ) (s : String) : Bool :=
  match s.toList with
  | '0' :: 'x' :: cs => decide (cs.length = n) && cs.all isHexDigit
  | _ => false

theorem hex_chars {n : ℕ} {s : String} (h : isHex n s = true) :
    ∃ cs, s.toList = '0' :: 'x' :: cs := by
  unfold isHex at h
  split at h
  · exact ⟨_, ‹_›⟩
  · cases h

theorem isHexDigit_ascii {c : Char} (h : isHexDigit c = true) : c.toNat < 128 := by
  unfold isHexDigit digitValue at h
  split at h
  · rename_i hrange
    exact lt_of_le_of_lt (show c.toNat ≤ '9'.toNat from hrange.2) (by decide)
  · split at h
    · rename_i hrange
      exact lt_of_le_of_lt (show c.toNat ≤ 'f'.toNat from hrange.2) (by decide)
    · split at h
      · rename_i hrange
        exact lt_of_le_of_lt (show c.toNat ≤ 'F'.toNat from hrange.2) (by decide)
      · cases h

theorem isHex_iff {n : ℕ} {s : String} : isHex n s = true ↔
    ∃ cs, s.toList = '0' :: 'x' :: cs ∧ cs.length = n ∧ ∀ c ∈ cs, isHexDigit c = true := by
  unfold isHex
  split
  · rename_i cs heq
    rw [Bool.and_eq_true, decide_eq_true_eq, List.all_eq_true]
    constructor
    · exact fun h => ⟨cs, heq, h⟩
    · rintro ⟨cs', heq', h⟩
      cases heq.symm.trans heq'
      exact h
  · rename_i hnot
    refine iff_of_false Bool.false_ne_true ?_
    rintro ⟨cs, heq, -⟩
    exact hnot cs heq

theorem utf16Length_of_isHex {n : ℕ} {s : String} (h : isHex n s = true) :
    utf16Length s = n + 2 := by
  obtain ⟨cs, heq, hlength, hdigits⟩ := isHex_iff.mp h
  rw [utf16Length_of_ascii, heq, List.length_cons, List.length_cons, hlength]
  rw [heq]
  exact List.forall_mem_cons.mpr ⟨by decide, List.forall_mem_cons.mpr
    ⟨by decide, fun c hc => isHexDigit_ascii (hdigits c hc)⟩⟩

def ADDRESS_RE : String → Bool := isHex 40
def HASH32_RE : String → Bool := isHex 64
def SIGNATURE_RE : String → Bool := isHex 130

def UINT_DECIMAL_RE (s : String) : Bool := isCanonicalDecimal s.toList

def MAX_SAFE_INTEGER : ℕ := 2 ^ 53 - 1

def MAX_UINT256 : ℤ := 2 ^ 256 - 1

def MAX_UINT256_DECIMAL_DIGITS : ℕ := 78

def uint256Of (v : String) : Option ℤ :=
  if utf16Length v > MAX_UINT256_DECIMAL_DIGITS then none else bigInt v

def zUintString (v : String) : Bool :=
  UINT_DECIMAL_RE v &&
    match uint256Of v with
    | none => false
    | some n => decide (n ≤ MAX_UINT256)

def zUintStringBelowMax (v : String) : Bool :=
  UINT_DECIMAL_RE v &&
    match uint256Of v with
    | none => false
    | some n => decide (n < MAX_UINT256)

def zChainId : Json → Option ℕ := Json.nat? fun n => decide (0 < n ∧ n ≤ MAX_SAFE_INTEGER)

def zDeadlineSeconds : Json → Option ℕ := Json.nat? fun n => decide (n ≤ MAX_SAFE_INTEGER)

def zAddress : Json → Option Address := Json.stringWhere? ADDRESS_RE

structure IntentRef where
  id : String
  deriving DecidableEq, Repr

structure IntentRequestBindingBody where
  chainId : ℕ
  facility : Address
  intent : IntentRef
  requestContract : Address
  deadline : ℕ
  deriving DecidableEq, Repr

structure IntentFundBindingBody where
  chainId : ℕ
  facility : Address
  intent : IntentRef
  fundContract : Address
  positionManager : Address
  deadline : ℕ
  deriving DecidableEq, Repr

structure SwapLeg where
  intent : IntentRef
  asset : Address
  amount : String
  deriving DecidableEq, Repr

structure IntentSwapBody where
  chainId : ℕ
  facility : Address
  legs : List SwapLeg
  deadline : ℕ
  deriving DecidableEq, Repr

inductive WhitelistOperation where
  | whitelist
  | unwhitelist
  deriving DecidableEq, Repr

structure RequestWhitelistingBody where
  chainId : ℕ
  whitelistBook : Address
  operation : WhitelistOperation
  requestContracts : List Address
  nonce : String
  deadline : ℕ
  deriving DecidableEq, Repr

def IntentRef.accept (j : Json) : Option IntentRef := do
  guard (j.isStrictObject ["id"])
  let id ← (j.get? "id").bind (Json.stringWhere? zUintString)
  return ⟨id⟩

def IntentRequestBindingBody.accept (j : Json) : Option IntentRequestBindingBody := do
  guard (j.isStrictObject ["chainId", "facility", "intent", "requestContract", "deadline"])
  let chainId ← (j.get? "chainId").bind zChainId
  let facility ← (j.get? "facility").bind zAddress
  let intent ← (j.get? "intent").bind IntentRef.accept
  let requestContract ← (j.get? "requestContract").bind zAddress
  let deadline ← (j.get? "deadline").bind zDeadlineSeconds
  return ⟨chainId, facility, intent, requestContract, deadline⟩

def IntentFundBindingBody.accept (j : Json) : Option IntentFundBindingBody := do
  guard (j.isStrictObject
    ["chainId", "facility", "intent", "fundContract", "positionManager", "deadline"])
  let chainId ← (j.get? "chainId").bind zChainId
  let facility ← (j.get? "facility").bind zAddress
  let intent ← (j.get? "intent").bind IntentRef.accept
  let fundContract ← (j.get? "fundContract").bind zAddress
  let positionManager ← (j.get? "positionManager").bind zAddress
  let deadline ← (j.get? "deadline").bind zDeadlineSeconds
  return ⟨chainId, facility, intent, fundContract, positionManager, deadline⟩

def SwapLeg.accept (j : Json) : Option SwapLeg := do
  guard (j.isStrictObject ["intent", "asset", "amount"])
  let intent ← (j.get? "intent").bind IntentRef.accept
  let asset ← (j.get? "asset").bind zAddress
  let amount ← (j.get? "amount").bind (Json.stringWhere? zUintString)
  return ⟨intent, asset, amount⟩

def IntentSwapBody.accept (j : Json) : Option IntentSwapBody := do
  guard (j.isStrictObject ["chainId", "facility", "legs", "deadline"])
  let chainId ← (j.get? "chainId").bind zChainId
  let facility ← (j.get? "facility").bind zAddress
  let legs ← (j.get? "legs").bind fun l => l.array?.bind fun items => items.mapM SwapLeg.accept
  guard (decide (legs.length = 2))
  let deadline ← (j.get? "deadline").bind zDeadlineSeconds
  return ⟨chainId, facility, legs, deadline⟩

def zWhitelistOperation (j : Json) : Option WhitelistOperation :=
  j.string?.bind fun s =>
    if s = "whitelist" then some .whitelist
    else if s = "unwhitelist" then some .unwhitelist
    else none

def zRequestContracts (j : Json) : Option (List Address) := do
  let items ← j.array?
  let contracts ← items.mapM zAddress
  guard (decide (1 ≤ contracts.length))
  guard (decide (contracts.map toLowerCase).Nodup)
  return contracts

def RequestWhitelistingBody.accept (j : Json) : Option RequestWhitelistingBody := do
  guard (j.isStrictObject
    ["chainId", "whitelistBook", "operation", "requestContracts", "nonce", "deadline"])
  let chainId ← (j.get? "chainId").bind zChainId
  let whitelistBook ← (j.get? "whitelistBook").bind zAddress
  let operation ← (j.get? "operation").bind zWhitelistOperation
  let requestContracts ← (j.get? "requestContracts").bind zRequestContracts
  let nonce ← (j.get? "nonce").bind (Json.stringWhere? zUintStringBelowMax)
  let deadline ← (j.get? "deadline").bind zDeadlineSeconds
  return ⟨chainId, whitelistBook, operation, requestContracts, nonce, deadline⟩

def IntentRequestBindingBody.lowered (b : IntentRequestBindingBody) : IntentRequestBindingBody :=
  { b with facility := toLowerCase b.facility, requestContract := toLowerCase b.requestContract }

def IntentFundBindingBody.lowered (b : IntentFundBindingBody) : IntentFundBindingBody :=
  { b with
    facility := toLowerCase b.facility
    fundContract := toLowerCase b.fundContract
    positionManager := toLowerCase b.positionManager }

def SwapLeg.lowered (l : SwapLeg) : SwapLeg := { l with asset := toLowerCase l.asset }

def IntentSwapBody.lowered (b : IntentSwapBody) : IntentSwapBody :=
  { b with facility := toLowerCase b.facility, legs := b.legs.map SwapLeg.lowered }

def RequestWhitelistingBody.lowered (b : RequestWhitelistingBody) : RequestWhitelistingBody :=
  { b with
    whitelistBook := toLowerCase b.whitelistBook
    requestContracts := b.requestContracts.map toLowerCase }

def zIntentRequestBindingBody (j : Json) : Option IntentRequestBindingBody :=
  (IntentRequestBindingBody.accept j).map IntentRequestBindingBody.lowered

def zIntentFundBindingBody (j : Json) : Option IntentFundBindingBody :=
  (IntentFundBindingBody.accept j).map IntentFundBindingBody.lowered

def zIntentSwapBody (j : Json) : Option IntentSwapBody :=
  (IntentSwapBody.accept j).map IntentSwapBody.lowered

def zRequestWhitelistingBody (j : Json) : Option RequestWhitelistingBody :=
  (RequestWhitelistingBody.accept j).map RequestWhitelistingBody.lowered

end Guardian
