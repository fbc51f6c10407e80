import Guardian.Core.Accepted
import Mathlib.Data.List.Forall2

/-!
# The payload determines the request

The five struct kinds over the accepted bodies. Two requests get one domain, primary
type and message exactly when they are the same request: the legs of a swap are an
unordered pair, addresses are compared without regard to case, and the position
manager of a fund binding is not signed.
-/

namespace Guardian
open Text

inductive SigningBody where
  | requestBinding (body : IntentRequestBindingBody)
  | fundBinding (body : IntentFundBindingBody)
  | swap (body : IntentSwapBody)
  | whitelisting (body : RequestWhitelistingBody)
  deriving DecidableEq, Repr

namespace SigningBody

/-- Accepted by its schema, before the address transform. -/
def Accepted : SigningBody → Prop
  | requestBinding body => ∃ j, IntentRequestBindingBody.accept j = some body
  | fundBinding body => ∃ j, IntentFundBindingBody.accept j = some body
  | swap body => ∃ j, IntentSwapBody.accept j = some body
  | whitelisting body => ∃ j, RequestWhitelistingBody.accept j = some body

/-- The payload a sign runner builds once the schema has lowered the addresses. -/
def payload (resolved : Eip712DomainNameVersion) (validator : Address) :
    SigningBody → Except Thrown TypedData
  | requestBinding body => buildIntentRequestBindingTypedData
      ⟨resolved.name, resolved.version, body.lowered.chainId, body.lowered.facility⟩ body.lowered
  | fundBinding body => buildIntentFundBindingTypedData
      ⟨resolved.name, resolved.version, body.lowered.chainId, body.lowered.facility⟩ body.lowered
  | swap body => buildIntentSwapTypedData
      ⟨resolved.name, resolved.version, body.lowered.chainId, body.lowered.facility⟩ body.lowered
  | whitelisting body => buildRequestWhitelistingTypedData
      ⟨resolved.name, resolved.version, body.lowered.chainId, body.lowered.whitelistBook⟩
      body.lowered validator

end SigningBody

def SameAddress (a b : Address) : Prop := toLowerCase a = toLowerCase b

def SameLeg (a b : SwapLeg) : Prop :=
  a.intent.id = b.intent.id ∧ SameAddress a.asset b.asset ∧ a.amount = b.amount

def SameLegs : List SwapLeg → List SwapLeg → Prop
  | [a, b], [c, d] => (SameLeg a c ∧ SameLeg b d) ∨ (SameLeg a d ∧ SameLeg b c)
  | _, _ => False

def SameRequest : SigningBody → SigningBody → Prop
  | .requestBinding a, .requestBinding b =>
    a.chainId = b.chainId ∧ SameAddress a.facility b.facility ∧ a.deadline = b.deadline ∧
      a.intent.id = b.intent.id ∧ SameAddress a.requestContract b.requestContract
  | .fundBinding a, .fundBinding b =>
    a.chainId = b.chainId ∧ SameAddress a.facility b.facility ∧ a.deadline = b.deadline ∧
      a.intent.id = b.intent.id ∧ SameAddress a.fundContract b.fundContract
  | .swap a, .swap b =>
    a.chainId = b.chainId ∧ SameAddress a.facility b.facility ∧ a.deadline = b.deadline ∧
      SameLegs a.legs b.legs
  | .whitelisting a, .whitelisting b =>
    a.chainId = b.chainId ∧ SameAddress a.whitelistBook b.whitelistBook ∧
      a.deadline = b.deadline ∧ a.operation = b.operation ∧ a.nonce = b.nonce ∧
      List.Forall₂ SameAddress a.requestContracts b.requestContracts
  | _, _ => False

/-- What EIP-712 encodes; the type list is fixed by the primary type. -/
def TypedData.triple (td : TypedData) : Eip712Domain × String × List (String × FieldValue) :=
  (td.domain, td.primaryType, td.message)

section Payload
variable {resolved : Eip712DomainNameVersion} {validator : Address}

def decimal (s : String) : ℤ := decimalValue s.toList

theorem decimal_eq {s t : String} (hs : UINT_DECIMAL_RE s = true) (ht : UINT_DECIMAL_RE t = true) :
    decimal s = decimal t ↔ s = t :=
  ⟨fun h => decimal_injective hs ht (Int.ofNat_inj.mp h), fun h => h ▸ rfl⟩

theorem assertVerifyingContract_self (builder field name version : String) (chainId : ℕ)
    (target : Address) :
    assertVerifyingContract builder field ⟨name, version, chainId, target⟩ target = .ok () :=
  if_pos rfl

theorem buildIntentRequestBinding_decimal {body : IntentRequestBindingBody}
    (h : UINT_DECIMAL_RE body.intent.id = true) :
    buildIntentRequestBindingTypedData
      ⟨resolved.name, resolved.version, body.chainId, body.facility⟩ body =
      .ok ⟨⟨resolved.name, resolved.version, body.chainId, body.facility⟩, setRequestParamsTypes,
        "SetRequestParams", [("id", .uint (decimal body.intent.id)),
          ("newRequest", .address body.requestContract), ("deadline", .uint body.deadline)]⟩ := by
  rw [buildIntentRequestBindingTypedData, assertVerifyingContract_self, toBigInt_decimal h]
  rfl

theorem buildIntentFundBinding_decimal {body : IntentFundBindingBody}
    (h : UINT_DECIMAL_RE body.intent.id = true) :
    buildIntentFundBindingTypedData
      ⟨resolved.name, resolved.version, body.chainId, body.facility⟩ body =
      .ok ⟨⟨resolved.name, resolved.version, body.chainId, body.facility⟩, setFundParamsTypes,
        "SetFundParams", [("id", .uint (decimal body.intent.id)),
          ("newFund", .address body.fundContract), ("deadline", .uint body.deadline)]⟩ := by
  rw [buildIntentFundBindingTypedData, assertVerifyingContract_self, toBigInt_decimal h]
  rfl

def swapMessage (first second : SwapLeg) (deadline : ℕ) : List (String × FieldValue) :=
  [("id1", .uint (decimal first.intent.id)), ("token1", .address first.asset),
    ("id2", .uint (decimal second.intent.id)), ("token2", .address second.asset),
    ("amount1", .uint (decimal first.amount)), ("amount2", .uint (decimal second.amount)),
    ("deadline", .uint deadline)]

theorem buildIntentSwap_decimal {body : IntentSwapBody} {first second : SwapLeg}
    (hlegs : canonicaliseSwapLegs body.legs = .ok (first, second)) (h₁ : first.Decimal)
    (h₂ : second.Decimal) :
    buildIntentSwapTypedData ⟨resolved.name, resolved.version, body.chainId, body.facility⟩ body =
      .ok ⟨⟨resolved.name, resolved.version, body.chainId, body.facility⟩, swapParamsTypes,
        "SwapParams", swapMessage first second body.deadline⟩ := by
  rw [buildIntentSwapTypedData, assertVerifyingContract_self, hlegs]
  simp only [ok_bind, toBigInt_decimal h₁.1, toBigInt_decimal h₁.2, toBigInt_decimal h₂.1,
    toBigInt_decimal h₂.2]
  rfl

def WhitelistOperation.primaryType : WhitelistOperation → String
  | .whitelist => "WhitelistRequest"
  | .unwhitelist => "UnwhitelistRequest"

def WhitelistOperation.types : WhitelistOperation → List (String × List FieldType)
  | .whitelist => whitelistRequestTypes
  | .unwhitelist => unwhitelistRequestTypes

theorem buildRequestWhitelisting_decimal {body : RequestWhitelistingBody}
    (h : UINT_DECIMAL_RE body.nonce = true) :
    buildRequestWhitelistingTypedData
      ⟨resolved.name, resolved.version, body.chainId, body.whitelistBook⟩ body validator =
      .ok ⟨⟨resolved.name, resolved.version, body.chainId, body.whitelistBook⟩,
        body.operation.types, body.operation.primaryType,
        [("targets", .addressArray body.requestContracts), ("deadline", .uint body.deadline),
          ("validator", .address validator), ("nonce", .uint (decimal body.nonce))]⟩ := by
  rw [buildRequestWhitelistingTypedData]
  cases hop : body.operation with
  | whitelist =>
    simp only [buildWhitelistRequestTypedData, assertVerifyingContract_self, messageOf,
      toBigInt_decimal h, ok_bind]
    rfl
  | unwhitelist =>
    simp only [buildUnwhitelistRequestTypedData, assertVerifyingContract_self, messageOf,
      toBigInt_decimal h, ok_bind]
    rfl

end Payload

theorem swapLeg_eq {a b : SwapLeg} (hid : a.intent.id = b.intent.id) (hasset : a.asset = b.asset)
    (hamount : a.amount = b.amount) : a = b := by
  obtain ⟨⟨idA⟩, assetA, amountA⟩ := a
  obtain ⟨⟨idB⟩, assetB, amountB⟩ := b
  obtain rfl : idA = idB := hid
  obtain rfl : assetA = assetB := hasset
  obtain rfl : amountA = amountB := hamount
  rfl

theorem sameLeg_iff {a b : SwapLeg} : SameLeg a b ↔ a.lowered = b.lowered := by
  constructor
  · rintro ⟨hid, hasset, hamount⟩
    exact swapLeg_eq hid hasset hamount
  · intro h
    have hid : a.lowered.intent.id = b.lowered.intent.id := by rw [h]
    have hasset : a.lowered.asset = b.lowered.asset := by rw [h]
    have hamount : a.lowered.amount = b.lowered.amount := by rw [h]
    exact ⟨hid, hasset, hamount⟩

theorem swapMessage_eq {a b c d : SwapLeg} {n m : ℕ} (ha : a.Decimal) (hb : b.Decimal)
    (hc : c.Decimal) (hd : d.Decimal) :
    swapMessage a b n = swapMessage c d m ↔ (a, b) = (c, d) ∧ n = m := by
  constructor
  · intro h
    simp only [swapMessage, List.cons.injEq, Prod.mk.injEq, FieldValue.uint.injEq,
      FieldValue.address.injEq, true_and, and_true, decimal_eq ha.1 hc.1, decimal_eq hb.1 hd.1,
      decimal_eq ha.2 hc.2, decimal_eq hb.2 hd.2, Int.ofNat_inj] at h
    obtain ⟨hid₁, hasset₁, hid₂, hasset₂, hamount₁, hamount₂, hdeadline⟩ := h
    exact ⟨Prod.ext (swapLeg_eq hid₁ hasset₁ hamount₁) (swapLeg_eq hid₂ hasset₂ hamount₂),
      hdeadline⟩
  · rintro ⟨h, rfl⟩
    cases h
    rfl

theorem canonicaliseSwapLegs_cases {a b : SwapLeg} (ha : a.Decimal) (hb : b.Decimal) :
    canonicaliseSwapLegs [a, b] = .ok (a, b) ∨ canonicaliseSwapLegs [a, b] = .ok (b, a) := by
  rw [canonicaliseSwapLegs_decimal ha hb]
  split_ifs <;> simp

theorem canonical_eq_iff {a b c d : SwapLeg} (ha : a.Decimal) (hb : b.Decimal) (hc : c.Decimal)
    (hd : d.Decimal) :
    canonicaliseSwapLegs [a.lowered, b.lowered] = canonicaliseSwapLegs [c.lowered, d.lowered] ↔
      SameLegs [a, b] [c, d] := by
  have ha : a.lowered.Decimal := ha
  have hb : b.lowered.Decimal := hb
  have hc : c.lowered.Decimal := hc
  have hd : d.lowered.Decimal := hd
  have hcomm := canonicaliseSwapLegs_comm hc hd (toLowerCase_idem _) (toLowerCase_idem _)
  rw [SameLegs, sameLeg_iff, sameLeg_iff, sameLeg_iff, sameLeg_iff]
  constructor
  · intro h
    rcases canonicaliseSwapLegs_cases ha hb with h₁ | h₁ <;>
      rcases canonicaliseSwapLegs_cases hc hd with h₂ | h₂ <;>
      rw [h₁, h₂, Except.ok.injEq, Prod.mk.injEq] at h
    · exact .inl h
    · exact .inr h
    · exact .inr h.symm
    · exact .inl h.symm
  · rintro (⟨h₁, h₂⟩ | ⟨h₁, h₂⟩)
    · rw [h₁, h₂]
    · rw [h₁, h₂, hcomm]

def canonicalMessage (legs : List SwapLeg) (deadline : ℕ) : List (String × FieldValue) :=
  match canonicaliseSwapLegs legs with
  | .ok (first, second) => swapMessage first second deadline
  | .error _ => []

theorem canonicalMessage_eq {a b c d : SwapLeg} {n m : ℕ} (ha : a.Decimal) (hb : b.Decimal)
    (hc : c.Decimal) (hd : d.Decimal) :
    canonicalMessage [a, b] n = canonicalMessage [c, d] m ↔
      canonicaliseSwapLegs [a, b] = canonicaliseSwapLegs [c, d] ∧ n = m := by
  unfold canonicalMessage
  rcases canonicaliseSwapLegs_cases ha hb with h₁ | h₁ <;>
    rcases canonicaliseSwapLegs_cases hc hd with h₂ | h₂ <;>
    rw [h₁, h₂, Except.ok.injEq]
  · exact swapMessage_eq ha hb hc hd
  · exact swapMessage_eq ha hb hd hc
  · exact swapMessage_eq hb ha hc hd
  · exact swapMessage_eq hb ha hd hc

theorem forall₂_sameAddress {as bs : List Address} :
    List.Forall₂ SameAddress as bs ↔ as.map toLowerCase = bs.map toLowerCase := by
  induction as generalizing bs with
  | nil => cases bs <;> simp
  | cons a as ih =>
    cases bs with
    | nil => simp
    | cons b bs => simp only [List.forall₂_cons, ih, List.map_cons, List.cons.injEq, SameAddress]

namespace SigningBody

def signed (resolved : Eip712DomainNameVersion) (validator : Address) :
    SigningBody → Eip712Domain × String × List (String × FieldValue)
  | requestBinding b =>
    (⟨resolved.name, resolved.version, b.chainId, toLowerCase b.facility⟩, "SetRequestParams",
      [("id", .uint (decimal b.intent.id)),
        ("newRequest", .address (toLowerCase b.requestContract)),
        ("deadline", .uint b.deadline)])
  | fundBinding b =>
    (⟨resolved.name, resolved.version, b.chainId, toLowerCase b.facility⟩, "SetFundParams",
      [("id", .uint (decimal b.intent.id)), ("newFund", .address (toLowerCase b.fundContract)),
        ("deadline", .uint b.deadline)])
  | swap b =>
    (⟨resolved.name, resolved.version, b.chainId, toLowerCase b.facility⟩, "SwapParams",
      canonicalMessage b.lowered.legs b.deadline)
  | whitelisting b =>
    (⟨resolved.name, resolved.version, b.chainId, toLowerCase b.whitelistBook⟩,
      b.operation.primaryType,
      [("targets", .addressArray (b.requestContracts.map toLowerCase)),
        ("deadline", .uint b.deadline), ("validator", .address validator),
        ("nonce", .uint (decimal b.nonce))])

section Signed
variable (resolved : Eip712DomainNameVersion) (validator : Address)

theorem payload_signed {x : SigningBody} (h : x.Accepted) :
    ∃ td, x.payload resolved validator = .ok td ∧ td.triple = x.signed resolved validator := by
  cases x with
  | requestBinding b =>
    obtain ⟨j, h⟩ := h
    have hid : UINT_DECIMAL_RE b.lowered.intent.id = true := b.accept_decimal h
    exact ⟨_, buildIntentRequestBinding_decimal hid, rfl⟩
  | fundBinding b =>
    obtain ⟨j, h⟩ := h
    have hid : UINT_DECIMAL_RE b.lowered.intent.id = true := b.accept_decimal h
    exact ⟨_, buildIntentFundBinding_decimal hid, rfl⟩
  | swap b =>
    obtain ⟨j, h⟩ := h
    obtain ⟨l₁, l₂, hlegs, h₁, h₂⟩ := b.accept_legs h
    have hlowered : b.lowered.legs = [l₁.lowered, l₂.lowered] := by
      simp [IntentSwapBody.lowered, hlegs]
    have h₁ : l₁.lowered.Decimal := h₁
    have h₂ : l₂.lowered.Decimal := h₂
    rcases canonicaliseSwapLegs_cases h₁ h₂ with hc | hc
    · refine ⟨_, buildIntentSwap_decimal (hlowered ▸ hc) h₁ h₂, ?_⟩
      simp only [TypedData.triple, signed, hlowered, canonicalMessage, hc]
      rfl
    · refine ⟨_, buildIntentSwap_decimal (hlowered ▸ hc) h₂ h₁, ?_⟩
      simp only [TypedData.triple, signed, hlowered, canonicalMessage, hc]
      rfl
  | whitelisting b =>
    obtain ⟨j, h⟩ := h
    have hnonce : UINT_DECIMAL_RE b.lowered.nonce = true := b.accept_decimal h
    exact ⟨_, buildRequestWhitelisting_decimal hnonce, rfl⟩

theorem signed_swap_eq_iff {a b : IntentSwapBody} (ha : (swap a).Accepted)
    (hb : (swap b).Accepted) :
    (swap a).signed resolved validator = (swap b).signed resolved validator ↔
      SameRequest (.swap a) (.swap b) := by
  obtain ⟨_, ha⟩ := ha
  obtain ⟨_, hb⟩ := hb
  obtain ⟨a₁, a₂, halegs, ha₁, ha₂⟩ := a.accept_legs ha
  obtain ⟨b₁, b₂, hblegs, hb₁, hb₂⟩ := b.accept_legs hb
  have hlowerA : a.lowered.legs = [a₁.lowered, a₂.lowered] := by
    simp [IntentSwapBody.lowered, halegs]
  have hlowerB : b.lowered.legs = [b₁.lowered, b₂.lowered] := by
    simp [IntentSwapBody.lowered, hblegs]
  have hcanonical := canonical_eq_iff ha₁ ha₂ hb₁ hb₂
  have hmessage : canonicalMessage a.lowered.legs a.deadline =
      canonicalMessage b.lowered.legs b.deadline ↔ SameLegs a.legs b.legs ∧
        a.deadline = b.deadline := by
    rw [hlowerA, hlowerB, halegs, hblegs, ← hcanonical]
    exact canonicalMessage_eq ha₁ ha₂ hb₁ hb₂
  simp only [signed, SameRequest, SameAddress, Prod.mk.injEq, Eip712Domain.mk.injEq, true_and,
    hmessage]
  exact ⟨fun ⟨⟨hc, hf⟩, hl, hd⟩ => ⟨hc, hf, hd, hl⟩, fun ⟨hc, hf, hd, hl⟩ => ⟨⟨hc, hf⟩, hl, hd⟩⟩

def primaryType : SigningBody → String
  | requestBinding _ => "SetRequestParams"
  | fundBinding _ => "SetFundParams"
  | swap _ => "SwapParams"
  | whitelisting b => b.operation.primaryType

theorem signed_ne {resolved : Eip712DomainNameVersion} {validator : Address} {x y : SigningBody}
    (h : x.primaryType ≠ y.primaryType) :
    x.signed resolved validator ≠ y.signed resolved validator := by
  have hsigned : ∀ z : SigningBody, (z.signed resolved validator).2.1 = z.primaryType := by
    intro z
    cases z <;> rfl
  intro he
  rw [← hsigned, ← hsigned, he] at h
  exact h rfl

theorem operation_primaryType (op : WhitelistOperation) :
    op.primaryType ≠ "SetRequestParams" ∧ op.primaryType ≠ "SetFundParams" ∧
      op.primaryType ≠ "SwapParams" := by
  cases op <;> decide

theorem struct_primaryType : "SetRequestParams" ≠ "SetFundParams" ∧
    "SetRequestParams" ≠ "SwapParams" ∧ "SetFundParams" ≠ "SwapParams" := by decide

theorem signed_eq_iff {x y : SigningBody} (hx : x.Accepted) (hy : y.Accepted) :
    x.signed resolved validator = y.signed resolved validator ↔ SameRequest x y := by
  obtain ⟨hrf, hrs, hfs⟩ := struct_primaryType
  cases x with
  | requestBinding a =>
    cases y with
    | requestBinding b =>
      obtain ⟨⟨_, ha⟩, ⟨_, hb⟩⟩ := And.intro hx hy
      simp only [signed, SameRequest, SameAddress, Prod.mk.injEq, Eip712Domain.mk.injEq,
        List.cons.injEq, FieldValue.uint.injEq, FieldValue.address.injEq, true_and, and_true,
        Int.ofNat_inj, decimal_eq (a.accept_decimal ha) (b.accept_decimal hb)]
      exact ⟨fun ⟨⟨hc, hf⟩, hi, hr, hd⟩ => ⟨hc, hf, hd, hi, hr⟩,
        fun ⟨hc, hf, hd, hi, hr⟩ => ⟨⟨hc, hf⟩, hi, hr, hd⟩⟩
    | fundBinding b => exact iff_of_false (signed_ne hrf) id
    | swap b => exact iff_of_false (signed_ne hrs) id
    | whitelisting b =>
      exact iff_of_false (signed_ne (operation_primaryType b.operation).1.symm) id
  | fundBinding a =>
    cases y with
    | requestBinding b => exact iff_of_false (signed_ne hrf.symm) id
    | fundBinding b =>
      obtain ⟨⟨_, ha⟩, ⟨_, hb⟩⟩ := And.intro hx hy
      simp only [signed, SameRequest, SameAddress, Prod.mk.injEq, Eip712Domain.mk.injEq,
        List.cons.injEq, FieldValue.uint.injEq, FieldValue.address.injEq, true_and, and_true,
        Int.ofNat_inj, decimal_eq (a.accept_decimal ha) (b.accept_decimal hb)]
      exact ⟨fun ⟨⟨hc, hf⟩, hi, hr, hd⟩ => ⟨hc, hf, hd, hi, hr⟩,
        fun ⟨hc, hf, hd, hi, hr⟩ => ⟨⟨hc, hf⟩, hi, hr, hd⟩⟩
    | swap b => exact iff_of_false (signed_ne hfs) id
    | whitelisting b =>
      exact iff_of_false (signed_ne (operation_primaryType b.operation).2.1.symm) id
  | swap a =>
    cases y with
    | requestBinding b => exact iff_of_false (signed_ne hrs.symm) id
    | fundBinding b => exact iff_of_false (signed_ne hfs.symm) id
    | swap b => exact signed_swap_eq_iff resolved validator hx hy
    | whitelisting b =>
      exact iff_of_false (signed_ne (operation_primaryType b.operation).2.2.symm) id
  | whitelisting a =>
    cases y with
    | requestBinding b => exact iff_of_false (signed_ne (operation_primaryType a.operation).1) id
    | fundBinding b => exact iff_of_false (signed_ne (operation_primaryType a.operation).2.1) id
    | swap b => exact iff_of_false (signed_ne (operation_primaryType a.operation).2.2) id
    | whitelisting b =>
      obtain ⟨⟨_, ha⟩, ⟨_, hb⟩⟩ := And.intro hx hy
      have hop : a.operation.primaryType = b.operation.primaryType ↔
          a.operation = b.operation := by
        cases a.operation <;> cases b.operation <;> decide
      simp only [signed, SameRequest, SameAddress, Prod.mk.injEq, Eip712Domain.mk.injEq,
        List.cons.injEq, FieldValue.uint.injEq, FieldValue.addressArray.injEq, true_and, and_true,
        Int.ofNat_inj, decimal_eq (a.accept_decimal ha) (b.accept_decimal hb), hop,
        forall₂_sameAddress]
      exact ⟨fun ⟨⟨hc, hf⟩, ho, ht, hd, hn⟩ => ⟨hc, hf, hd, ho, hn, ht⟩,
        fun ⟨hc, hf, hd, ho, hn, ht⟩ => ⟨⟨hc, hf⟩, ho, ht, hd, hn⟩⟩

end Signed
end SigningBody

/-- One domain, primary type and message: one request. -/
theorem payload_determines_request (resolved : Eip712DomainNameVersion) (validator : Address)
    (x y : SigningBody) (hx : x.Accepted) (hy : y.Accepted) :
    ∃ tdX tdY, x.payload resolved validator = .ok tdX ∧ y.payload resolved validator = .ok tdY ∧
      (tdX.triple = tdY.triple ↔ SameRequest x y) ∧
      ∀ digest : Eip712Domain × String × List (String × FieldValue) → String,
        Function.Injective digest → digest tdX.triple = digest tdY.triple → SameRequest x y := by
  obtain ⟨tdX, hpayloadX, hsignedX⟩ := SigningBody.payload_signed resolved validator hx
  obtain ⟨tdY, hpayloadY, hsignedY⟩ := SigningBody.payload_signed resolved validator hy
  have hiff : tdX.triple = tdY.triple ↔ SameRequest x y := by
    rw [hsignedX, hsignedY]
    exact SigningBody.signed_eq_iff resolved validator hx hy
  exact ⟨tdX, tdY, hpayloadX, hpayloadY, hiff, fun _ hinj hdigest => hiff.mp (hinj hdigest)⟩

namespace Sample

def bindingJson (facility : Address) : Json :=
  .obj [("chainId", .num 1), ("facility", .str facility), ("intent", .obj [("id", .str "7")]),
    ("requestContract", .str "0x00000000000000000000000000000000000000c3"),
    ("deadline", .num 1050)]

def binding (facility : Address) : SigningBody :=
  .requestBinding ⟨1, facility, ⟨"7"⟩, "0x00000000000000000000000000000000000000c3", 1050⟩

end Sample

/-- One facility in two spellings: the requests are one, and so are the payloads. -/
theorem payload_determines_request_spelling :
    ∃ tdX tdY,
      (Sample.binding "0x00000000000000000000000000000000000000FA").payload ⟨"F", "1"⟩ "0xg" =
        .ok tdX ∧
      (Sample.binding "0x00000000000000000000000000000000000000fa").payload ⟨"F", "1"⟩ "0xg" =
        .ok tdY ∧ tdX.triple = tdY.triple := by
  obtain ⟨tdX, tdY, hX, hY, hiff, _⟩ := payload_determines_request ⟨"F", "1"⟩ "0xg"
    (Sample.binding "0x00000000000000000000000000000000000000FA")
    (Sample.binding "0x00000000000000000000000000000000000000fa")
    ⟨Sample.bindingJson "0x00000000000000000000000000000000000000FA", by decide +kernel⟩
    ⟨Sample.bindingJson "0x00000000000000000000000000000000000000fa", by decide +kernel⟩
  have hfacility : SameAddress "0x00000000000000000000000000000000000000FA"
      "0x00000000000000000000000000000000000000fa" := by
    unfold SameAddress
    decide
  exact ⟨tdX, tdY, hX, hY, hiff.mpr ⟨rfl, hfacility, rfl, rfl, rfl⟩⟩

end Guardian
