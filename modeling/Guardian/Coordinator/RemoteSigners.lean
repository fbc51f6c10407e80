import Guardian.Core.SignRunners
import Guardian.Lib.Secp256k1

/-!
# The signers outside the process

A signing service over HTTP and the two key management services, as functions of what they
answer. viem, noble and `Buffer` are parameters. A signature leaves a signer only after it was
recovered to the configured address.
-/

namespace Guardian
open Text

structure Crypto where
  isAddress : String → Bool
  isHex : String → Bool
  hashTypedData : TypedData → Except Thrown String
  recoverAddress : String → String → Except Thrown Address
  fromDER : List UInt8 → Except Thrown Secp256k1.Signature
  normalizeS : Secp256k1.Signature → Secp256k1.Signature
  toCompactHex : Secp256k1.Signature → String
  /-- `Buffer.from(value, "base64")`. -/
  bufferFrom : String → List UInt8

section Signers
variable (c : Crypto)

/-- What came of `response.json()`; a rejection says whether the budget had run out. -/
inductive JsonRead where
  | parsed (payload : Json)
  | rejected (aborted : Bool)

inductive Fetched where
  | rejected (aborted : Bool)
  | response (status : ℕ) (json : JsonRead)

structure RemoteHttpArgs where
  guardianSigner : Address
  timeoutMs : ℕ

def isSignatureHex (value : String) : Bool := c.isHex value && decide (utf16Length value = 132)

def signatureFromRemotePayload (payload : Json) : Option String :=
  match payload with
  | .str s => if isSignatureHex c s then some s else none
  | _ =>
    match (payload.get? "signature").bind Json.string? with
    | some signature => if isSignatureHex c signature then some signature else none
    | none => none

def remoteSignerTimedOut (timeoutMs : ℕ) : SignTypedDataError :=
  .upstreamUnavailable s!"Remote signer request timed out after {timeoutMs}ms" 503

def remoteSignerRequestError (aborted : Bool) (timeoutMs : ℕ) : SignTypedDataError :=
  if aborted then remoteSignerTimedOut timeoutMs
  else .upstreamUnavailable "Remote signer request failed" 503

def readJson (timeoutMs : ℕ) : JsonRead → Except SignTypedDataError Json
  | .parsed payload => .ok payload
  | .rejected aborted =>
    if aborted then .error (remoteSignerTimedOut timeoutMs)
    else .error (.internalError "Remote signer response was not JSON")

def recoverSigner (parameters : TypedData) (signature : String) : Except Thrown Address := do
  let digest ← c.hashTypedData parameters
  c.recoverAddress digest signature

def remoteHttpSignTypedData (args : RemoteHttpArgs) (fetched : Fetched) (parameters : TypedData) :
    Except SignTypedDataError String :=
  match fetched with
  | .rejected aborted => .error (remoteSignerRequestError aborted args.timeoutMs)
  | .response status json =>
    if ¬ (200 ≤ status ∧ status ≤ 299) then
      .error (.upstreamUnavailable s!"Remote signer returned HTTP {status}"
        (if status ≥ 500 then 503 else 502))
    else
      match readJson args.timeoutMs json with
      | .error e => .error e
      | .ok payload =>
        match signatureFromRemotePayload c payload with
        | none => .error (.internalError "Remote signer response missing signature")
        | some signature =>
          match recoverSigner c parameters signature with
          | .error _ => .error (.internalError "Remote signer signature was not recoverable")
          | .ok recovered =>
            if toLowerCase recovered ≠ toLowerCase args.guardianSigner then
              .error (.internalError
                "Remote signer signature did not recover to GUARDIAN_SIGNER_ADDRESS")
            else .ok signature

/-- A truthy value of a response; another one than the two expected is read by `Buffer.from`. -/
inductive BytesLike where
  | uint8Array (bytes : List UInt8)
  | text (value : String)
  | other (read : Except Thrown (List UInt8))

def bytesLikeToUint8Array : BytesLike → Except Thrown (List UInt8)
  | .uint8Array bytes => .ok bytes
  | .text value => .ok (c.bufferFrom value)
  | .other read => read

/-- `0x`, the compact signature and `v`. -/
def serializedSignature (compact : String) (yParity : ℕ) : String :=
  "0x" ++ compact ++ padLeft 2 (String.ofList (Nat.toDigits 16 (27 + yParity)))

def firstRecovering (guardianSigner : Address) (digest compact : String) :
    List ℕ → Except Thrown String
  | [] => .error ⟨"KMS signature did not recover to GUARDIAN_SIGNER_ADDRESS"⟩
  | yParity :: rest =>
    match c.recoverAddress digest (serializedSignature compact yParity) with
    | .error e => .error e
    | .ok recovered =>
      if toLowerCase recovered = toLowerCase guardianSigner then
        .ok (serializedSignature compact yParity)
      else firstRecovering guardianSigner digest compact rest

def ethereumSignatureFromDer (digest : String) (derSignature : List UInt8)
    (guardianSigner : Address) : Except Thrown String := do
  let signature ← c.fromDER derSignature
  firstRecovering c guardianSigner digest (c.toCompactHex (c.normalizeS signature)) [0, 1]

def kmsSignTypedData (label : String) (guardianSigner : Address)
    (signed : Except Thrown BytesLike) (parameters : TypedData) :
    Except SignTypedDataError String :=
  match c.hashTypedData parameters with
  | .error e => .error (.thrown e)
  | .ok digest =>
    match signed.bind (bytesLikeToUint8Array c) with
    | .error _ => .error (.upstreamUnavailable s!"{label} sign request failed" 503)
    | .ok derSignature =>
      match ethereumSignatureFromDer c digest derSignature guardianSigner with
      | .error _ => .error (.internalError s!"{label} signature was not usable")
      | .ok signature => .ok signature

/-- The field of a response, unless it is falsy. -/
def present (missing : String) : Option BytesLike → Except Thrown BytesLike
  | none => .error ⟨missing⟩
  | some (.text "") => .error ⟨missing⟩
  | some value => .ok value

def awsSignDigest (sent : Except Thrown (Option BytesLike)) : Except Thrown BytesLike :=
  sent.bind (present "AWS KMS Sign response missing Signature")

def gcpSignDigest (sent : Except Thrown (Option (Option BytesLike))) : Except Thrown BytesLike :=
  sent.bind fun response => present "GCP KMS Sign response missing signature" response.join

inductive LoadedGuardianSigner where
  | remoteHttp (args : RemoteHttpArgs)
  | awsKms (guardianSigner : Address)
  | gcpKms (guardianSigner : Address)

namespace LoadedGuardianSigner

def guardianSigner : LoadedGuardianSigner → Address
  | remoteHttp args => args.guardianSigner
  | awsKms guardianSigner => guardianSigner
  | gcpKms guardianSigner => guardianSigner

abbrev Answer : LoadedGuardianSigner → Type
  | remoteHttp _ => Fetched
  | awsKms _ => Except Thrown (Option BytesLike)
  | gcpKms _ => Except Thrown (Option (Option BytesLike))

def signTypedData : (signer : LoadedGuardianSigner) → signer.Answer → TypedData →
    Except SignTypedDataError String
  | remoteHttp args, fetched => remoteHttpSignTypedData c args fetched
  | awsKms guardianSigner, sent =>
    kmsSignTypedData c "AWS KMS" guardianSigner (awsSignDigest sent)
  | gcpKms guardianSigner, sent =>
    kmsSignTypedData c "GCP KMS" guardianSigner (gcpSignDigest sent)

end LoadedGuardianSigner
end Signers

/-- The data that the builders make of accepted bodies, in the domain of the contract that the
body names; a whitelisting may have another nonce that its schema accepts. -/
inductive Built (c : Crypto) : TypedData → Prop where
  | setRequest {j : Json} {name version : String} {body : IntentRequestBindingBody}
      {td : TypedData} (accepted : zIntentRequestBindingBody j = some body)
      (h : buildIntentRequestBindingTypedData ⟨name, version, body.chainId, body.facility⟩ body =
        .ok td) : Built c td
  | setFund {j : Json} {name version : String} {body : IntentFundBindingBody} {td : TypedData}
      (accepted : zIntentFundBindingBody j = some body)
      (h : buildIntentFundBindingTypedData ⟨name, version, body.chainId, body.facility⟩ body =
        .ok td) : Built c td
  | swap {j : Json} {name version : String} {body : IntentSwapBody} {td : TypedData}
      (accepted : zIntentSwapBody j = some body)
      (h : buildIntentSwapTypedData ⟨name, version, body.chainId, body.facility⟩ body = .ok td) :
      Built c td
  | requestWhitelisting {j : Json} {name version nonce : String} {body : RequestWhitelistingBody}
      {validator : Address} {td : TypedData} (accepted : zRequestWhitelistingBody j = some body)
      (nonce_accepted : zUintStringBelowMax nonce = true)
      (address : c.isAddress validator = true)
      (h : buildRequestWhitelistingTypedData ⟨name, version, body.chainId, body.whitelistBook⟩
        { body with nonce } validator = .ok td) : Built c td

/-- The documented behaviour of the libraries. Hex strings stand for bytes, in any case. -/
structure Crypto.Documented (c : Crypto) : Prop where
  isHex_iff : ∀ s, c.isHex s = true ↔ ∃ n, Guardian.isHex n s = true
  hash_built : ∀ td, Built c td → ∃ digest, c.hashTypedData td = .ok digest
  hash_hex : ∀ td digest, c.hashTypedData td = .ok digest → HASH32_RE digest = true
  recover_case : ∀ digest signature, HASH32_RE digest = true → SIGNATURE_RE signature = true →
    c.recoverAddress (toLowerCase digest) (toLowerCase signature) =
      c.recoverAddress digest signature
  fromDER_der : ∀ sig : Secp256k1.Signature, c.fromDER sig.der = .ok sig
  normalizeS_eq : ∀ sig, c.normalizeS sig = sig.low
  toCompactHex_eq : ∀ sig, c.toCompactHex sig = String.ofList sig.compactHex
  bufferFrom_empty : c.bufferFrom "" = []

/-- `Valid signer digest sig` stands for a signature of the digest under the signer's key:
either parity recovers some address, one of them the signer's, and negating `s` swaps them. -/
structure Crypto.Recovers (c : Crypto) (Valid : Address → String → Secp256k1.Signature → Prop) :
    Prop where
  resolves : ∀ signer digest sig, Valid signer digest sig → ∀ yParity ∈ [0, 1],
    ∃ recovered, c.recoverAddress digest (serializedSignature (c.toCompactHex sig) yParity) =
      .ok recovered
  signer : ∀ signer digest sig, Valid signer digest sig → ∃ yParity ∈ [0, 1],
    ∃ recovered, c.recoverAddress digest (serializedSignature (c.toCompactHex sig) yParity) =
      .ok recovered ∧ toLowerCase recovered = toLowerCase signer
  negated : ∀ signer digest sig, Valid signer digest sig → ∀ yParity ∈ [0, 1],
    c.recoverAddress digest (serializedSignature (c.toCompactHex sig.negated) (1 - yParity)) =
      c.recoverAddress digest (serializedSignature (c.toCompactHex sig) yParity)

section Returned
variable {c : Crypto} (hc : c.Documented)

/-- 65 bytes that recover to the signer for the digest of the data. -/
structure IsGuardianSignature (c : Crypto) (guardianSigner : Address) (parameters : TypedData)
    (signature : String) : Prop where
  bytes : SIGNATURE_RE signature = true
  recovers : ∃ digest recovered, c.hashTypedData parameters = .ok digest ∧
    c.recoverAddress digest signature = .ok recovered ∧
    toLowerCase recovered = toLowerCase guardianSigner

include hc in
theorem isSignatureHex_bytes {value : String} (h : isSignatureHex c value = true) :
    SIGNATURE_RE value = true := by
  rw [isSignatureHex, Bool.and_eq_true, decide_eq_true_eq] at h
  obtain ⟨n, hn⟩ := (hc.isHex_iff value).mp h.1
  have hlength := utf16Length_of_isHex hn
  obtain rfl : n = 130 := by omega
  exact hn

theorem signatureFromRemotePayload_hex {payload : Json} {signature : String}
    (h : signatureFromRemotePayload c payload = some signature) :
    isSignatureHex c signature = true := by
  unfold signatureFromRemotePayload at h
  split at h
  · split at h
    · cases h
      assumption
    · cases h
  · split at h
    · split at h
      · cases h
        assumption
      · cases h
    · cases h

theorem remoteHttp_ok {args : RemoteHttpArgs} {fetched : Fetched} {parameters : TypedData}
    {signature : String}
    (h : remoteHttpSignTypedData c args fetched parameters = .ok signature) :
    isSignatureHex c signature = true ∧ ∃ recovered,
      recoverSigner c parameters signature = .ok recovered ∧
      toLowerCase recovered = toLowerCase args.guardianSigner := by
  unfold remoteHttpSignTypedData at h
  cases fetched with
  | rejected aborted => cases h
  | response status json =>
    dsimp only at h
    split at h
    · cases h
    · split at h
      · cases h
      · split at h
        · cases h
        · rename_i found hfound
          split at h
          · cases h
          · rename_i recovered hrecovered
            split at h
            · cases h
            · rename_i hsame
              cases h
              exact ⟨signatureFromRemotePayload_hex hfound, recovered, hrecovered, not_not.mp hsame⟩

theorem remoteHttp_error {args : RemoteHttpArgs} {fetched : Fetched} {parameters : TypedData}
    (t : Thrown) : remoteHttpSignTypedData c args fetched parameters ≠ .error (.thrown t) := by
  have hjson : ∀ json, readJson args.timeoutMs json ≠ .error (.thrown t) := by
    rintro (payload | aborted) h
    · cases h
    · cases aborted <;> cases h
  unfold remoteHttpSignTypedData
  cases fetched with
  | rejected aborted => cases aborted <;> exact fun h => by cases h
  | response status json =>
    dsimp only
    split
    · exact fun h => by cases h
    · split
      · rename_i e he
        rw [Ne, Except.error.injEq]
        rintro rfl
        exact hjson json he
      · split
        · exact fun h => by cases h
        · split
          · exact fun h => by cases h
          · split <;> exact fun h => by cases h

theorem firstRecovering_ok {guardianSigner : Address} {digest compact signature : String}
    {parities : List ℕ}
    (h : firstRecovering c guardianSigner digest compact parities = .ok signature) :
    ∃ yParity ∈ parities, signature = serializedSignature compact yParity ∧ ∃ recovered,
      c.recoverAddress digest signature = .ok recovered ∧
      toLowerCase recovered = toLowerCase guardianSigner := by
  induction parities with
  | nil => cases h
  | cons yParity rest ih =>
    rw [firstRecovering] at h
    split at h
    · cases h
    · rename_i recovered hrecovered
      split at h
      · rename_i hsame
        cases h
        exact ⟨yParity, .head _, rfl, recovered, hrecovered, hsame⟩
      · obtain ⟨y, hy, hrest⟩ := ih h
        exact ⟨y, .tail _ hy, hrest⟩

/-- When every parity recovers some address, the first that recovers the signer is found. -/
theorem firstRecovering_finds {guardianSigner : Address} {digest compact : String}
    {parities : List ℕ}
    (hresolves : ∀ yParity ∈ parities, ∃ recovered,
      c.recoverAddress digest (serializedSignature compact yParity) = .ok recovered)
    (hsigner : ∃ yParity ∈ parities, ∃ recovered,
      c.recoverAddress digest (serializedSignature compact yParity) = .ok recovered ∧
        toLowerCase recovered = toLowerCase guardianSigner) :
    ∃ signature, firstRecovering c guardianSigner digest compact parities = .ok signature := by
  induction parities with
  | nil =>
    obtain ⟨y, hy, -⟩ := hsigner
    cases hy
  | cons yParity rest ih =>
    obtain ⟨recovered, hrecovered⟩ := hresolves yParity (.head _)
    rw [firstRecovering, hrecovered]
    dsimp only
    split
    · exact ⟨_, rfl⟩
    · rename_i hother
      refine ih (fun y hy => hresolves y (.tail _ hy)) ?_
      obtain ⟨y, hy, found, hfound, hsame⟩ := hsigner
      rcases List.mem_cons.mp hy with rfl | hy
      · rw [hrecovered] at hfound
        cases hfound
        exact absurd hsame hother
      · exact ⟨y, hy, found, hfound, hsame⟩

theorem isHexDigit_digitChar : ∀ d < 16, isHexDigit (Nat.digitChar d) = true := by decide

theorem isHexDigit_compactHex (sig : Secp256k1.Signature) :
    ∀ d ∈ sig.compactHex, isHexDigit d = true := by
  have hfixed : ∀ n, ∀ d ∈ Secp256k1.Signature.hexFixed 64 n, isHexDigit d = true := by
    intro n d hd
    obtain ⟨digit, hdigit, rfl⟩ := List.mem_map.mp hd
    exact isHexDigit_digitChar digit (Numeral.fixed_lt (by decide) 64 n digit hdigit)
  exact List.forall_mem_append.mpr ⟨hfixed _, hfixed _⟩

theorem isHex_append {m n : ℕ} {s t : String} (hs : s.toList.length = m)
    (ht : t.toList.length = n) (hsdigits : ∀ d ∈ s.toList, isHexDigit d = true)
    (htdigits : ∀ d ∈ t.toList, isHexDigit d = true) : isHex (m + n) ("0x" ++ s ++ t) = true := by
  refine isHex_iff.mpr ⟨s.toList ++ t.toList, ?_, ?_, List.forall_mem_append.mpr
    ⟨hsdigits, htdigits⟩⟩
  · rw [String.toList_append, String.toList_append, List.append_assoc]
    rfl
  · rw [List.length_append, hs, ht]

theorem serializedSignature_bytes (sig : Secp256k1.Signature) {yParity : ℕ}
    (h : yParity ∈ [0, 1]) :
    SIGNATURE_RE (serializedSignature (String.ofList sig.compactHex) yParity) = true := by
  have hv : (padLeft 2 (String.ofList (Nat.toDigits 16 (27 + yParity)))).toList.length = 2 ∧
      ∀ d ∈ (padLeft 2 (String.ofList (Nat.toDigits 16 (27 + yParity)))).toList,
        isHexDigit d = true := by
    simp only [List.mem_cons, List.not_mem_nil, or_false] at h
    rcases h with rfl | rfl
    · exact ⟨by decide, List.all_eq_true.mp (by decide)⟩
    · exact ⟨by decide, List.all_eq_true.mp (by decide)⟩
  have hlength : (String.ofList sig.compactHex).toList.length = 128 := by
    rw [String.toList_ofList, sig.length_compactHex]
  have hdigits : ∀ d ∈ (String.ofList sig.compactHex).toList, isHexDigit d = true := by
    rw [String.toList_ofList]
    exact isHexDigit_compactHex sig
  have hbytes := isHex_append hlength hv.1 hdigits hv.2
  rw [SIGNATURE_RE, serializedSignature]
  exact hbytes

section Kms
variable {label : String} {guardianSigner : Address} {signed : Except Thrown BytesLike}
  {parameters : TypedData} {digest : String}

theorem kms_ok {signature : String}
    (h : kmsSignTypedData c label guardianSigner signed parameters = .ok signature) :
    ∃ digest sig yParity recovered, yParity ∈ [0, 1] ∧ c.hashTypedData parameters = .ok digest ∧
      signature = serializedSignature (c.toCompactHex sig) yParity ∧
      c.recoverAddress digest signature = .ok recovered ∧
      toLowerCase recovered = toLowerCase guardianSigner := by
  unfold kmsSignTypedData at h
  split at h
  · cases h
  · rename_i digest hdigest
    split at h
    · cases h
    · rename_i derSignature hder
      split at h
      · cases h
      · rename_i found hfound
        cases h
        unfold ethereumSignatureFromDer at hfound
        cases hdecoded : c.fromDER derSignature with
        | error e =>
          rw [hdecoded] at hfound
          cases hfound
        | ok sig =>
          rw [hdecoded] at hfound
          obtain ⟨y, hy, hserialized, recovered, hrecovers⟩ := firstRecovering_ok hfound
          exact ⟨digest, c.normalizeS sig, y, recovered, hy, hdigest, hserialized, hrecovers⟩

theorem kms_error (hhash : c.hashTypedData parameters = .ok digest) (t : Thrown) :
    kmsSignTypedData c label guardianSigner signed parameters ≠ .error (.thrown t) := by
  unfold kmsSignTypedData
  rw [hhash]
  dsimp only
  split
  · exact fun h => by cases h
  · split <;> exact fun h => by cases h

include hc in
theorem kms_usable {Valid : Address → String → Secp256k1.Signature → Prop}
    (hrecovers : c.Recovers Valid) {sig : Secp256k1.Signature}
    (hhash : c.hashTypedData parameters = .ok digest) (hvalid : Valid guardianSigner digest sig)
    (hsigned : signed.bind (bytesLikeToUint8Array c) = .ok sig.der) :
    ∃ yParity ∈ [0, 1], kmsSignTypedData c label guardianSigner signed parameters =
      .ok (serializedSignature (String.ofList sig.low.compactHex) yParity) := by
  have hflip : ∀ y ∈ [0, 1], 1 - y ∈ [0, 1] ∧ 1 - (1 - y) = y := by decide
  have hresolves : ∀ y ∈ [0, 1], ∃ recovered, c.recoverAddress digest
      (serializedSignature (c.toCompactHex sig.low) y) = .ok recovered := by
    intro y hy
    rcases sig.low_eq with hlow | hlow
    · rw [hlow]
      exact hrecovers.resolves _ _ _ hvalid y hy
    · obtain ⟨recovered, hrecovered⟩ := hrecovers.resolves _ _ _ hvalid (1 - y) (hflip y hy).1
      rw [← hrecovers.negated _ _ _ hvalid (1 - y) (hflip y hy).1, (hflip y hy).2] at hrecovered
      rw [hlow]
      exact ⟨recovered, hrecovered⟩
  have hsigner : ∃ y ∈ [0, 1], ∃ recovered, c.recoverAddress digest
      (serializedSignature (c.toCompactHex sig.low) y) = .ok recovered ∧
        toLowerCase recovered = toLowerCase guardianSigner := by
    obtain ⟨y, hy, recovered, hrecovered, hsame⟩ := hrecovers.signer _ _ _ hvalid
    rcases sig.low_eq with hlow | hlow
    · rw [hlow]
      exact ⟨y, hy, recovered, hrecovered, hsame⟩
    · rw [← hrecovers.negated _ _ _ hvalid y hy] at hrecovered
      rw [hlow]
      exact ⟨1 - y, (hflip y hy).1, recovered, hrecovered, hsame⟩
  obtain ⟨signature, hfound⟩ := firstRecovering_finds hresolves hsigner
  obtain ⟨y, hy, rfl, -⟩ := firstRecovering_ok hfound
  have hder : ethereumSignatureFromDer c digest sig.der guardianSigner =
      .ok (serializedSignature (c.toCompactHex sig.low) y) := by
    rw [ethereumSignatureFromDer, hc.fromDER_der]
    change firstRecovering c guardianSigner digest (c.toCompactHex (c.normalizeS sig)) [0, 1] = _
    rw [hc.normalizeS_eq, hfound]
  refine ⟨y, hy, ?_⟩
  rw [kmsSignTypedData, hhash]
  dsimp only
  rw [hsigned]
  dsimp only
  rw [hder, hc.toCompactHex_eq]

include hc in
theorem present_of_der {value : BytesLike} {sig : Secp256k1.Signature} (missing : String)
    (h : bytesLikeToUint8Array c value = .ok sig.der) :
    present missing (some value) = .ok value := by
  unfold present
  split
  · contradiction
  · rename_i hvalue
    cases hvalue
    rw [bytesLikeToUint8Array, hc.bufferFrom_empty] at h
    cases h
  · rename_i hvalue
    cases hvalue
    rfl

end Kms

section Configured
variable {signer : LoadedGuardianSigner} {answer : signer.Answer} {parameters : TypedData}

include hc in
theorem signTypedData_ok {signature : String}
    (h : signer.signTypedData c answer parameters = .ok signature) :
    IsGuardianSignature c signer.guardianSigner parameters signature := by
  have hkms : ∀ {label guardianSigner signed},
      kmsSignTypedData c label guardianSigner signed parameters = .ok signature →
      IsGuardianSignature c guardianSigner parameters signature := by
    intro label guardianSigner signed hkms
    obtain ⟨digest, sig, y, recovered, hy, hdigest, rfl, hrecovered, hsame⟩ := kms_ok hkms
    refine ⟨?_, digest, recovered, hdigest, hrecovered, hsame⟩
    rw [hc.toCompactHex_eq]
    exact serializedSignature_bytes sig hy
  cases signer with
  | remoteHttp args =>
    obtain ⟨hhex, recovered, hrecovered, hsame⟩ := remoteHttp_ok h
    refine ⟨isSignatureHex_bytes hc hhex, ?_⟩
    unfold recoverSigner at hrecovered
    cases hdigest : c.hashTypedData parameters with
    | error e =>
      rw [hdigest] at hrecovered
      cases hrecovered
    | ok digest =>
      rw [hdigest] at hrecovered
      exact ⟨digest, recovered, rfl, hrecovered, hsame⟩
  | awsKms guardianSigner => exact hkms h
  | gcpKms guardianSigner => exact hkms h

include hc in
theorem signTypedData_error (hbuilt : Built c parameters) (t : Thrown) :
    signer.signTypedData c answer parameters ≠ .error (.thrown t) := by
  obtain ⟨digest, hdigest⟩ := hc.hash_built parameters hbuilt
  cases signer with
  | remoteHttp args => exact remoteHttp_error t
  | awsKms guardianSigner => exact kms_error hdigest t
  | gcpKms guardianSigner => exact kms_error hdigest t

inductive KmsReturns (value : BytesLike) : (signer : LoadedGuardianSigner) → signer.Answer → Prop
    where
  | awsKms (guardianSigner : Address) : KmsReturns value (.awsKms guardianSigner) (.ok (some value))
  | gcpKms (guardianSigner : Address) :
    KmsReturns value (.gcpKms guardianSigner) (.ok (some (some value)))

include hc in
theorem signTypedData_usable {Valid : Address → String → Secp256k1.Signature → Prop}
    (hrecovers : c.Recovers Valid) {sig : Secp256k1.Signature} {digest : String} {value : BytesLike}
    (hhash : c.hashTypedData parameters = .ok digest)
    (hvalid : Valid signer.guardianSigner digest sig) (hreturns : KmsReturns value signer answer)
    (hder : bytesLikeToUint8Array c value = .ok sig.der) :
    ∃ yParity ∈ [0, 1], signer.signTypedData c answer parameters =
      .ok (serializedSignature (String.ofList sig.low.compactHex) yParity) := by
  cases hreturns with
  | awsKms guardianSigner =>
    refine kms_usable hc hrecovers hhash hvalid ?_
    rw [awsSignDigest, Except.bind, present_of_der hc _ hder]
    exact hder
  | gcpKms guardianSigner =>
    refine kms_usable hc hrecovers hhash hvalid ?_
    rw [gcpSignDigest, Except.bind, Option.join_some, present_of_der hc _ hder]
    exact hder

end Configured
end Returned
end Guardian
