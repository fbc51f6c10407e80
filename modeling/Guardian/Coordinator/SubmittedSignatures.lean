import Guardian.Coordinator.RemoteSigners
import Guardian.Coordinator.SignDeadline
import Guardian.Coordinator.SubmissionGate
import Guardian.Defaults.FundPrecedence
import Guardian.Defaults.SignAfterChecks

/-!
# The signatures that are submitted

The guardian of the command line: the four sign runners over a remote or KMS signer, under
the deadline of a signing call. What its coordinator submits was returned by that signer for
the payload that was announced.
-/

namespace Guardian
open Effect Text Program

def CheckEntry.toJson (entry : CheckEntry) : Json :=
  .obj ([("description", .str entry.description), ("passed", .bool entry.passed),
    ("skipped", .bool entry.skipped)] ++
    match entry.reason with
    | some reason => [("reason", .str reason)]
    | none => [])

def SigningSuccess.fields (success : SigningSuccess) : List (String × Json) :=
  [("guardian", .str success.guardian), ("signature", .str success.signature),
    ("payloadHash", .str success.payloadHash), ("signedAt", .str success.signedAt),
    ("checks", .arr (success.checks.map CheckEntry.toJson))]

def SigningSuccess.toJson (success : SigningSuccess) : Json := .obj success.fields

def RequestWhitelistingResponse.toJson (response : RequestWhitelistingResponse) : Json :=
  .obj (response.fields ++ [("address", .str response.address), ("nonce", .str response.nonce)])

def Failure.caught : Failure → Caught
  | .err (.upstreamUnavailable message _) => .upstreamUnavailable message
  | .err (.validationFailed message _) => .error message
  | .err (.stateConflict message _) => .error message
  | .err (.notFound message _ _) => .error message
  | .err (.internalError message) => .error message
  | .thrown error => .error error.message

structure GuardianSetup where
  clients : List ℕ
  signMs : ℚ
  intentRequestBindingChecks : CheckRunner IntentRequestBindingBody
  intentFundBindingChecks : CheckRunner IntentFundBindingBody
  intentSwapChecks : CheckRunner IntentSwapBody
  requestWhitelistingChecks : CheckRunner RequestWhitelistingBody
  whitelistNonceCandidates :
    Option (RequestWhitelistingBody → Signing (Except Caught (List String)))

/-- The context of a call, and its result as `unwrapOrThrow` leaves it. -/
def callSign {α : Type} (chainId : ℕ) (toJson : α → Json)
    (sign : SigningContext → Signing (Settled α)) : Signing (Except Caught Json) := do
  let now : ℤ ← ask .dateNow
  match ← sign ⟨chainId, now, true⟩ with
  | .error failure => return .error failure.caught
  | .ok success => return .ok (toJson success)

section Guardian
variable (c : Crypto) (signer : LoadedGuardianSigner) (setup : GuardianSetup)

def signerDeps : SignDeps := ⟨c.hashTypedData, signer.guardianSigner, ⟨false, none⟩⟩

def hostGuardian : CoordinatorGuardian env where
  guardianSigner := signer.guardianSigner
  probeUpstream := none
  getChainClient chainId :=
    if chainId ∈ setup.clients then return .ok ()
    else return .error (.error s!"Unsupported chain {chainId}")
  signIntentRequestBinding body := callSign body.chainId SigningSuccess.toJson fun ctx =>
    makeSignIntentRequestBinding (signerDeps c signer) setup.intentRequestBindingChecks ctx body
  signIntentFundBinding body := callSign body.chainId SigningSuccess.toJson fun ctx =>
    makeSignIntentFundBinding (signerDeps c signer) setup.intentFundBindingChecks ctx body
  signIntentSwap body := callSign body.chainId SigningSuccess.toJson fun ctx =>
    makeSignIntentSwap (signerDeps c signer) setup.intentSwapChecks ctx body
  signRequestWhitelisting := some fun body =>
    callSign body.chainId RequestWhitelistingResponse.toJson fun ctx =>
      makeSignRequestWhitelisting (signerDeps c signer) setup.requestWhitelistingChecks ctx body
  whitelistNonceCandidates := setup.whitelistNonceCandidates

def buildGuardianFromEnv : CoordinatorGuardian (hosted env) :=
  (hostGuardian c signer setup).deadlined setup.signMs

/-- The signer of the guardian is the configured one, whatever its service answers. -/
def AnsweredBySigner : Event (coord (hosted env)) → Prop
  | ⟨.inl (.inl (.signTypedData typedData)), answer⟩ =>
    ∃ reply : signer.Answer, answer = signer.signTypedData c reply typedData
  | _ => True

end Guardian

section Signed
variable {c : Crypto} {signer : LoadedGuardianSigner} {setup : GuardianSetup}

/-- The signer returned the signature of the response for its payload. -/
def SignedIn (c : Crypto) (success : SigningSuccess) (tr : List SigningEvent) : Prop :=
  ∃ td, (⟨.signTypedData td, .ok success.signature⟩ : SigningEvent) ∈ tr ∧
    c.hashTypedData td = .ok success.payloadHash

theorem runSigner_signed {α : Type} {deps : SignDeps} {ctx : SigningContext}
    {checks : Signing (Settled (List CheckEntry))} {chainId : ℕ} {verifyingContract : Address}
    {build : Eip712Domain → Except Thrown TypedData} {respond : SigningSuccess → α}
    (hdeps : deps.hashTypedData = c.hashTypedData) {tr : List SigningEvent} {a : α}
    (h : Executes (runSigner deps ctx checks chainId verifyingContract build respond) tr (.ok a)) :
    ∃ success, a = respond success ∧ SignedIn c success tr := by
  obtain ⟨tr₁, tr₂, r, rfl, -, h⟩ := executes_bind.mp h
  cases r with
  | error failure => cases (runs_done.mp h).2
  | ok entries =>
    obtain ⟨tr₂, tr₃, r, rfl, -, h⟩ := executes_bind.mp h
    cases r with
    | error e => cases (runs_done.mp h).2
    | ok nameVersion =>
      obtain ⟨tr₃, tr₄, settled, rfl, h₃, h⟩ := executes_bind.mp h
      obtain ⟨rfl, hsettled⟩ := runs_done.mp h
      rcases signPayload_settled h₃ with ⟨f, rfl, -⟩ | ⟨td, success, -, rfl, rfl, hhash, -, -⟩
      · cases hsettled
      · cases hsettled
        rw [hdeps] at hhash
        exact ⟨success, rfl, td, by simp, hhash⟩

theorem callSign_signed {α : Type} {chainId : ℕ} {toJson : α → Json}
    {sign : SigningContext → Signing (Settled α)} {tr : List SigningEvent} {j : Json}
    (h : Executes (callSign chainId toJson sign) tr (.ok j)) :
    ∃ ctx tr' a, Executes (sign ctx) tr' (.ok a) ∧ j = toJson a ∧ ∀ e ∈ tr', e ∈ tr := by
  obtain ⟨now, tr', rfl, hrest⟩ := executes_perform.mp h
  rw [bind_done] at hrest
  obtain ⟨tr₁, tr₂, r, rfl, hsign, hlast⟩ := executes_bind.mp hrest
  cases r with
  | error failure => cases (runs_done.mp hlast).2
  | ok a =>
    obtain ⟨rfl, hr⟩ := runs_done.mp hlast
    cases hr
    exact ⟨_, tr₁, a, hsign, rfl, fun e he => by simp [he]⟩

theorem raced_ok {H : Effect.Signature} {α : Type} {ms : ℚ} {p : Program H (Except Caught α)}
    {tr : List (Event (hosted H))} {a : α} (h : Executes (raced ms p) tr (.ok a)) :
    ∃ tr', Executes p tr' (.ok a) ∧ ∀ e ∈ tr', Event.inLeft e ∈ tr := by
  induction p generalizing tr with
  | done r =>
    obtain ⟨expired, tr', rfl, hrest⟩ := executes_perform.mp h
    cases expired with
    | true => cases (runs_done.mp hrest).2
    | false =>
      cases (runs_done.mp hrest).2
      exact ⟨[], .refl _, fun e he => by cases he⟩
  | perform op next ih =>
    obtain ⟨expired, tr', rfl, hrest⟩ := executes_perform.mp h
    cases expired with
    | true => cases (runs_done.mp hrest).2
    | false =>
      obtain ⟨r, tr'', rfl, hnext⟩ := executes_perform.mp hrest
      obtain ⟨walk, hwalk, hmem⟩ := ih r hnext
      refine ⟨⟨op, r⟩ :: walk, executes_perform.mpr ⟨r, walk, rfl, hwalk⟩, ?_⟩
      intro e he
      rcases List.mem_cons.mp he with rfl | he
      · exact .tail _ (.head _)
      · exact .tail _ (.tail _ (hmem e he))

theorem runSigning_ok {G : Effect.Signature} {guardian : CoordinatorGuardian G} {chainId : ℕ}
    {sign : Program G (Except Caught Json)} {tr : List (Event G)} {j : Json}
    (h : Executes (runSigning guardian chainId sign) tr (.ok j)) :
    ∃ tr', Executes sign tr' (.ok j) ∧ ∀ e ∈ tr', e ∈ tr := by
  unfold runSigning at h
  obtain ⟨tr₁, tr₂, probed, rfl, -, h⟩ := executes_bind.mp h
  cases probed with
  | error e => cases (runs_done.mp h).2
  | ok _ =>
    obtain ⟨tr₂, tr₃, client, rfl, -, h⟩ := executes_bind.mp h
    cases client with
    | error e => cases (runs_done.mp h).2
    | ok _ => exact ⟨tr₃, h, fun e he => by simp [he]⟩

theorem zHexResponse_str {n : ℕ} {s t : String} (h : zHexResponse n (.str s) = some t) :
    t = toLowerCase s := by
  have hif : (if isHex n (toLowerCase s) = true then some (toLowerCase s) else none) = some t := h
  split at hif
  · exact (Option.some.inj hif).symm
  · cases hif

theorem zSigningSuccessFields_eq {success checked : SigningSuccess} {rest : List (String × Json)}
    (h : zSigningSuccessFields (.obj (success.fields ++ rest)) = some checked) :
    checked.signature = toLowerCase success.signature ∧
      checked.payloadHash = toLowerCase success.payloadHash := by
  simp only [zSigningSuccessFields, Option.bind_eq_bind, Option.bind_eq_some_iff] at h
  obtain ⟨_, -, signature, hsignature, payloadHash, hhash, _, -, _, -, heq⟩ := h
  obtain ⟨_, hfound, hsignature⟩ := hsignature
  cases hfound
  obtain ⟨_, hfound, hhash⟩ := hhash
  cases hfound
  cases heq
  exact ⟨zHexResponse_str hsignature, zHexResponse_str hhash⟩

theorem zSigningSuccess_eq {success checked : SigningSuccess}
    (h : zSigningSuccess success.toJson = some checked) :
    checked.signature = toLowerCase success.signature ∧
      checked.payloadHash = toLowerCase success.payloadHash := by
  simp only [zSigningSuccess, Option.bind_eq_bind, Option.bind_eq_some_iff] at h
  obtain ⟨_, -, hfields⟩ := h
  have happend : success.toJson = .obj (success.fields ++ []) := rfl
  rw [happend] at hfields
  exact zSigningSuccessFields_eq hfields

theorem zRequestWhitelistingResponse_eq {response : RequestWhitelistingResponse}
    {checked : SigningSuccess} (h : (zRequestWhitelistingResponse response.toJson).map
      RequestWhitelistingResponse.toSigningSuccess = some checked) :
    checked.signature = toLowerCase response.signature ∧
      checked.payloadHash = toLowerCase response.payloadHash := by
  obtain ⟨parsed, hparsed, rfl⟩ := Option.map_eq_some_iff.mp h
  simp only [zRequestWhitelistingResponse, Option.bind_eq_bind, Option.bind_eq_some_iff] at hparsed
  obtain ⟨_, -, success, hfields, _, -, _, -, heq⟩ := hparsed
  cases heq
  exact zSigningSuccessFields_eq hfields

theorem signerDeps_hash : (signerDeps c signer).hashTypedData = c.hashTypedData := rfl

theorem signingCall_ok {α : Type} (chainId : ℕ) (toJson : α → Json)
    (sign : SigningContext → Signing (Settled α)) {tr : List (Event (hosted env))} {j : Json}
    (h : Executes (runSigning (buildGuardianFromEnv c signer setup) chainId
      (raced setup.signMs (callSign chainId toJson sign))) tr (.ok j)) :
    ∃ ctx tr' a, Executes (sign ctx) tr' (.ok a) ∧ j = toJson a ∧
      ∀ e ∈ tr', Event.inLeft e ∈ tr := by
  obtain ⟨tr₁, hraced, hmem₁⟩ := runSigning_ok h
  obtain ⟨tr₂, hcall, hmem₂⟩ := raced_ok hraced
  obtain ⟨ctx, tr₃, a, hsign, rfl, hmem₃⟩ := callSign_signed hcall
  exact ⟨ctx, tr₃, a, hsign, rfl, fun e he => hmem₁ _ (hmem₂ _ (hmem₃ e he))⟩

theorem plainCall_signed {chainId : ℕ} (sign : SigningContext → Signing (Settled SigningSuccess))
    (hsign : ∀ ctx tr success, Executes (sign ctx) tr (.ok success) → SignedIn c success tr)
    {tr : List (Event (hosted env))} {j : Json}
    (h : Executes (runSigning (buildGuardianFromEnv c signer setup) chainId
      (raced setup.signMs (callSign chainId SigningSuccess.toJson sign))) tr (.ok j))
    {checked : SigningSuccess} (hchecked : zSigningSuccess j = some checked) :
    ∃ success tr', SignedIn c success tr' ∧ (∀ e ∈ tr', Event.inLeft e ∈ tr) ∧
      checked.signature = toLowerCase success.signature ∧
      checked.payloadHash = toLowerCase success.payloadHash := by
  obtain ⟨ctx, tr', success, hrun, rfl, hmem⟩ := signingCall_ok chainId SigningSuccess.toJson sign h
  exact ⟨success, tr', hsign ctx tr' success hrun, hmem, zSigningSuccess_eq hchecked⟩

theorem runSigningOf_signed {parsed : ParsedSigningBody} {tr : List (Event (hosted env))} {j : Json}
    (h : Executes (runSigningOf (buildGuardianFromEnv c signer setup) parsed) tr (.ok j))
    {checked : SigningSuccess} (hchecked : parsed.zResponse j = some checked) :
    ∃ success tr', SignedIn c success tr' ∧ (∀ e ∈ tr', Event.inLeft e ∈ tr) ∧
      checked.signature = toLowerCase success.signature ∧
      checked.payloadHash = toLowerCase success.payloadHash := by
  cases parsed with
  | setRequest body =>
    refine plainCall_signed (fun ctx => makeSignIntentRequestBinding (signerDeps c signer)
      setup.intentRequestBindingChecks ctx body) (fun ctx tr a hsign => ?_) h hchecked
    obtain ⟨success, rfl, hsigned⟩ := runSigner_signed signerDeps_hash hsign
    exact hsigned
  | setFund body =>
    refine plainCall_signed (fun ctx => makeSignIntentFundBinding (signerDeps c signer)
      setup.intentFundBindingChecks ctx body) (fun ctx tr a hsign => ?_) h hchecked
    obtain ⟨success, rfl, hsigned⟩ := runSigner_signed signerDeps_hash hsign
    exact hsigned
  | swap body =>
    refine plainCall_signed (fun ctx => makeSignIntentSwap (signerDeps c signer)
      setup.intentSwapChecks ctx body) (fun ctx tr a hsign => ?_) h hchecked
    obtain ⟨success, rfl, hsigned⟩ := runSigner_signed signerDeps_hash hsign
    exact hsigned
  | requestWhitelisting body =>
    obtain ⟨ctx, tr', a, hsign, rfl, hmem⟩ := signingCall_ok body.chainId
      RequestWhitelistingResponse.toJson
      (fun ctx => makeSignRequestWhitelisting (signerDeps c signer)
        setup.requestWhitelistingChecks ctx body) h
    obtain ⟨success, rfl, hsigned⟩ := runSigner_signed signerDeps_hash hsign
    exact ⟨success, tr', hsigned, hmem, zRequestWhitelistingResponse_eq hchecked⟩

theorem submitted_recovers (hc : c.Documented) {options : GuardianCoordinatorOptions (hosted env)}
    (hguardian : options.guardian = buildGuardianFromEnv c signer setup) {fuel n : ℕ}
    {hist : History (hosted env)} {id : String} {submission : Submission}
    {next : Except Caught Json → Coordinating (hosted env) SignTimeouts}
    (h : Runs (runGuardianCoordinator options fuel n .empty) hist
      (.perform (.inr (.putSubmission id submission)) next))
    (hsigner : ∀ e ∈ hist, AnsweredBySigner c signer e) :
    ∃ before announcing signing request parsed announced recovered,
      hist = before ++ (announcing ++ signing) ∧ request.id = id ∧
      Open options before request ∧ Admitted options request parsed ∧
      Announces options.guardian request parsed announcing announced ∧
      c.recoverAddress (toLowerCase announced.payloadHash) submission.signature = .ok recovered ∧
      toLowerCase recovered = toLowerCase signer.guardianSigner := by
  cases submission_gated options fuel n hist id submission next h with
  | @intro before announcing signing request parsed announced checked isOpen admitted announces
      signs =>
    cases signs with
    | @intro tr signed returned valid payloadHash guardianSigner =>
      rw [hguardian] at returned
      obtain ⟨success, tr', ⟨td, hsigned, hhash⟩, hmem, hsignature, hpayload⟩ :=
        runSigningOf_signed returned valid
      have hin : (⟨.inl (.inl (.signTypedData td)), .ok success.signature⟩ :
          Event (coord (hosted env))) ∈ before ++ (announcing ++ tr.map Event.inLeft) :=
        List.mem_append_right _ (List.mem_append_right _
          (List.mem_map_of_mem (hmem _ hsigned)))
      obtain ⟨reply, hreply⟩ := hsigner _ hin
      obtain ⟨hbytes, digest, recovered, hdigest, hrecovered, hsame⟩ :=
        signTypedData_ok hc hreply.symm
      obtain rfl : digest = success.payloadHash := Except.ok.inj (hdigest.symm.trans hhash)
      refine ⟨before, announcing, tr.map Event.inLeft, request, parsed, announced, recovered, rfl,
        rfl, isOpen, admitted, announces, ?_, hsame⟩
      rw [hsignature, ← payloadHash, hpayload, toLowerCase_idem,
        hc.recover_case _ _ (hc.hash_hex _ _ hhash) hbytes]
      exact hrecovered

end Signed

/-- A remote or KMS signer returns a signature only if it is 65 bytes that recover to the
configured signer, and otherwise one of two errors. A KMS signer returns every valid signature
of the digest, in its lower half. What the coordinator submits recovers to the guardian. -/
theorem signers_return_guardian_signatures {c : Crypto} (hc : c.Documented)
    {Valid : Address → String → Secp256k1.Signature → Prop} (hrecovers : c.Recovers Valid) :
    (∀ (signer : LoadedGuardianSigner) (answer : signer.Answer) (td : TypedData),
      (∀ signature, signer.signTypedData c answer td = .ok signature →
        IsGuardianSignature c signer.guardianSigner td signature) ∧
      (Built c td → ∀ e, signer.signTypedData c answer td = .error e →
        (∃ message, e = .internalError message) ∨
          ∃ message status, e = .upstreamUnavailable message status)) ∧
    (∀ (signer : LoadedGuardianSigner) (answer : signer.Answer) (td : TypedData) (digest : String)
      (sig : Secp256k1.Signature) (value : BytesLike), c.hashTypedData td = .ok digest →
      Valid signer.guardianSigner digest sig → KmsReturns value signer answer →
      bytesLikeToUint8Array c value = .ok sig.der →
      ∃ yParity ∈ [0, 1], signer.signTypedData c answer td =
        .ok (serializedSignature (String.ofList sig.low.compactHex) yParity) ∧
        sig.low.s ≤ Secp256k1.order / 2) ∧
    ∀ (signer : LoadedGuardianSigner) (setup : GuardianSetup)
      (options : GuardianCoordinatorOptions (hosted env)) (fuel n : ℕ)
      (hist : History (hosted env)) (id : String) (submission : Submission)
      (next : Except Caught Json → Coordinating (hosted env) SignTimeouts),
      options.guardian = buildGuardianFromEnv c signer setup →
      Runs (runGuardianCoordinator options fuel n .empty) hist
        (.perform (.inr (.putSubmission id submission)) next) →
      (∀ e ∈ hist, AnsweredBySigner c signer e) →
      ∃ before announcing signing request parsed announced recovered,
        hist = before ++ (announcing ++ signing) ∧ request.id = id ∧
        Open options before request ∧ Admitted options request parsed ∧
        Announces options.guardian request parsed announcing announced ∧
        c.recoverAddress (toLowerCase announced.payloadHash) submission.signature =
          .ok recovered ∧
        toLowerCase recovered = toLowerCase signer.guardianSigner := by
  refine ⟨fun signer answer td => ⟨fun signature => signTypedData_ok hc, fun hbuilt e he => ?_⟩,
    fun signer answer td digest sig value hhash hvalid hreturns hder => ?_, ?_⟩
  · cases e with
    | internalError message => exact .inl ⟨message, rfl⟩
    | upstreamUnavailable message status => exact .inr ⟨message, status, rfl⟩
    | thrown t => exact absurd he (signTypedData_error hc hbuilt t)
  · obtain ⟨y, hy, hreturned⟩ := signTypedData_usable hc hrecovers hhash hvalid hreturns hder
    exact ⟨y, hy, hreturned, sig.low_s_le⟩
  · intro signer setup options fuel n hist id submission next hguardian hrun hsigner
    exact submitted_recovers hc hguardian hrun hsigner

namespace Sample

def kmsBody : IntentRequestBindingBody :=
  ⟨1, "0x1111111111111111111111111111111111111111", ⟨"7"⟩,
    "0x2222222222222222222222222222222222222222", 1050⟩

def kmsData : TypedData where
  domain := ⟨"Facility", "1", 1, "0x1111111111111111111111111111111111111111"⟩
  types := setRequestParamsTypes
  primaryType := "SetRequestParams"
  message := [("id", .uint 7), ("newRequest", .address kmsBody.requestContract),
    ("deadline", .uint 1050)]

def kmsDigest : String :=
  "0x01961ed661f748ea90fcde020a2bd1bae491c5611dec3d7963d94e59060dc393"

def kmsAddress : Address := "0x7E5F4552091A69125d5DfCb7b8C2659029395Bdf"

def otherAddress : Address := "0xf2d317ad30aa8f5b41ca32bcbf0b0d0b9aae97e0"

/-- A signature of the digest under the key 1, with `s` in the upper half. -/
def highSignature : Secp256k1.Signature where
  r := 0x544e77a4dbfad982648d8e4c293bc8bb5185e04417b4b073d7155c4ee55a1350
  s := 0x8f46fe44ac1b88f6f0b3aa55b114d26fd7e2d1cf5e499ee65122d8a02e39a8e1
  r_pos := by decide
  r_lt := by decide
  s_pos := by decide
  s_lt := by decide

def spelled (sig : Secp256k1.Signature) (v : List Char) : List Char :=
  '0' :: 'x' :: (sig.compactHex ++ v)

def recoveries : List (List Char × Address) :=
  [(spelled highSignature ['1', 'b'], kmsAddress),
    (spelled highSignature ['1', 'c'], otherAddress),
    (spelled highSignature.negated ['1', 'b'], otherAddress),
    (spelled highSignature.negated ['1', 'c'], kmsAddress)]

def recoverSpelled (digest : String) (signature : List Char) : Except Thrown Address :=
  match recoveries.lookup signature with
  | some a => if digest = kmsDigest then .ok a else .error ⟨"no address"⟩
  | none => .error ⟨"invalid signature"⟩

def crypto : Crypto where
  isAddress := ADDRESS_RE
  isHex s :=
    match s.toList with
    | '0' :: 'x' :: cs => cs.all isHexDigit
    | _ => false
  hashTypedData _ := .ok kmsDigest
  recoverAddress digest signature :=
    recoverSpelled (toLowerCase digest) (signature.toList.map Char.toLower)
  fromDER bytes :=
    match Secp256k1.Signature.ofDer bytes with
    | some sig => .ok sig
    | none => .error ⟨"invalid signature"⟩
  normalizeS sig := sig.low
  toCompactHex sig := String.ofList sig.compactHex
  bufferFrom _ := []

theorem crypto_documented : crypto.Documented where
  isHex_iff s := by
    constructor
    · intro h
      unfold crypto at h
      dsimp only at h
      split at h
      · rename_i cs heq
        exact ⟨cs.length, isHex_iff.mpr ⟨cs, heq, rfl, List.all_eq_true.mp h⟩⟩
      · cases h
    · rintro ⟨n, hn⟩
      obtain ⟨cs, heq, -, hdigits⟩ := isHex_iff.mp hn
      unfold crypto
      dsimp only
      rw [heq]
      exact List.all_eq_true.mpr hdigits
  hash_built td _ := ⟨kmsDigest, rfl⟩
  hash_hex td digest h := by
    cases h
    decide
  recover_case digest signature _ _ := by
    unfold crypto
    dsimp only
    rw [toLowerCase_idem, ← toList_toLowerCase, toLowerCase_idem, toList_toLowerCase]
  fromDER_der sig := by
    unfold crypto
    dsimp only
    rw [sig.ofDer_der]
  normalizeS_eq sig := rfl
  toCompactHex_eq sig := rfl
  bufferFrom_empty := rfl

def SignedByKms (signer : Address) (digest : String) (sig : Secp256k1.Signature) : Prop :=
  signer = kmsAddress ∧ digest = kmsDigest ∧ sig = highSignature

theorem toList_serializedSignature (sig : Secp256k1.Signature) {yParity : ℕ}
    (h : yParity ∈ [0, 1]) :
    (serializedSignature (crypto.toCompactHex sig) yParity).toList =
      spelled sig (if yParity = 0 then ['1', 'b'] else ['1', 'c']) := by
  have hv : (padLeft 2 (String.ofList (Nat.toDigits 16 (27 + yParity)))).toList =
      if yParity = 0 then ['1', 'b'] else ['1', 'c'] := by
    simp only [List.mem_cons, List.not_mem_nil, or_false] at h
    rcases h with rfl | rfl <;> decide +kernel
  have hcompact : (crypto.toCompactHex sig).toList = sig.compactHex := String.toList_ofList
  have hmark : "0x".toList = ['0', 'x'] := rfl
  rw [serializedSignature, String.toList_append, String.toList_append, hcompact, hv, hmark,
    List.append_assoc, List.cons_append, List.cons_append, List.nil_append, spelled]

theorem recoverAddress_eq (digest signature : String) : crypto.recoverAddress digest signature =
    recoverSpelled (toLowerCase digest) (signature.toList.map Char.toLower) := rfl

theorem recover_spelled (sig : Secp256k1.Signature) {yParity : ℕ} (h : yParity ∈ [0, 1])
    {a : Address} (hentry : recoveries.lookup
      ((spelled sig (if yParity = 0 then ['1', 'b'] else ['1', 'c'])).map Char.toLower) = some a) :
    crypto.recoverAddress kmsDigest (serializedSignature (crypto.toCompactHex sig) yParity) =
      .ok a := by
  have hdigest : toLowerCase kmsDigest = kmsDigest := by decide +kernel
  rw [recoverAddress_eq, toList_serializedSignature sig h, hdigest, recoverSpelled, hentry]
  exact if_pos rfl

theorem recoveries_found :
    recoveries.lookup ((spelled highSignature ['1', 'b']).map Char.toLower) = some kmsAddress ∧
    recoveries.lookup ((spelled highSignature ['1', 'c']).map Char.toLower) = some otherAddress ∧
    recoveries.lookup ((spelled highSignature.negated ['1', 'b']).map Char.toLower) =
      some otherAddress ∧
    recoveries.lookup ((spelled highSignature.negated ['1', 'c']).map Char.toLower) =
      some kmsAddress := by
  decide +kernel

theorem crypto_recovers : crypto.Recovers SignedByKms where
  resolves := by
    rintro _ _ _ ⟨rfl, rfl, rfl⟩ y hy
    obtain ⟨heven, hodd, -, -⟩ := recoveries_found
    simp only [List.mem_cons, List.not_mem_nil, or_false] at hy
    rcases hy with rfl | rfl
    · exact ⟨kmsAddress, recover_spelled highSignature (.head _) heven⟩
    · exact ⟨otherAddress, recover_spelled highSignature (.tail _ (.head _)) hodd⟩
  signer := by
    rintro _ _ _ ⟨rfl, rfl, rfl⟩
    have hrecover := recover_spelled highSignature (.head _) recoveries_found.1
    exact ⟨0, .head _, kmsAddress, hrecover, rfl⟩
  negated := by
    rintro _ _ _ ⟨rfl, rfl, rfl⟩ y hy
    obtain ⟨heven, hodd, hnegatedEven, hnegatedOdd⟩ := recoveries_found
    simp only [List.mem_cons, List.not_mem_nil, or_false] at hy
    rcases hy with rfl | rfl
    · rw [recover_spelled highSignature (.head _) heven,
        recover_spelled highSignature.negated (.tail _ (.head _)) hnegatedOdd]
    · rw [recover_spelled highSignature (.tail _ (.head _)) hodd,
        recover_spelled highSignature.negated (.head _) hnegatedEven]

def kmsSigner : LoadedGuardianSigner := .awsKms kmsAddress

def otherSigner : LoadedGuardianSigner := .remoteHttp ⟨kmsAddress, 5000⟩

def bodyJson (requestContract : Address) : Json :=
  .obj [("chainId", .num 1), ("facility", .str kmsBody.facility),
    ("intent", .obj [("id", .str "7")]), ("requestContract", .str requestContract),
    ("deadline", .num 1050)]

theorem kmsData_built : Built crypto kmsData :=
  @Built.setRequest crypto (bodyJson kmsBody.requestContract) "Facility" "1" kmsBody kmsData
    rfl rfl

def pageWith (requestContract : Address) : Json :=
  .obj [("total", .num 1), ("page", .num 1), ("pageSize", .num 100), ("items", .arr [
    .obj [("id", .str "r1"), ("kind", .str "set_request"), ("chainId", .num 1),
      ("facility", .str kmsBody.facility), ("payloadHash", .str kmsDigest),
      ("body", bodyJson requestContract), ("mySubmission", .null)]])]

def uncheckedSetup : GuardianSetup :=
  ⟨[1], 6000, fun _ _ => return .ok [], fun _ _ => return .ok [], fun _ _ => return .ok [],
    fun _ _ => return .ok [], none⟩

def kmsOptions : GuardianCoordinatorOptions (hosted env) :=
  ⟨buildGuardianFromEnv crypto kmsSigner uncheckedSetup, 100, some [1], none⟩

/-- The service answers every call with the DER bytes of the one signature. -/
def kmsReply : kmsSigner.Answer := .ok (some (.uint8Array highSignature.der))

def kmsAnswers : ∀ op : (coord (hosted env)).Op, (coord (hosted env)).Answer op
  | .inl (.inl .dateNow) => (1000000 : ℤ)
  | .inl (.inl (.eip712Domain ..)) => .ok ⟨"Facility", "1"⟩
  | .inl (.inl (.signTypedData td)) => kmsSigner.signTypedData crypto kmsReply td
  | .inl (.inl op) => boundClient op
  | .inl (.inr ()) => false
  | .inr (.getSigningRequests ..) => .ok (pageWith kmsBody.requestContract)
  | .inr (.putNonce ..) => .error .zodError
  | .inr (.putSubmission ..) => .ok .null
  | .inr (.log _) => ()

def kmsTrace : History (hosted env) :=
  (runGuardianCoordinator kmsOptions 1 1 .empty).trace kmsAnswers

theorem kmsTrace_bySigner : ∀ e ∈ kmsTrace, AnsweredBySigner crypto kmsSigner e := by
  rintro ⟨op, answer⟩ he
  obtain rfl : answer = kmsAnswers op := trace_answered _ _ _ he
  match op with
  | .inl (.inl op) =>
    cases op with
    | signTypedData td =>
      have hanswer : kmsAnswers (.inl (.inl (.signTypedData td))) =
          kmsSigner.signTypedData crypto kmsReply td := by
        simp only [kmsAnswers]
      exact ⟨kmsReply, hanswer⟩
    | _ => trivial
  | .inl (.inr ()) => trivial
  | .inr op => trivial

theorem kmsTrace_submits : ∃ id submission before answer after, kmsTrace =
    before ++ ⟨.inr (.putSubmission id submission), answer⟩ :: after := by
  have hsome : (submissions kmsTrace).head?.isSome = true := by decide +kernel
  obtain ⟨⟨id, submission⟩, hhead⟩ := Option.isSome_iff_exists.mp hsome
  obtain ⟨before, after, answer, hsplit⟩ := mem_submissions (List.mem_of_head? hhead)
  exact ⟨id, submission, before, answer, after, hsplit⟩

end Sample

/-- The HTTP signer answers without a signature, which is one of the two errors; a signature with
`s` in the upper half comes back from the KMS signer in its lower half, and is submitted. -/
theorem kms_signature_submitted :
    (∃ message, Sample.otherSigner.signTypedData Sample.crypto
      (.response 200 (.parsed .null)) Sample.kmsData = .error (.internalError message)) ∧
    (∃ yParity ∈ [0, 1], Sample.kmsSigner.signTypedData Sample.crypto
        (.ok (some (.uint8Array Sample.highSignature.der))) Sample.kmsData =
      .ok (serializedSignature (String.ofList Sample.highSignature.low.compactHex) yParity) ∧
      Sample.highSignature.low.s ≤ Secp256k1.order / 2) ∧
    ∃ id submission before answer after digest recovered, Sample.kmsTrace =
        before ++ ⟨.inr (.putSubmission id submission), answer⟩ :: after ∧
      Sample.crypto.recoverAddress digest submission.signature = .ok recovered ∧
      toLowerCase recovered = toLowerCase Sample.kmsAddress := by
  obtain ⟨hreturns, hkms, hsubmits⟩ :=
    signers_return_guardian_signatures Sample.crypto_documented Sample.crypto_recovers
  refine ⟨?_, hkms Sample.kmsSigner _ Sample.kmsData Sample.kmsDigest Sample.highSignature _ rfl
    ⟨rfl, rfl, rfl⟩ (.awsKms _) rfl, ?_⟩
  · rcases (hreturns Sample.otherSigner (.response 200 (.parsed .null)) Sample.kmsData).2
      Sample.kmsData_built (.internalError "Remote signer response missing signature") rfl with
      ⟨message, hmessage⟩ | ⟨_, _, hupstream⟩
    · exact ⟨message, congrArg Except.error hmessage⟩
    · cases hupstream
  · obtain ⟨id, submission, before, answer, after, htrace⟩ := Sample.kmsTrace_submits
    have hrun := executes_trace Sample.kmsAnswers
      (runGuardianCoordinator Sample.kmsOptions 1 1 .empty)
    rw [show Program.trace _ _ = _ from htrace] at hrun
    obtain ⟨next, hrun, _⟩ := hrun.split
    obtain ⟨_, _, _, _, _, announced, recovered, -, -, -, -, -, hrecovered, hsame⟩ :=
      hsubmits Sample.kmsSigner Sample.uncheckedSetup Sample.kmsOptions 1 1 before id submission
        next rfl hrun fun e he => Sample.kmsTrace_bySigner e (by
          rw [htrace]
          exact List.mem_append_left _ he)
    exact ⟨id, submission, before, answer, after, _, recovered, htrace, hrecovered, hsame⟩

end Guardian
