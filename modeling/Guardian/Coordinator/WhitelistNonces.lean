import Guardian.Coordinator.Rows

/-!
# Whitelist nonce candidates

The nonces of a validator's window that are not consumed, or, when there are
none, one transaction that moves the validator's floor. Every read names its
block, and nothing relates two answers: the chain may have moved in between.
-/

namespace Guardian
open Effect Text Program

inductive BlockTag where
  | latest
  | finalized
  deriving DecidableEq, Repr

inductive CountTag where
  | latest
  | pending
  deriving DecidableEq, Repr

/-- The calls on the validator's chain clients, its wallet and its signer. The
multicall reads one `isNonceConsumed` for each nonce. -/
inductive ValidatorOp where
  | getChainId (chain : ℕ)
  | getBlock (chain : ℕ) (blockTag : BlockTag)
  | isValidator (chain : ℕ) (address validator : Address) (blockNumber : ℕ)
  | validatorNonceFloor (chain : ℕ) (address validator : Address) (blockNumber : ℕ)
  | isNonceConsumed (chain : ℕ) (address validator : Address) (nonces : List ℕ) (blockNumber : ℕ)
  | getTransactionCount (chain : ℕ) (address : Address) (blockTag : CountTag)
  | setValidatorNonceFloor (chain : ℕ) (address account : Address) (newFloor nonce : ℕ)
  | waitForTransactionReceipt (chain : ℕ) (hash : String)
  | sign (parsed : ParsedSigningBody)

abbrev ValidatorOp.Answer : ValidatorOp → Type
  | getChainId _ => Except Caught ℕ
  | getBlock .. => Except Caught ℕ
  | isValidator .. => Except Caught Bool
  | validatorNonceFloor .. => Except Caught ℕ
  | isNonceConsumed _ _ _ nonces _ => Except Caught (List.Vector Bool nonces.length)
  | getTransactionCount .. => Except Caught ℕ
  | setValidatorNonceFloor .. => Except Caught String
  | waitForTransactionReceipt .. => Except Caught Bool
  | sign _ => Except Caught Json

abbrev validatorEnv : Signature := ⟨ValidatorOp, ValidatorOp.Answer⟩

abbrev Validating (α : Type) := Program validatorEnv α

abbrev onChain (op : ValidatorOp) : Validating op.Answer := @Program.call validatorEnv op

/-- `acceptedBooks` holds lower-case addresses; a chain without an entry accepts none. -/
structure WhitelistNonceOptions where
  clients : List ℕ
  guardianSigner : Address
  account : Option Address
  acceptedBooks : ℕ → Option (List Address)
  maxNonceAboveFloor : ℤ

def maxUint256 : ℕ := 2 ^ 256 - 1

section Candidates
variable (options : WhitelistNonceOptions)

/-- `Number(max < 255n ? max + 1n : 256n)`, as a length. -/
def candidateCount : ℕ :=
  (if options.maxNonceAboveFloor < 255 then options.maxNonceAboveFloor + 1 else 256).toNat

def candidateNonces (floor : ℕ) : List ℕ :=
  ((List.range (candidateCount options)).map (floor + ·)).filter fun n => decide (n < maxUint256)

def refuse {α : Type} (message : String) : Validating (Except Caught α) :=
  return .error (.error message)

/-- The floor increase, once every candidate is consumed at the latest block. -/
def advanceFloor (chain : ℕ) (address : Address) (floor : ℕ) (nonces : List ℕ) :
    Validating (Except Caught (List String)) :=
  (onChain (.getBlock chain .finalized)).andThen fun finalized =>
  (onChain (.isNonceConsumed chain address options.guardianSigner nonces finalized)).andThen
    fun confirmed =>
  if ¬ confirmed.toList.all id then
    refuse "Whitelist window consumed; waiting for finality before advancing floor"
  else if maxUint256 ≤ floor + nonces.length then refuse "Whitelist nonce space exhausted"
  else match options.account with
  | none => refuse ("Automatic nonce floor advancement requires a private-key, AWS KMS or " ++
      "GCP KMS transaction signer")
  | some account =>
  (onChain (.getTransactionCount chain options.guardianSigner .latest)).andThen fun latest =>
  (onChain (.getTransactionCount chain options.guardianSigner .pending)).andThen fun pending =>
  if latest ≠ pending then
    refuse "Guardian has a pending transaction; waiting before nonce floor advancement"
  else
  (onChain (.setValidatorNonceFloor chain address account (floor + nonces.length) latest)).andThen
    fun hash =>
  (onChain (.waitForTransactionReceipt chain hash)).andThen fun success =>
  if ¬ success then refuse "Whitelist nonce floor transaction reverted"
  else return .ok []

def availableNonces (nonces : List ℕ) (consumed : List Bool) : List ℕ :=
  ((nonces.zip consumed).filter fun x => !x.2).map Prod.fst

def candidatesAt (chain : ℕ) (address : Address) (block floor : ℕ) :
    Validating (Except Caught (List String)) :=
  if candidateNonces options floor = [] then refuse "Whitelist nonce space exhausted"
  else
  (onChain (.isNonceConsumed chain address options.guardianSigner
    (candidateNonces options floor) block)).andThen fun consumed =>
  if availableNonces (candidateNonces options floor) consumed.toList ≠ [] then
    return .ok ((availableNonces (candidateNonces options floor) consumed.toList).map toString)
  else advanceFloor options chain address floor (candidateNonces options floor)

def makeWhitelistNonceCandidates (body : RequestWhitelistingBody) :
    Validating (Except Caught (List String)) :=
  if body.chainId ∉ options.clients then refuse "Whitelist nonce chain mismatch"
  else
  (onChain (.getChainId body.chainId)).andThen fun chainId =>
  if chainId ≠ body.chainId then refuse "Whitelist nonce chain mismatch"
  else if ¬ (options.acceptedBooks body.chainId).any
      (fun books => decide (toLowerCase body.whitelistBook ∈ books)) then
    refuse "Independent whitelist nonces require an explicitly accepted whitelist book"
  else
  (onChain (.getBlock body.chainId .latest)).andThen fun block =>
  (onChain (.isValidator body.chainId body.whitelistBook options.guardianSigner block)).andThen
    fun isValidator =>
  if ¬ isValidator then refuse "Guardian is not a whitelist validator"
  else
  (onChain (.validatorNonceFloor body.chainId body.whitelistBook options.guardianSigner
    block)).andThen fun floor =>
  candidatesAt options body.chainId body.whitelistBook block floor

end Candidates

/-- The guardian of the command line: a client for each configured chain, the candidates
above, and one signing call for each kind of body. -/
def validatorGuardian (nonces : WhitelistNonceOptions) : CoordinatorGuardian validatorEnv where
  guardianSigner := nonces.guardianSigner
  probeUpstream := none
  getChainClient chainId :=
    if chainId ∈ nonces.clients then return .ok ()
    else return .error (.error s!"Unsupported chain {chainId}")
  signIntentRequestBinding body := onChain (.sign (.setRequest body))
  signIntentFundBinding body := onChain (.sign (.setFund body))
  signIntentSwap body := onChain (.sign (.swap body))
  signRequestWhitelisting := some fun body => onChain (.sign (.requestWhitelisting body))
  whitelistNonceCandidates := some (makeWhitelistNonceCandidates nonces)

section Window
variable {options : WhitelistNonceOptions} {floor n : ℕ}

theorem candidateNonces_eq (options : WhitelistNonceOptions) (floor : ℕ) :
    candidateNonces options floor =
      (List.range (min (candidateCount options) (maxUint256 - floor))).map (floor + ·) := by
  unfold candidateNonces
  induction candidateCount options with
  | zero => simp
  | succ count ih =>
    rw [List.range_succ, List.map_append, List.filter_append, ih]
    by_cases hlt : floor + count < maxUint256
    · have hmin : min (count + 1) (maxUint256 - floor) =
          min count (maxUint256 - floor) + 1 := by omega
      have hcount : min count (maxUint256 - floor) = count := by omega
      rw [hmin, List.range_succ, List.map_append, hcount]
      simp [hlt]
    · have hmin : min (count + 1) (maxUint256 - floor) = min count (maxUint256 - floor) := by omega
      rw [hmin]
      simp [hlt]

theorem length_candidateNonces :
    (candidateNonces options floor).length =
      min (candidateCount options) (maxUint256 - floor) := by
  rw [candidateNonces_eq, List.length_map, List.length_range]

theorem mem_candidateNonces : n ∈ candidateNonces options floor ↔
    floor ≤ n ∧ n < floor + (candidateNonces options floor).length := by
  rw [length_candidateNonces, candidateNonces_eq, List.mem_map]
  constructor
  · rintro ⟨i, hi, rfl⟩
    rw [List.mem_range] at hi
    omega
  · rintro ⟨hle, hlt⟩
    exact ⟨n - floor, List.mem_range.mpr (by omega), by omega⟩

theorem candidateCount_le (h : 0 < candidateCount options) :
    (candidateCount options : ℤ) ≤ min options.maxNonceAboveFloor 255 + 1 := by
  unfold candidateCount at h ⊢
  split at h <;> omega

theorem mem_availableNonces {nonces : List ℕ} {consumed : List Bool} :
    n ∈ availableNonces nonces consumed ↔ (n, false) ∈ nonces.zip consumed := by
  simp only [availableNonces, List.mem_map, List.mem_filter]
  constructor
  · rintro ⟨⟨m, b⟩, ⟨hmem, hb⟩, rfl⟩
    obtain rfl : b = false := by simpa using hb
    exact hmem
  · exact fun h => ⟨(n, false), ⟨h, rfl⟩, rfl⟩

theorem mem_zip_of_mem {nonces : List ℕ} {bits : List Bool} (hlength : nonces.length = bits.length)
    (hn : n ∈ nonces) : ∃ b, (n, b) ∈ nonces.zip bits := by
  have hmem : n ∈ (nonces.zip bits).map Prod.fst := by
    rwa [List.map_fst_zip (by omega)]
  obtain ⟨⟨m, b⟩, h, rfl⟩ := List.mem_map.mp hmem
  exact ⟨b, h⟩

theorem consumed_of_availableNonces {nonces : List ℕ} {consumed : List.Vector Bool nonces.length}
    (h : availableNonces nonces consumed.toList = []) (hn : n ∈ nonces) :
    (n, true) ∈ nonces.zip consumed.toList := by
  obtain ⟨b, hb⟩ := mem_zip_of_mem consumed.toList_length.symm hn
  cases b with
  | true => exact hb
  | false =>
    have hmem := mem_availableNonces.mpr hb
    rw [h] at hmem
    cases hmem

theorem confirmed_of_all {nonces : List ℕ} {confirmed : List.Vector Bool nonces.length}
    (h : confirmed.toList.all id = true) (hn : n ∈ nonces) :
    (n, true) ∈ nonces.zip confirmed.toList := by
  obtain ⟨b, hb⟩ := mem_zip_of_mem confirmed.toList_length.symm hn
  have hbits := List.all_eq_true.mp h b (List.of_mem_zip hb).2
  rwa [show b = true from hbits] at hb

end Window

section Runs
variable {options : WhitelistNonceOptions} {body : RequestWhitelistingBody}
  {chain : ℕ} {address : Address} {block floor : ℕ} {tr : List (Event validatorEnv)}
  {op : ValidatorOp} {next : op.Answer → Validating (Except Caught (List String))}

def isSend : ValidatorOp → Bool
  | .setValidatorNonceFloor .. => true
  | _ => false

def isRead : ValidatorOp → Bool
  | .setValidatorNonceFloor .. => false
  | .sign _ => false
  | _ => true

def floorReads (options : WhitelistNonceOptions) (body : RequestWhitelistingBody)
    (block floor : ℕ) : List (Event validatorEnv) :=
  [⟨.getChainId body.chainId, .ok body.chainId⟩, ⟨.getBlock body.chainId .latest, .ok block⟩,
    ⟨.isValidator body.chainId body.whitelistBook options.guardianSigner block, .ok true⟩,
    ⟨.validatorNonceFloor body.chainId body.whitelistBook options.guardianSigner block,
      .ok floor⟩]

def consumptionRead (options : WhitelistNonceOptions) (chain : ℕ) (address : Address)
    (floor block : ℕ) (bits : List.Vector Bool (candidateNonces options floor).length) :
    Event validatorEnv :=
  ⟨.isNonceConsumed chain address options.guardianSigner (candidateNonces options floor) block,
    .ok bits⟩

def advanceReads (options : WhitelistNonceOptions) (chain : ℕ) (address : Address)
    (floor finalized nonce : ℕ)
    (confirmed : List.Vector Bool (candidateNonces options floor).length) :
    List (Event validatorEnv) :=
  [⟨.getBlock chain .finalized, .ok finalized⟩,
    consumptionRead options chain address floor finalized confirmed,
    ⟨.getTransactionCount chain options.guardianSigner .latest, .ok nonce⟩,
    ⟨.getTransactionCount chain options.guardianSigner .pending, .ok nonce⟩]

theorem makeWhitelistNonceCandidates_runs {q : Validating (Except Caught (List String))}
    (h : Runs (makeWhitelistNonceCandidates options body) tr q) :
    (∃ op next, q = .perform op next ∧ isRead op = true) ∨ (∃ e, q = .done (.error e)) ∨
      ∃ block floor tr', tr = floorReads options body block floor ++ tr' ∧
        Runs (candidatesAt options body.chainId body.whitelistBook block floor) tr' q := by
  unfold makeWhitelistNonceCandidates at h
  split at h
  · exact .inr (.inl ⟨_, (runs_done.mp h).2⟩)
  cases h with
  | refl => exact .inl ⟨_, _, rfl, rfl⟩
  | step r h =>
  cases r with
  | error e => exact .inr (.inl ⟨_, (runs_done.mp h).2⟩)
  | ok chainId =>
  dsimp only [bind_done] at h
  split at h
  · exact .inr (.inl ⟨_, (runs_done.mp h).2⟩)
  rename_i hchain
  obtain rfl := not_not.mp hchain
  split at h
  · exact .inr (.inl ⟨_, (runs_done.mp h).2⟩)
  cases h with
  | refl => exact .inl ⟨_, _, rfl, rfl⟩
  | step r h =>
  cases r with
  | error e => exact .inr (.inl ⟨_, (runs_done.mp h).2⟩)
  | ok block =>
  cases h with
  | refl => exact .inl ⟨_, _, rfl, rfl⟩
  | step r h =>
  cases r with
  | error e => exact .inr (.inl ⟨_, (runs_done.mp h).2⟩)
  | ok isValidator =>
  dsimp only [bind_done] at h
  split at h
  · exact .inr (.inl ⟨_, (runs_done.mp h).2⟩)
  rename_i hvalidator
  obtain rfl := not_not.mp hvalidator
  cases h with
  | refl => exact .inl ⟨_, _, rfl, rfl⟩
  | step r h =>
  cases r with
  | error e => exact .inr (.inl ⟨_, (runs_done.mp h).2⟩)
  | ok floor => exact .inr (.inr ⟨block, floor, _, rfl, h⟩)

theorem advanceFloor_runs {q : Validating (Except Caught (List String))}
    (h : Runs (advanceFloor options chain address floor (candidateNonces options floor)) tr q) :
    (∃ op next, q = .perform op next ∧ isRead op = true) ∨ (∃ e, q = .done (.error e)) ∨
      q = .done (.ok []) ∨ ∃ finalized nonce account confirmed next,
        q = .perform (.setValidatorNonceFloor chain address account
          (floor + (candidateNonces options floor).length) nonce) next ∧
        tr = advanceReads options chain address floor finalized nonce confirmed ∧
        options.account = some account ∧ confirmed.toList.all id = true ∧
        floor + (candidateNonces options floor).length < maxUint256 := by
  unfold advanceFloor at h
  cases h with
  | refl => exact .inl ⟨_, _, rfl, rfl⟩
  | step r h =>
  cases r with
  | error e => exact .inr (.inl ⟨_, (runs_done.mp h).2⟩)
  | ok finalized =>
  cases h with
  | refl => exact .inl ⟨_, _, rfl, rfl⟩
  | step r h =>
  cases r with
  | error e => exact .inr (.inl ⟨_, (runs_done.mp h).2⟩)
  | ok confirmed =>
  dsimp only [bind_done] at h
  split at h
  · exact .inr (.inl ⟨_, (runs_done.mp h).2⟩)
  split at h
  · exact .inr (.inl ⟨_, (runs_done.mp h).2⟩)
  rename_i hconfirmed hbelow
  split at h
  · exact .inr (.inl ⟨_, (runs_done.mp h).2⟩)
  rename_i account haccount
  cases h with
  | refl => exact .inl ⟨_, _, rfl, rfl⟩
  | step r h =>
  cases r with
  | error e => exact .inr (.inl ⟨_, (runs_done.mp h).2⟩)
  | ok latest =>
  cases h with
  | refl => exact .inl ⟨_, _, rfl, rfl⟩
  | step r h =>
  cases r with
  | error e => exact .inr (.inl ⟨_, (runs_done.mp h).2⟩)
  | ok pending =>
  dsimp only [bind_done] at h
  split at h
  · exact .inr (.inl ⟨_, (runs_done.mp h).2⟩)
  rename_i hcounts
  obtain rfl := not_not.mp hcounts
  cases h with
  | refl =>
    exact .inr (.inr (.inr ⟨finalized, latest, account, confirmed, _, rfl, rfl, haccount,
      not_not.mp hconfirmed, not_le.mp hbelow⟩))
  | step r h =>
  cases r with
  | error e => exact .inr (.inl ⟨_, (runs_done.mp h).2⟩)
  | ok hash =>
  cases h with
  | refl => exact .inl ⟨_, _, rfl, rfl⟩
  | step r h =>
  cases r with
  | error e => exact .inr (.inl ⟨_, (runs_done.mp h).2⟩)
  | ok success =>
  dsimp only [bind_done] at h
  split at h
  · exact .inr (.inl ⟨_, (runs_done.mp h).2⟩)
  · exact .inr (.inr (.inl (runs_done.mp h).2))

/-- Where a run of the call stands; only the last stage has a transaction to send. -/
inductive WhitelistNonceStage (options : WhitelistNonceOptions) (body : RequestWhitelistingBody) :
    List (Event validatorEnv) → Validating (Except Caught (List String)) → Prop where
  | reading {tr : List (Event validatorEnv)} {op : ValidatorOp}
      {next : op.Answer → Validating (Except Caught (List String))} (read : isRead op = true) :
      WhitelistNonceStage options body tr (.perform op next)
  | failed {tr : List (Event validatorEnv)} {e : Caught} :
      WhitelistNonceStage options body tr (.done (.error e))
  | advanced {tr : List (Event validatorEnv)} :
      WhitelistNonceStage options body tr (.done (.ok []))
  | available {block floor : ℕ}
      {consumed : List.Vector Bool (candidateNonces options floor).length} :
      WhitelistNonceStage options body
        (floorReads options body block floor ++
          [consumptionRead options body.chainId body.whitelistBook floor block consumed])
        (.done (.ok ((availableNonces (candidateNonces options floor) consumed.toList).map
          toString)))
  | advancing {block floor finalized nonce : ℕ} {account : Address}
      {consumed confirmed : List.Vector Bool (candidateNonces options floor).length}
      {next : Except Caught String → Validating (Except Caught (List String))}
      (hasAccount : options.account = some account)
      (nonempty : candidateNonces options floor ≠ [])
      (allConsumed : availableNonces (candidateNonces options floor) consumed.toList = [])
      (allConfirmed : confirmed.toList.all id = true)
      (below : floor + (candidateNonces options floor).length < maxUint256) :
      WhitelistNonceStage options body
        (floorReads options body block floor ++
          consumptionRead options body.chainId body.whitelistBook floor block consumed ::
          advanceReads options body.chainId body.whitelistBook floor finalized nonce confirmed)
        (.perform (.setValidatorNonceFloor body.chainId body.whitelistBook account
          (floor + (candidateNonces options floor).length) nonce) next)

theorem candidatesAt_stage {q : Validating (Except Caught (List String))}
    (h : Runs (candidatesAt options body.chainId body.whitelistBook block floor) tr q) :
    WhitelistNonceStage options body (floorReads options body block floor ++ tr) q := by
  unfold candidatesAt at h
  split at h
  · rw [(runs_done.mp h).2]
    exact .failed
  rename_i hnonempty
  cases h with
  | refl => exact .reading rfl
  | step r h =>
  cases r with
  | error e =>
    rw [(runs_done.mp h).2]
    exact .failed
  | ok consumed =>
  dsimp only [bind_done] at h
  split at h
  · obtain ⟨rfl, rfl⟩ := runs_done.mp h
    exact .available
  rename_i hconsumed
  rcases advanceFloor_runs h with ⟨op, next, rfl, hop⟩ | ⟨e, rfl⟩ | rfl |
    ⟨finalized, nonce, account, confirmed, next, rfl, rfl, haccount, hconfirmed, hbelow⟩
  · exact .reading hop
  · exact .failed
  · exact .advanced
  · exact .advancing haccount hnonempty (not_not.mp hconsumed) hconfirmed hbelow

theorem makeWhitelistNonceCandidates_stage {q : Validating (Except Caught (List String))}
    (h : Runs (makeWhitelistNonceCandidates options body) tr q) :
    WhitelistNonceStage options body tr q := by
  rcases makeWhitelistNonceCandidates_runs h with ⟨op, next, rfl, hop⟩ | ⟨e, rfl⟩ |
    ⟨block, floor, tr', rfl, hrest⟩
  · exact .reading hop
  · exact .failed
  · exact candidatesAt_stage hrest

end Runs
end Guardian
