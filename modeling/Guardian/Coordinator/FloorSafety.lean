import Guardian.Coordinator.SubmissionGate
import Guardian.Coordinator.WhitelistNonces
import Guardian.Lib.FinalizedLog
import Guardian.Lib.Interleaving

/-!
# The nonce floor never passes an unconsumed nonce

Replicas share chains that reorganise above their finalized prefix. A
transaction may be mined at any time after it was sent, in any order and on any
fork. Every floor that was ever sent is safe: the nonces below it, from the
initial floor on, are consumed in finalized blocks. That holds of the floor a
replica reads at any block, so it holds of the next floor it sends.
-/

namespace Guardian
open Effect Text Program

structure FloorTransaction where
  book : Address
  validator : Address
  floor : ℕ
  deriving DecidableEq, Repr

inductive BookWrite where
  | consume (book validator : Address) (nonce : ℕ)
  | setFloor (transaction : FloorTransaction)
  deriving DecidableEq, Repr

abbrev Block := List BookWrite

structure BookChain where
  log : FinalizedLog Block
  sent : List FloorTransaction

abbrev Chains := ℕ → BookChain

/-- `validatorNonceFloor` of each chain, book and validator before the first block. -/
abbrev InitialFloors := ℕ → Address → Address → ℕ

def writeFloor (book validator : Address) (floor : ℕ) : BookWrite → ℕ
  | .setFloor tx => if tx.book = book ∧ tx.validator = validator then tx.floor else floor
  | .consume .. => floor

def floorAfter (initial : ℕ) (book validator : Address) (blocks : List Block) : ℕ :=
  blocks.flatten.foldl (writeFloor book validator) initial

def consumedIn (blocks : List Block) (book validator : Address) (nonce : ℕ) : Bool :=
  decide (.consume book validator nonce ∈ blocks.flatten)

def ChainAnswers (initial : InitialFloors) (s : Chains) : Event validatorEnv → Prop
  | ⟨.getBlock chain .latest, .ok number⟩ => number < (s chain).log.blocks.length
  | ⟨.getBlock chain .finalized, .ok number⟩ => number < (s chain).log.finalized
  | ⟨.validatorNonceFloor chain book validator number, .ok floor⟩ =>
    number < (s chain).log.blocks.length ∧
      floor = floorAfter (initial chain book validator) book validator ((s chain).log.upTo number)
  | ⟨.isNonceConsumed chain book validator nonces number, .ok consumed⟩ =>
    number < (s chain).log.blocks.length ∧
      consumed.toList = nonces.map (consumedIn ((s chain).log.upTo number) book validator)
  | _ => True

def afterCall (s : Chains) : ValidatorOp → Chains
  | .setValidatorNonceFloor chain book account floor _ =>
    Function.update s chain
      { s chain with sent := ⟨book, account, floor⟩ :: (s chain).sent }
  | _ => s

/-- Reorganisation, growth and finality; nobody else writes the floors. -/
structure ChainMoves (c c' : BookChain) : Prop where
  log : c.log.Moves c'.log
  sent : c'.sent = c.sent
  onlySent : ∀ tx, .setFloor tx ∈ c'.log.blocks.flatten → tx ∈ c.sent

def floorWorld (ι : Type) (initial : InitialFloors) : World (coord validatorEnv) ι Chains where
  serves _ s e s' :=
    match e with
    | ⟨.inl op, answer⟩ => ChainAnswers initial s ⟨op, answer⟩ ∧ s' = afterCall s op
    | ⟨.inr _, _⟩ => s' = s
  evolves s s' := ∃ chain next, ChainMoves (s chain) next ∧ s' = Function.update s chain next

def Fresh (s : Chains) : Prop :=
  ∀ chain, (s chain).sent = [] ∧ ∀ tx, .setFloor tx ∉ (s chain).log.blocks.flatten

/-- A coordinator process whose account is its guardian's and that signs without transactions. -/
structure Replica where
  options : GuardianCoordinatorOptions validatorEnv
  nonces : WhitelistNonceOptions
  configured : options.guardian.whitelistNonceCandidates =
    some (makeWhitelistNonceCandidates nonces)
  ownAccount : ∀ account, nonces.account = some account → account = nonces.guardianSigner
  signsOnly : ∀ parsed, (runSigningOf options.guardian parsed).Performs fun op => isSend op = false

section Safety
variable {initial : InitialFloors} {s s' : Chains} {chain floor nonce : ℕ}
  {book validator : Address}

def FinallyConsumed (s : Chains) (chain : ℕ) (book validator : Address) (nonce : ℕ) : Prop :=
  consumedIn (s chain).log.final book validator nonce = true

def SafeFloor (initial : InitialFloors) (s : Chains) (chain : ℕ) (book validator : Address)
    (floor : ℕ) : Prop :=
  ∀ nonce, initial chain book validator ≤ nonce → nonce < floor →
    FinallyConsumed s chain book validator nonce

/-- Every floor on a chain was sent, and every sent floor is safe. -/
structure SafeChains (initial : InitialFloors) (s : Chains) : Prop where
  onlySent : ∀ chain tx, .setFloor tx ∈ (s chain).log.blocks.flatten → tx ∈ (s chain).sent
  safe : ∀ chain tx, tx ∈ (s chain).sent →
    SafeFloor initial s chain tx.book tx.validator tx.floor

theorem consumedIn_prefix {blocks blocks' : List Block} (h : blocks <+: blocks')
    (hconsumed : consumedIn blocks book validator nonce = true) :
    consumedIn blocks' book validator nonce = true := by
  obtain ⟨tail, rfl⟩ := h
  simp only [consumedIn, decide_eq_true_eq, List.flatten_append, List.mem_append] at hconsumed ⊢
  exact .inl hconsumed

theorem foldl_writeFloor (writes : Block) (initial : ℕ) :
    writes.foldl (writeFloor book validator) initial = initial ∨
      .setFloor ⟨book, validator, writes.foldl (writeFloor book validator) initial⟩ ∈ writes := by
  induction writes generalizing initial with
  | nil => exact .inl rfl
  | cons write writes ih =>
    rw [List.foldl_cons]
    rcases ih (writeFloor book validator initial write) with h | h
    · rw [h]
      cases write with
      | consume => exact .inl rfl
      | setFloor tx =>
        by_cases hkey : tx.book = book ∧ tx.validator = validator
        · refine .inr (List.mem_cons.mpr (.inl ?_))
          obtain ⟨rfl, rfl⟩ := hkey
          simp [writeFloor]
        · exact .inl (if_neg hkey)
    · exact .inr (List.mem_cons_of_mem _ h)

theorem SafeChains.floorAfter_safe (h : SafeChains initial s) {blocks : List Block}
    (hgrown : blocks <+: (s chain).log.blocks) :
    SafeFloor initial s chain book validator
      (floorAfter (initial chain book validator) book validator blocks) := by
  rcases foldl_writeFloor blocks.flatten (initial chain book validator) with heq | hmem
  · intro nonce hle hlt
    rw [floorAfter, heq] at hlt
    omega
  · have hblocks : .setFloor ⟨book, validator,
        floorAfter (initial chain book validator) book validator blocks⟩ ∈
        (s chain).log.blocks.flatten := by
      obtain ⟨tail, htail⟩ := hgrown
      rw [← htail, List.flatten_append]
      exact List.mem_append_left _ hmem
    exact h.safe chain _ (h.onlySent chain _ hblocks)

def Moved (s s' : Chains) : Prop := ∀ chain, (s chain).log.Moves (s' chain).log

theorem FinallyConsumed.moved (h : FinallyConsumed s chain book validator nonce)
    (hmoved : Moved s s') : FinallyConsumed s' chain book validator nonce :=
  consumedIn_prefix (hmoved chain).final_extends h

theorem SafeFloor.moved (h : SafeFloor initial s chain book validator floor)
    (hmoved : Moved s s') : SafeFloor initial s' chain book validator floor :=
  fun nonce hle hlt => (h nonce hle hlt).moved hmoved

theorem afterCall_moved (s : Chains) (op : ValidatorOp) : Moved s (afterCall s op) := by
  intro chain
  cases op with
  | setValidatorNonceFloor chain' book account floor nonce =>
    by_cases hchain : chain = chain'
    · subst hchain
      simpa only [afterCall, Function.update_self] using FinalizedLog.Moves.refl _
    · simpa only [afterCall, Function.update_of_ne hchain] using FinalizedLog.Moves.refl _
  | _ => exact .refl _

theorem evolves_moved {next : BookChain} (h : ChainMoves (s chain) next) :
    Moved s (Function.update s chain next) := by
  intro chain'
  by_cases hchain : chain' = chain
  · subst hchain
    simpa only [Function.update_self] using h.log
  · simpa only [Function.update_of_ne hchain] using FinalizedLog.Moves.refl _

theorem SafeChains.evolves (h : SafeChains initial s) {next : BookChain}
    (hmoves : ChainMoves (s chain) next) :
    SafeChains initial (Function.update s chain next) := by
  have hsent : ∀ chain', (Function.update s chain next chain').sent = (s chain').sent := by
    intro chain'
    by_cases hchain : chain' = chain
    · subst hchain
      simpa only [Function.update_self] using hmoves.sent
    · rw [Function.update_of_ne hchain]
  constructor
  · intro chain' tx htx
    rw [hsent]
    by_cases hchain : chain' = chain
    · subst hchain
      rw [Function.update_self] at htx
      exact hmoves.onlySent tx htx
    · rw [Function.update_of_ne hchain] at htx
      exact h.onlySent chain' tx htx
  · intro chain' tx htx
    rw [hsent] at htx
    exact (h.safe chain' tx htx).moved (evolves_moved hmoves)

theorem SafeChains.afterCall (h : SafeChains initial s) {op : ValidatorOp}
    (hop : ∀ chain book account floor nonce,
      op = .setValidatorNonceFloor chain book account floor nonce →
        SafeFloor initial s chain book account floor) :
    SafeChains initial (afterCall s op) := by
  cases op with
  | setValidatorNonceFloor chain book account floor nonce =>
    have hsafe := hop chain book account floor nonce rfl
    have hmoved := afterCall_moved s (.setValidatorNonceFloor chain book account floor nonce)
    constructor
    · intro chain' tx htx
      by_cases hchain : chain' = chain
      · subst hchain
        simp only [Guardian.afterCall, Function.update_self] at htx ⊢
        exact List.mem_cons_of_mem _ (h.onlySent chain' tx htx)
      · simp only [Guardian.afterCall, Function.update_of_ne hchain] at htx ⊢
        exact h.onlySent chain' tx htx
    · intro chain' tx htx
      refine SafeFloor.moved ?_ hmoved
      by_cases hchain : chain' = chain
      · subst hchain
        simp only [Guardian.afterCall, Function.update_self] at htx
        rcases List.mem_cons.mp htx with rfl | htx
        · exact hsafe
        · exact h.safe chain' tx htx
      · simp only [Guardian.afterCall, Function.update_of_ne hchain] at htx
        exact h.safe chain' tx htx
  | _ => exact h

end Safety

/-- Finalized block numbers, floors at any block, and nonces consumed at a block
that was known to be finalized when it was read. -/
structure Facts where
  finalized : ℕ → ℕ → Prop
  floor : ℕ → Address → Address → ℕ → Prop
  confirmed : ℕ → Address → Address → ℕ → Prop

namespace Facts

def empty : Facts := ⟨fun _ _ => False, fun _ _ _ _ => False, fun _ _ _ _ => False⟩

def learn (k : Facts) : Event validatorEnv → Facts
  | ⟨.getBlock chain .finalized, .ok number⟩ =>
    { k with finalized := fun c n => k.finalized c n ∨ (c = chain ∧ n = number) }
  | ⟨.validatorNonceFloor chain book validator _, .ok floor⟩ =>
    { k with floor := fun c b v f =>
        k.floor c b v f ∨ (c = chain ∧ b = book ∧ v = validator ∧ f = floor) }
  | ⟨.isNonceConsumed chain book validator nonces number, .ok consumed⟩ =>
    { k with confirmed := fun c b v n => k.confirmed c b v n ∨
        (c = chain ∧ b = book ∧ v = validator ∧ k.finalized chain number ∧
          (n, true) ∈ nonces.zip consumed.toList) }
  | _ => k

structure Hold (initial : InitialFloors) (s : Chains) (k : Facts) : Prop where
  finalized : ∀ chain number, k.finalized chain number → number < (s chain).log.finalized
  floor : ∀ chain book validator floor, k.floor chain book validator floor →
    SafeFloor initial s chain book validator floor
  confirmed : ∀ chain book validator nonce, k.confirmed chain book validator nonce →
    FinallyConsumed s chain book validator nonce

variable {initial : InitialFloors} {s s' : Chains} {k : Facts}

theorem Hold.moved (h : k.Hold initial s) (hmoved : Moved s s') : k.Hold initial s' :=
  ⟨fun chain number hk => (h.finalized chain number hk).trans_le (hmoved chain).finality,
    fun chain book validator floor hk => (h.floor chain book validator floor hk).moved hmoved,
    fun chain book validator nonce hk => (h.confirmed chain book validator nonce hk).moved hmoved⟩

theorem of_mem_zip_map {α : Type} {f : α → Bool} {a : α} {b : Bool} {l : List α}
    (h : (a, b) ∈ l.zip (l.map f)) : f a = b := by
  induction l with
  | nil => cases h
  | cons x l ih =>
    rcases List.mem_cons.mp h with heq | h
    · cases heq
      rfl
    · exact ih h

theorem Hold.learn (h : k.Hold initial s) (hsafe : SafeChains initial s) {e : Event validatorEnv}
    (he : ChainAnswers initial s e) : (k.learn e).Hold initial s := by
  unfold Facts.learn
  split
  · refine ⟨?_, h.floor, h.confirmed⟩
    rintro chain number (hk | ⟨rfl, rfl⟩)
    · exact h.finalized chain number hk
    · exact he
  · refine ⟨h.finalized, ?_, h.confirmed⟩
    rintro chain book validator floor (hk | ⟨rfl, rfl, rfl, rfl⟩)
    · exact h.floor chain book validator floor hk
    · rw [he.2]
      exact hsafe.floorAfter_safe ((s chain).log.upTo_prefix _)
  · rename_i number consumed
    refine ⟨h.finalized, h.floor, ?_⟩
    rintro chain book validator nonce (hk | ⟨rfl, rfl, rfl, hfinal, hzip⟩)
    · exact h.confirmed chain book validator nonce hk
    · rw [he.2] at hzip
      exact consumedIn_prefix (FinalizedLog.upTo_final (h.finalized chain number hfinal))
        (of_mem_zip_map hzip)
  · exact h

end Facts

/-- A floor may only be sent from a floor that was read, over confirmed nonces. -/
def advancing : Protocol (coord validatorEnv) Facts where
  permits k
    | .inl (.setValidatorNonceFloor chain book account newFloor _) =>
      ∃ floor, k.floor chain book account floor ∧
        ∀ nonce, floor ≤ nonce → nonce < newFloor → k.confirmed chain book account nonce
    | _ => True
  expects _ _ := True
  advance k
    | ⟨.inl op, answer⟩ => k.learn ⟨op, answer⟩
    | ⟨.inr _, _⟩ => k

theorem isSend_of_isRead {op : ValidatorOp} (h : isRead op = true) : isSend op = false := by
  cases op <;> first | rfl | cases h

theorem advancing_permits_of_not_send {k : Facts} {op : ValidatorOp} (h : isSend op = false) :
    advancing.left.permits k op := by
  cases op <;> trivial

theorem makeWhitelistNonceCandidates_advancing {nonces : WhitelistNonceOptions}
    (ownAccount : ∀ account, nonces.account = some account → account = nonces.guardianSigner)
    (body : RequestWhitelistingBody) (k : Facts) :
    (makeWhitelistNonceCandidates nonces body).Obeys advancing.left (fun _ _ => True) k := by
  refine obeys_of_runs (fun tr op next h => ?_) fun _ _ _ => trivial
  cases makeWhitelistNonceCandidates_stage h with
  | reading hread => exact advancing_permits_of_not_send (isSend_of_isRead hread)
  | advancing hasAccount nonempty allConsumed allConfirmed below =>
    rename_i block floor finalized nonce account consumed confirmed _
    obtain rfl := ownAccount account hasAccount
    refine ⟨floor, .inr ⟨rfl, rfl, rfl, rfl⟩, fun n hle hlt => ?_⟩
    have hmem := confirmed_of_all allConfirmed (mem_candidateNonces.mpr ⟨hle, hlt⟩)
    exact .inr ⟨rfl, rfl, rfl, .inr ⟨rfl, rfl⟩, hmem⟩

theorem Replica.keeps (replica : Replica) :
    GuardianKeeps advancing replica.options.guardian where
  computes compute body g h := by
    rw [replica.configured] at h
    cases h
    exact makeWhitelistNonceCandidates_advancing replica.ownAccount body g
  signs parsed _ := (replica.signsOnly parsed).permitted fun _ _ => advancing_permits_of_not_send

section Replicas
variable {ι : Type} [DecidableEq ι] {initial : InitialFloors} {s : Chains}

/-- The chains are safe and everything the processes have read is true. -/
def FloorInvariant (initial : InitialFloors) (s : Chains)
    (log : List (ι × Event (coord validatorEnv))) : Prop :=
  SafeChains initial s ∧
    ∀ i, (advancing.state .empty (Config.eventsOf i log)).Hold initial s

theorem FloorInvariant.serve {i : ι} {s s' : Chains} {log : List (ι × Event (coord validatorEnv))}
    {e : Event (coord validatorEnv)} (h : FloorInvariant initial s log)
    (hpermits : advancing.permits (advancing.state .empty (Config.eventsOf i log)) e.op)
    (hserves : (floorWorld ι initial).serves i s e s') :
    FloorInvariant initial s' (log ++ [(i, e)]) := by
  obtain ⟨hsafe, hfacts⟩ := h
  obtain ⟨op, answer⟩ := e
  cases op with
  | inr op =>
    obtain rfl := hserves
    refine ⟨hsafe, fun j => ?_⟩
    by_cases hij : i = j
    · subst hij
      rw [Config.eventsOf_snoc_self, Protocol.state, List.foldl_concat]
      exact hfacts i
    · rw [Config.eventsOf_snoc_other hij]
      exact hfacts j
  | inl op =>
    obtain ⟨hanswers, rfl⟩ := hserves
    have hmoved := afterCall_moved s op
    refine ⟨hsafe.afterCall ?_, fun j => ?_⟩
    · rintro chain book account newFloor nonce rfl
      obtain ⟨floor, hfloor, hconfirmed⟩ := hpermits
      intro n hle hlt
      by_cases hbelow : n < floor
      · exact (hfacts i).floor chain book account floor hfloor n hle hbelow
      · exact (hfacts i).confirmed chain book account n
          (hconfirmed n (not_lt.mp hbelow) hlt)
    · by_cases hij : i = j
      · subst hij
        rw [Config.eventsOf_snoc_self, Protocol.state, List.foldl_concat]
        exact ((hfacts i).learn hsafe hanswers).moved hmoved
      · rw [Config.eventsOf_snoc_other hij]
        exact (hfacts j).moved hmoved

theorem FloorInvariant.evolve {s s' : Chains} {log : List (ι × Event (coord validatorEnv))}
    (h : FloorInvariant initial s log) (hmoves : (floorWorld ι initial).evolves s s') :
    FloorInvariant initial s' log := by
  obtain ⟨chain, next, hmoves, rfl⟩ := hmoves
  exact ⟨h.1.evolves hmoves, fun i => (h.2 i).moved (evolves_moved hmoves)⟩

theorem FloorInvariant.init (hfresh : Fresh s) : FloorInvariant (ι := ι) initial s [] := by
  refine ⟨⟨fun chain tx htx => ((hfresh chain).2 tx htx).elim, fun chain tx htx => ?_⟩, fun i => ?_⟩
  · rw [(hfresh chain).1] at htx
    cases htx
  · exact ⟨nofun, nofun, nofun⟩

theorem reachable_safeChains (replica : ι → Replica) (fuel polls : ι → ℕ) (hfresh : Fresh s)
    {c : Config (coord validatorEnv) ι Chains SignTimeouts}
    (h : Config.Reachable (floorWorld ι initial) s
      (fun i => runGuardianCoordinator (replica i).options (fuel i) (polls i) .empty) c) :
    SafeChains initial c.world := by
  have hprograms : ∀ i, (runGuardianCoordinator (replica i).options (fuel i) (polls i)
      .empty).Obeys advancing (fun _ _ => True) Facts.empty := fun i =>
    ((replica i).keeps.rule fun _ _ => trivial).runGuardianCoordinator_obeys _ _ trivial
  have hinvariant := Config.reachable_obeys (P := fun _ => advancing) (g := fun _ => .empty)
    (FloorInvariant.init hfresh)
    (fun i s log e s' hI hpermits hserves => ⟨trivial, hI.serve hpermits hserves⟩)
    (fun s log s' hI hmoves => hI.evolve hmoves) hprograms h
  exact hinvariant.1.1

end Replicas

def ReadConsumed (tr : List (Event validatorEnv)) (chain : ℕ) (book validator : Address)
    (nonce block : ℕ) : Prop :=
  ∃ nonces consumed, (⟨.isNonceConsumed chain book validator nonces block, .ok consumed⟩ :
    Event validatorEnv) ∈ tr ∧ (nonce, true) ∈ nonces.zip consumed.toList

structure FloorAdvance (options : WhitelistNonceOptions) (body : RequestWhitelistingBody)
    (tr : List (Event validatorEnv)) (op : ValidatorOp)
    (floor newFloor block finalized nonce : ℕ) : Prop where
  sends : ∃ account, options.account = some account ∧
    op = .setValidatorNonceFloor body.chainId body.whitelistBook account newFloor nonce
  latestRead : ⟨.getBlock body.chainId .latest, .ok block⟩ ∈ tr
  floorRead : ⟨.validatorNonceFloor body.chainId body.whitelistBook options.guardianSigner block,
    .ok floor⟩ ∈ tr
  finalizedRead : ⟨.getBlock body.chainId .finalized, .ok finalized⟩ ∈ tr
  above : floor < newFloor
  below : newFloor < maxUint256
  bounded : (newFloor : ℤ) - floor ≤ min options.maxNonceAboveFloor 255 + 1
  consumed : ∀ n, floor ≤ n → n < newFloor →
    ReadConsumed tr body.chainId body.whitelistBook options.guardianSigner n block ∧
      ReadConsumed tr body.chainId body.whitelistBook options.guardianSigner n finalized
  notPending : ⟨.getTransactionCount body.chainId options.guardianSigner .latest, .ok nonce⟩ ∈ tr ∧
    ⟨.getTransactionCount body.chainId options.guardianSigner .pending, .ok nonce⟩ ∈ tr

section Call
variable {options : WhitelistNonceOptions} {body : RequestWhitelistingBody}
  {tr : List (Event validatorEnv)}

theorem makeWhitelistNonceCandidates_sends {op : ValidatorOp}
    {next : op.Answer → Validating (Except Caught (List String))}
    (h : Runs (makeWhitelistNonceCandidates options body) tr (.perform op next))
    (hsend : isSend op = true) :
    ∃ floor newFloor block finalized nonce,
      FloorAdvance options body tr op floor newFloor block finalized nonce := by
  cases makeWhitelistNonceCandidates_stage h with
  | reading hread =>
    rw [isSend_of_isRead hread] at hsend
    cases hsend
  | advancing hasAccount nonempty allConsumed allConfirmed below =>
    rename_i block floor finalized nonce account consumed confirmed _
    have hpos := List.length_pos_iff.mpr nonempty
    refine ⟨floor, _, block, finalized, nonce, ⟨⟨account, hasAccount, rfl⟩, by simp [floorReads],
      by simp [floorReads], by simp [advanceReads], by omega, below, ?_, fun n hle hlt => ?_,
      by simp [advanceReads]⟩⟩
    · have hcount : 0 < candidateCount options := by
        rw [length_candidateNonces] at hpos
        omega
      have hle := candidateCount_le hcount
      have hlength : (candidateNonces options floor).length ≤ candidateCount options := by
        rw [length_candidateNonces]
        exact min_le_left _ _
      push_cast
      omega
    · have hmem := mem_candidateNonces.mpr ⟨hle, hlt⟩
      exact ⟨⟨_, consumed, by simp [consumptionRead], consumed_of_availableNonces allConsumed hmem⟩,
        ⟨_, confirmed, by simp [consumptionRead, advanceReads], confirmed_of_all allConfirmed hmem⟩⟩

theorem makeWhitelistNonceCandidates_sent {candidates : List String}
    (h : Executes (makeWhitelistNonceCandidates options body) tr (.ok candidates))
    (hsent : ∃ e ∈ tr, isSend e.op = true) : candidates = [] := by
  cases makeWhitelistNonceCandidates_stage h with
  | advanced => rfl
  | available =>
    obtain ⟨e, he, hsend⟩ := hsent
    simp only [floorReads, consumptionRead, List.cons_append, List.nil_append, List.mem_cons,
      List.not_mem_nil, or_false] at he
    rcases he with rfl | rfl | rfl | rfl | rfl <;> cases hsend

end Call

/-- A transaction only moves the floor over nonces consumed in finalized blocks, and the
floor of no chain, at no block, is above a nonce that is not. -/
theorem nonce_floor_never_skips :
    (∀ (options : WhitelistNonceOptions) (body : RequestWhitelistingBody)
        (tr : List (Event validatorEnv)) (op : ValidatorOp)
        (next : op.Answer → Validating (Except Caught (List String))),
      Runs (makeWhitelistNonceCandidates options body) tr (.perform op next) → isSend op = true →
        ∃ floor newFloor block finalized nonce,
          FloorAdvance options body tr op floor newFloor block finalized nonce) ∧
    (∀ (options : WhitelistNonceOptions) (body : RequestWhitelistingBody)
        (tr : List (Event validatorEnv)) (candidates : List String),
      Executes (makeWhitelistNonceCandidates options body) tr (.ok candidates) →
        (∃ e ∈ tr, isSend e.op = true) → candidates = []) ∧
    ∀ (ι : Type) [DecidableEq ι] (initial : InitialFloors) (s : Chains) (replica : ι → Replica)
        (fuel polls : ι → ℕ) (c : Config (coord validatorEnv) ι Chains SignTimeouts),
      Fresh s → Config.Reachable (floorWorld ι initial) s
        (fun i => runGuardianCoordinator (replica i).options (fuel i) (polls i) .empty) c →
        ∀ chain book validator nonce blocks, blocks <+: (c.world chain).log.blocks →
          initial chain book validator ≤ nonce →
          consumedIn (c.world chain).log.final book validator nonce = false →
          floorAfter (initial chain book validator) book validator blocks ≤ nonce := by
  refine ⟨fun _ _ _ _ _ => makeWhitelistNonceCandidates_sends,
    fun _ _ _ _ => makeWhitelistNonceCandidates_sent, ?_⟩
  intro ι _ initial s replica fuel polls c hfresh hreach chain book validator nonce blocks
    hblocks hle hnot
  have hsafe : SafeFloor initial c.world chain book validator
      (floorAfter (initial chain book validator) book validator blocks) :=
    (reachable_safeChains replica fuel polls hfresh hreach).floorAfter_safe hblocks
  by_contra hlt
  have hconsumed := hsafe nonce hle (not_le.mp hlt)
  rw [FinallyConsumed, hnot] at hconsumed
  cases hconsumed

namespace Sample

def oneBlock (nonces : List ℕ) : FinalizedLog Block :=
  ⟨[nonces.map (.consume (hex 40) (hex 40))], 1, le_rfl⟩

def chains (nonces : List ℕ) : Chains := fun _ => ⟨oneBlock nonces, []⟩

def nonceOptions : WhitelistNonceOptions :=
  ⟨[1], hex 40, some (hex 40), fun _ => some [hex 40], 1⟩

theorem validatorGuardian_signsOnly (nonces : WhitelistNonceOptions) (parsed : ParsedSigningBody) :
    (runSigningOf (validatorGuardian nonces) parsed).Performs fun op => isSend op = false := by
  have hsign : ∀ chainId sign, sign.Performs (fun op => isSend op = false) →
      (runSigning (validatorGuardian nonces) chainId sign).Performs
        fun op => isSend op = false := by
    intro chainId sign h
    refine .bind trivial fun r => ?_
    cases r with
    | error e => trivial
    | ok _ =>
      refine .bind ?_ fun r => ?_
      · unfold validatorGuardian
        dsimp only
        split <;> trivial
      · cases r with
        | error e => trivial
        | ok _ => exact h
  cases parsed <;> exact hsign _ _ ⟨rfl, fun _ => trivial⟩

def replica : Replica where
  options := ⟨validatorGuardian nonceOptions, 100, none, none⟩
  nonces := nonceOptions
  configured := rfl
  ownAccount _ h := (Option.some.inj h).symm
  signsOnly := validatorGuardian_signsOnly nonceOptions

def stillAnswers (consumed : List ℕ) :
    ∀ op : (coord validatorEnv).Op, (coord validatorEnv).Answer op
  | .inl (.getChainId chain) => .ok chain
  | .inl (.getBlock ..) => .ok 0
  | .inl (.isValidator ..) => .ok true
  | .inl (.validatorNonceFloor _ _ _ number) => if number = 0 then .ok 5 else .error .zodError
  | .inl (.isNonceConsumed _ book validator nonces number) =>
    if number = 0 then
      .ok ⟨nonces.map (consumedIn (oneBlock consumed).blocks book validator), by simp⟩
    else .error .zodError
  | .inl (.getTransactionCount ..) => .ok 3
  | .inl (.setValidatorNonceFloor ..) => .ok "0xhash"
  | .inl (.waitForTransactionReceipt ..) => .ok true
  | .inl (.sign _) => .ok (whitelistingResponse "5")
  | .inr (.getSigningRequests ..) => .ok (.obj [("total", .num 1), ("page", .num 1),
      ("pageSize", .num 100), ("items", .arr [independentRow])])
  | .inr (.putNonce ..) => .ok (.obj [("nonce", .str "5"), ("payloadHash", .str (hex 64))])
  | .inr (.putSubmission ..) => .ok .null
  | .inr (.log _) => ()

theorem floorAfter_oneBlock (consumed : List ℕ) (book validator : Address) :
    floorAfter 5 book validator (oneBlock consumed).blocks = 5 := by
  unfold floorAfter oneBlock
  induction consumed with
  | nil => rfl
  | cons n consumed ih => exact ih

theorem chainAnswers_still {consumed : List ℕ} {s : Chains}
    (h : ∀ chain, (s chain).log = oneBlock consumed) (op : ValidatorOp) :
    ChainAnswers (fun _ _ _ => 5) s ⟨op, stillAnswers consumed (.inl op)⟩ := by
  cases op with
  | getBlock chain blockTag =>
    cases blockTag <;> simp [ChainAnswers, stillAnswers, h, oneBlock]
  | validatorNonceFloor chain book validator number =>
    by_cases hnumber : number = 0
    · subst hnumber
      simp only [stillAnswers, ChainAnswers, if_true, h]
      exact ⟨Nat.one_pos, (floorAfter_oneBlock consumed book validator).symm⟩
    · simp only [stillAnswers, ChainAnswers, if_neg hnumber]
  | isNonceConsumed chain book validator nonces number =>
    by_cases hnumber : number = 0
    · subst hnumber
      simp only [stillAnswers, ChainAnswers, if_true, h]
      exact ⟨Nat.one_pos, rfl⟩
    · simp only [stillAnswers, ChainAnswers, if_neg hnumber]
  | _ => trivial

theorem afterCall_log {consumed : List ℕ} {s : Chains}
    (h : ∀ chain, (s chain).log = oneBlock consumed) (op : ValidatorOp) (chain : ℕ) :
    (afterCall s op chain).log = oneBlock consumed := by
  cases op with
  | setValidatorNonceFloor chain' =>
    by_cases hchain : chain = chain'
    · subst hchain
      simpa only [afterCall, Function.update_self] using h chain
    · simpa only [afterCall, Function.update_of_ne hchain] using h chain
  | _ => exact h chain

def afterEvents (s : Chains) (tr : History validatorEnv) : Chains :=
  tr.foldl (fun s e => match e.op with
    | .inl op => afterCall s op
    | .inr _ => s) s

theorem served_still {consumed : List ℕ} (tr : History validatorEnv) {s : Chains}
    (h : ∀ chain, (s chain).log = oneBlock consumed)
    (hanswered : ∀ e ∈ tr, e.answer = stillAnswers consumed e.op) :
    Config.Served (floorWorld Unit fun _ _ _ => 5) () s tr (afterEvents s tr) ∧
      ∀ chain, (afterEvents s tr chain).log = oneBlock consumed := by
  induction tr generalizing s with
  | nil => exact ⟨.nil s, h⟩
  | cons e tr ih =>
    have hrest := fun d hd => hanswered d (List.mem_cons_of_mem e hd)
    obtain ⟨op, answer⟩ := e
    have hanswer : answer = stillAnswers consumed op := hanswered _ List.mem_cons_self
    subst hanswer
    cases op with
    | inr op => exact ⟨.cons rfl (ih h hrest).1, (ih h hrest).2⟩
    | inl op =>
      have hafter := afterCall_log h op
      exact ⟨.cons ⟨chainAnswers_still h op, rfl⟩ (ih hafter hrest).1, (ih hafter hrest).2⟩

def whitelistBody : RequestWhitelistingBody := ⟨1, hex 40, .whitelist, [hex 40], "0", 1050⟩

abbrev candidates : Validating (Except Caught (List String)) :=
  makeWhitelistNonceCandidates nonceOptions whitelistBody

def poll : Unit → Coordinating validatorEnv SignTimeouts :=
  fun _ => runGuardianCoordinator replica.options 1 1 .empty

def minedLog : FinalizedLog Block :=
  ⟨(oneBlock [5, 6]).blocks ++ [[.setFloor ⟨hex 40, hex 40, 7⟩]], 1, by decide⟩

theorem reachable_mined : ∃ c : Config (coord validatorEnv) Unit Chains SignTimeouts,
    Config.Reachable (floorWorld Unit fun _ _ _ => 5) (chains [5, 6]) poll c ∧
      (c.world 1).log = minedLog := by
  obtain ⟨hserved, hlog⟩ := served_still ((poll ()).trace (stillAnswers [5, 6]))
    (s := chains [5, 6]) (fun _ => rfl) (trace_answered _ _)
  have hsent : (afterEvents (chains [5, 6]) ((poll ()).trace (stillAnswers [5, 6])) 1).sent =
      [⟨hex 40, hex 40, 7⟩] := by decide +kernel
  have hpolled : Config.Reachable (floorWorld Unit fun _ _ _ => 5) (chains [5, 6]) poll _ :=
    Config.Reachable.run .refl (executes_trace (stillAnswers [5, 6]) (poll ())) hserved
  refine ⟨_, hpolled.tail (.evolve ⟨1, ⟨minedLog, _⟩, ⟨?_, rfl, ?_⟩, rfl⟩), ?_⟩
  · rw [hlog]
    exact ⟨rfl, le_rfl⟩
  · intro tx htx
    rw [hsent]
    simpa [minedLog, oneBlock] using htx
  · simp only [Function.update_self]

end Sample

theorem nonce_floor_never_skips_advanced :
    (∃ tr op floor newFloor block finalized nonce, FloorAdvance Sample.nonceOptions
      Sample.whitelistBody tr op floor newFloor block finalized nonce) ∧
    (∃ tr candidates, Executes Sample.candidates tr (.ok candidates) ∧
      (∃ e ∈ tr, isSend e.op = true) ∧ candidates = []) ∧
    ∃ c : Config (coord validatorEnv) Unit Chains SignTimeouts,
      floorAfter 5 (Sample.hex 40) (Sample.hex 40) (c.world 1).log.blocks = 7 ∧
        ∀ nonce, consumedIn (c.world 1).log.final (Sample.hex 40) (Sample.hex 40) nonce = false →
          5 ≤ nonce → 7 ≤ nonce := by
  have hrun := executes_trace (fun op => Sample.stillAnswers [5, 6] (.inl op)) Sample.candidates
  have hresult : Sample.candidates.eval (fun op => Sample.stillAnswers [5, 6] (.inl op)) =
      .ok [] := by decide +kernel
  have hany : (Sample.candidates.trace fun op => Sample.stillAnswers [5, 6] (.inl op)).any
      (fun e => isSend e.op) = true := by decide +kernel
  have hsent := List.any_eq_true.mp hany
  rw [hresult] at hrun
  obtain ⟨hsends, hnone, hsafe⟩ := nonce_floor_never_skips
  refine ⟨?_, ⟨_, [], hrun, hsent, hnone _ _ _ _ hrun hsent⟩, ?_⟩
  · obtain ⟨e, hmem, hsend⟩ := hsent
    obtain ⟨pre, post, htrace⟩ := List.append_of_mem hmem
    rw [htrace] at hrun
    obtain ⟨next, hissued, _⟩ := hrun.split
    exact ⟨pre, e.op, hsends _ _ _ _ next hissued hsend⟩
  · obtain ⟨c, hreach, hlog⟩ := Sample.reachable_mined
    have hfloor : floorAfter 5 (Sample.hex 40) (Sample.hex 40) (c.world 1).log.blocks = 7 := by
      rw [hlog]
      decide +kernel
    refine ⟨c, hfloor, fun nonce hnot hle => ?_⟩
    have hbound := hsafe Unit (fun _ _ _ => 5) (Sample.chains [5, 6]) (fun _ => Sample.replica)
      (fun _ => 1) (fun _ => 1) c (fun _ => ⟨rfl, by simp [Sample.chains, Sample.oneBlock]⟩)
      hreach 1 (Sample.hex 40) (Sample.hex 40) nonce _ List.prefix_rfl hle hnot
    rwa [hfloor] at hbound

end Guardian
