import Guardian.Core.Accepted
import Guardian.Defaults.IntentRequestBindingSound
import Guardian.Defaults.Reported

/-!
# The A.4 batch is the conjunction of its contracts

Against one fixed client the batch runner is computed contract by contract: the class
of its result is a function of the book gate, of the nonce read and of whether some
contract is unavailable or fails. That function does not see the order or the number
of the contracts, and a batch of one contract is its own case of it.
-/

namespace Guardian
open Effect Text Program

structure NamedFor (contract : Address) (entry named : CheckEntry) : Prop where
  description : named.description = s!"{entry.description} (for {contract})"
  passed : named.passed = entry.passed
  skipped : named.skipped = entry.skipped

theorem suffixed_description (entry : CheckEntry) (contract : Address) :
    (suffixed entry contract).description = s!"{entry.description} (for {contract})" := by
  unfold suffixed
  dsimp only
  split_ifs <;> rfl

theorem suffixed_namedFor {entry : CheckEntry} (h : entry.WellFormed) (contract : Address) :
    NamedFor contract entry (suffixed entry contract) := by
  obtain ⟨description, passed, skipped, reason⟩ := entry
  refine ⟨suffixed_description _ _, ?_, ?_⟩
  · cases skipped with
    | true => exact (h.skipped_passed rfl).symm
    | false => cases passed <;> rfl
  · cases skipped <;> cases passed <;> rfl

@[simp] theorem isA1DeadlineEntry_passed (d : String) :
    isA1DeadlineEntry (Guardian.passed d) = (d == DEADLINE_CHECK_DESCRIPTION) := rfl

@[simp] theorem isA1DeadlineEntry_skipped (d : String) :
    isA1DeadlineEntry (Guardian.skipped d) = (d == DEADLINE_CHECK_DESCRIPTION) := rfl

@[simp] theorem isA1DeadlineEntry_failed (d r : String) :
    isA1DeadlineEntry (failed d r) = (d == DEADLINE_CHECK_DESCRIPTION) := rfl

theorem isA1DeadlineEntry_suffixed (entry : CheckEntry) (contract : Address) :
    isA1DeadlineEntry (suffixed entry contract) = false := by
  rw [isA1DeadlineEntry, suffixed_description, beq_eq_false_iff_ne]
  intro h
  have hlast := congrArg (fun s => s.toList.getLast?) h
  simp only [DEADLINE_CHECK_DESCRIPTION, String.toList_append, toString, List.getLast?_append]
    at hlast
  simp at hlast

theorem isA1DeadlineEntry_suffixedA1 (entries : List CheckEntry) (contract : Address) :
    ∀ c ∈ suffixedA1 entries contract, isA1DeadlineEntry c = false := by
  intro c hc
  obtain ⟨entry, -, rfl⟩ := List.mem_map.mp hc
  exact isA1DeadlineEntry_suffixed entry contract

theorem suffixedA1_namedFor {entries : List CheckEntry} (h : ∀ c ∈ entries, c.WellFormed)
    (contract : Address) : List.Forall₂ (NamedFor contract)
      (entries.filter fun e => !isA1DeadlineEntry e) (suffixedA1 entries contract) := by
  rw [suffixedA1, List.forall₂_map_right_iff, List.forall₂_same]
  intro entry hentry
  exact suffixed_namedFor (h entry (List.mem_filter.mp hentry).1) contract

def CheckResult.unavailable (r : CheckResult) : Bool :=
  decide ((Settled.ofResult r).resultClass = .upstreamUnavailable)

def CheckResult.entries (r : CheckResult) : List CheckEntry :=
  (Settled.ofResult r).checks.getD []

def anyFailed (checks : List CheckEntry) : Bool := checks.any fun c => !c.passed

theorem resultClass_rollUp (checks : List CheckEntry) (message : String) :
    (Settled.ofResult (rollUp checks message)).resultClass =
      if anyFailed checks then .validationFailed else .ok := by
  unfold rollUp anyFailed
  split <;> rfl

theorem checks_rollUp (checks : List CheckEntry) (message : String) :
    (Settled.ofResult (rollUp checks message)).checks = some checks := by
  unfold rollUp
  split <;> rfl

theorem nestedEntries_unavailable {r : CheckResult} (contract : Address)
    (h : r.unavailable = true) :
    ∃ message status,
      nestedEntries contract r = .error (.err (.upstreamUnavailable message status)) := by
  match r, h with
  | .error (.upstreamUnavailable message status), _ => exact ⟨message, status, rfl⟩

theorem nestedEntries_available {r : CheckResult} (contract : Address)
    (hr : Reported False (.ofResult r)) (h : r.unavailable = false) :
    (Settled.ofResult r).checks = some r.entries ∧ (∀ c ∈ r.entries, c.WellFormed) ∧
      nestedEntries contract r = .ok (suffixedA1 r.entries contract) := by
  match r, hr with
  | .ok entries, .ok hwell _ => exact ⟨rfl, hwell, rfl⟩
  | .error _, .validationFailed hwell _ => exact ⟨rfl, hwell, rfl⟩
  | .error _, .upstreamUnavailable message status => cases h

section Batch
variable {rpc : (op : Op) → op.Answer} {ctx : SigningContext}

theorem runA1_reported (body : A1Request) (deps : A1Deps) :
    Reported False (.ofResult ((runA1 ctx body deps).eval rpc)) :=
  (runA1_checking ctx body deps).eval fun _ => trivial

variable {chainId deadline : ℕ} {deps : A1Deps}

theorem runA1Batch_available {contracts : List Address} (checks : List CheckEntry)
    (h : ∀ c ∈ contracts,
      ((runA1 ctx ⟨chainId, c, deadline⟩ deps).eval rpc).unavailable = false) :
    (runA1Batch ctx chainId deadline deps checks contracts).eval rpc =
      .ok (checks ++ contracts.flatMap fun c =>
        suffixedA1 ((runA1 ctx ⟨chainId, c, deadline⟩ deps).eval rpc).entries c) := by
  induction contracts generalizing checks with
  | nil =>
    rw [List.flatMap_nil, List.append_nil]
    rfl
  | cons contract contracts ih =>
    have hhead := (nestedEntries_available contract (runA1_reported _ _) (h contract (.head _))).2.2
    rw [runA1Batch, eval_bind_def, hhead, List.flatMap_cons, ← List.append_assoc]
    exact ih _ fun c hc => h c (.tail _ hc)

theorem runA1Batch_unavailable {contracts : List Address} (checks : List CheckEntry)
    (h : ∃ c ∈ contracts, ((runA1 ctx ⟨chainId, c, deadline⟩ deps).eval rpc).unavailable = true) :
    ∃ message status, (runA1Batch ctx chainId deadline deps checks contracts).eval rpc =
      .error (.err (.upstreamUnavailable message status)) := by
  induction contracts generalizing checks with
  | nil =>
    obtain ⟨c, hc, -⟩ := h
    cases hc
  | cons contract contracts ih =>
    rw [runA1Batch, eval_bind_def]
    cases hu : ((runA1 ctx ⟨chainId, contract, deadline⟩ deps).eval rpc).unavailable with
    | true =>
      obtain ⟨message, status, hnested⟩ := nestedEntries_unavailable contract hu
      rw [hnested]
      exact ⟨message, status, rfl⟩
    | false =>
      rw [(nestedEntries_available contract (runA1_reported _ _) hu).2.2]
      obtain ⟨c, hc, hcu⟩ := h
      rcases List.mem_cons.mp hc with rfl | hc
      · rw [hu] at hcu
        cases hcu
      · exact ih _ ⟨c, hc, hcu⟩

end Batch

section Nonce
variable {rpc : (op : Op) → op.Answer} {deps : RequestWhitelistingDeps} {ctx : SigningContext}
  {body : RequestWhitelistingBody}

def nonceEntries (policy : RequestWhitelistingPolicy) (whitelistBook : Address) (nonce : ℤ) :
    Except RpcError (ℕ × Bool) → Option (List CheckEntry)
  | .ok (floor, consumed) =>
    some (checkNonceWindow nonce consumed floor policy.maxNonceAboveFloor)
  | .error e =>
    if isDeterministicContractCallFailure e ["validatorNonceFloor", "isNonceConsumed"] then
      some (failed nonceStateDescription
        (s!"whitelist book {whitelistBook} did not answer " ++
          "validatorNonceFloor/isNonceConsumed (EOA or non-book contract)") ::
        skippedNonceChecks)
    else none

theorem checkNonce_eval {nonce : ℤ} (hnonce : toBigInt body.nonce = .ok nonce)
    (checks : List CheckEntry) : (checkNonce deps ctx body checks).eval rpc =
      match nonceEntries deps.policy body.whitelistBook nonce
          (rpc (.nonceReads ctx.chainId body.whitelistBook deps.guardianSigner nonce)) with
      | some entries => .ofResult (rollupA4 (checks ++ entries))
      | none => .error (.err (upstream "whitelist-book read failed upstream")) := by
  rw [checkNonce, hnonce]
  dsimp only
  rw [eval_bind_def,
    show eval rpc (ask (.nonceReads ctx.chainId body.whitelistBook deps.guardianSigner nonce)) =
      rpc (.nonceReads ctx.chainId body.whitelistBook deps.guardianSigner nonce) from rfl]
  cases rpc (.nonceReads ctx.chainId body.whitelistBook deps.guardianSigner nonce) with
  | ok reads => rfl
  | error e =>
    dsimp only [nonceEntries]
    split <;> rfl

theorem isA1DeadlineEntry_nonceEntries {nonce : ℤ} {answer : Except RpcError (ℕ × Bool)}
    {entries : List CheckEntry}
    (h : nonceEntries deps.policy body.whitelistBook nonce answer = some entries) :
    ∀ c ∈ entries, isA1DeadlineEntry c = false := by
  match answer, h with
  | .ok (floor, consumed), h =>
    obtain rfl := Option.some.inj h
    simp only [checkNonceWindow, List.forall_mem_cons, List.not_mem_nil, false_implies,
      implies_true, and_true]
    refine ⟨?_, ?_, ?_⟩ <;> split <;>
      simp only [isA1DeadlineEntry_passed, isA1DeadlineEntry_failed] <;> decide
  | .error e, h =>
    dsimp only [nonceEntries] at h
    split at h
    · obtain rfl := Option.some.inj h
      simp only [skippedNonceChecks, NONCE_CHECK_DESCRIPTIONS, List.map_cons, List.map_nil,
        List.forall_mem_cons, List.not_mem_nil, false_implies, implies_true, and_true,
        isA1DeadlineEntry_skipped, isA1DeadlineEntry_failed]
      decide
    · cases h

theorem isA1DeadlineEntry_bookChecks (policy : RequestWhitelistingPolicy) :
    ∀ c ∈ bookChecks policy body, isA1DeadlineEntry c = false := by
  unfold bookChecks checkMembership
  split
  · simp
  · simp only [List.forall_mem_cons, List.not_mem_nil, false_implies, implies_true, and_true]
    split <;> simp only [isA1DeadlineEntry_passed, isA1DeadlineEntry_failed] <;> decide

end Nonce

def RequestWhitelistingBody.batch (body : RequestWhitelistingBody) (contracts : List Address) :
    RequestWhitelistingBody :=
  { body with requestContracts := contracts }

def nestedResult (rpc : (op : Op) → op.Answer) (deps : RequestWhitelistingDeps)
    (ctx : SigningContext) (body : RequestWhitelistingBody) (contract : Address) : CheckResult :=
  (runA1 ctx ⟨body.chainId, contract, body.deadline⟩ deps.a1).eval rpc

def requestDeadlineCheck (deps : RequestWhitelistingDeps) (ctx : SigningContext)
    (body : RequestWhitelistingBody) : CheckEntry :=
  checkDeadline ctx.nowUnixSeconds body.deadline deps.policy.maxDeadlineSecondsAhead

section Runner
variable {rpc : (op : Op) → op.Answer} {deps : RequestWhitelistingDeps} {ctx : SigningContext}
  {body : RequestWhitelistingBody} {maxRequestContracts : ℤ}

theorem runA4_gated (hlen : (body.requestContracts.length : ℤ) ≤ maxRequestContracts)
    (hgate : anyFailed (bookChecks deps.policy body) = true) :
    (runA4 maxRequestContracts deps ctx body).eval rpc =
      .ofResult (rollupA4 (bookChecks deps.policy body ++
        requestDeadlineCheck deps ctx body :: skippedNonceChecks)) := by
  rw [runA4, if_neg (by omega), if_pos (by rw [← anyFailed, hgate])]
  rfl

section Open
variable (hop : body.operation = .whitelist)
  (hlen : (body.requestContracts.length : ℤ) ≤ maxRequestContracts)
  (hgate : anyFailed (bookChecks deps.policy body) = false)
include hop hlen hgate

theorem runA4_unavailable
    (h : ∃ c ∈ body.requestContracts, (nestedResult rpc deps ctx body c).unavailable = true) :
    ∃ message status, (runA4 maxRequestContracts deps ctx body).eval rpc =
      .error (.err (.upstreamUnavailable message status)) := by
  obtain ⟨message, status, hbatch⟩ := runA1Batch_unavailable (bookChecks deps.policy body) h
  refine ⟨message, status, ?_⟩
  rw [runA4, if_neg (by omega), if_neg (by rw [← anyFailed, hgate]; decide), eval_bind_def,
    batchEntries, hop]
  dsimp only
  rw [hbatch]
  rfl

theorem runA4_gathered {nonce : ℤ} (hnonce : toBigInt body.nonce = .ok nonce)
    (h : ∀ c ∈ body.requestContracts, (nestedResult rpc deps ctx body c).unavailable = false) :
    (runA4 maxRequestContracts deps ctx body).eval rpc =
      match nonceEntries deps.policy body.whitelistBook nonce
          (rpc (.nonceReads ctx.chainId body.whitelistBook deps.guardianSigner nonce)) with
      | some entries => .ofResult (rollupA4 (bookChecks deps.policy body ++
          (body.requestContracts.flatMap fun c =>
            suffixedA1 (nestedResult rpc deps ctx body c).entries c) ++
          [requestDeadlineCheck deps ctx body] ++ entries))
      | none => .error (.err (upstream "whitelist-book read failed upstream")) := by
  have hbatch := runA1Batch_available (bookChecks deps.policy body) h
  rw [runA4, if_neg (by omega), if_neg (by rw [← anyFailed, hgate]; decide), eval_bind_def,
    batchEntries, hop]
  dsimp only
  rw [hbatch]
  exact checkNonce_eval hnonce _

end Open

/-- The class of a batch: the gate, the contracts, and the rest of the array. -/
def batchClass (gateFailed anyUnavailable anyFailing : Bool) (restFailed : Option Bool) :
    ResultClass :=
  if gateFailed then .validationFailed
  else if anyUnavailable then .upstreamUnavailable
  else
    match restFailed with
    | none => .upstreamUnavailable
    | some restFailed => if anyFailing || restFailed then .validationFailed else .ok

/-- Whether the deadline or a nonce entry failed; none when the nonce read did. -/
def restFailed (rpc : (op : Op) → op.Answer) (deps : RequestWhitelistingDeps)
    (ctx : SigningContext) (body : RequestWhitelistingBody) (nonce : ℤ) : Option Bool :=
  (nonceEntries deps.policy body.whitelistBook nonce
    (rpc (.nonceReads ctx.chainId body.whitelistBook deps.guardianSigner nonce))).map fun entries =>
      anyFailed (requestDeadlineCheck deps ctx body :: entries)

theorem anyFailed_append (xs ys : List CheckEntry) :
    anyFailed (xs ++ ys) = (anyFailed xs || anyFailed ys) := List.any_append

theorem anyFailed_flatMap (contracts : List Address) (f : Address → List CheckEntry) :
    anyFailed (contracts.flatMap f) = contracts.any fun c => anyFailed (f c) := List.any_flatMap

theorem runA4_class (hop : body.operation = .whitelist) {nonce : ℤ}
    (hnonce : toBigInt body.nonce = .ok nonce)
    (hlen : (body.requestContracts.length : ℤ) ≤ maxRequestContracts) :
    ((runA4 maxRequestContracts deps ctx body).eval rpc).resultClass =
      batchClass (anyFailed (bookChecks deps.policy body))
        (body.requestContracts.any fun c => (nestedResult rpc deps ctx body c).unavailable)
        (body.requestContracts.any fun c =>
          anyFailed (suffixedA1 (nestedResult rpc deps ctx body c).entries c))
        (restFailed rpc deps ctx body nonce) := by
  cases hgate : anyFailed (bookChecks deps.policy body) with
  | true =>
    rw [runA4_gated hlen hgate, rollupA4, resultClass_rollUp, anyFailed_append, hgate]
    rfl
  | false =>
    cases hu : body.requestContracts.any fun c =>
      (nestedResult rpc deps ctx body c).unavailable with
    | true =>
      obtain ⟨message, status, hrun⟩ := runA4_unavailable hop hlen hgate (List.any_eq_true.mp hu)
      rw [hrun]
      rfl
    | false =>
      rw [runA4_gathered hop hlen hgate hnonce (by simpa using hu), restFailed]
      cases nonceEntries deps.policy body.whitelistBook nonce
          (rpc (.nonceReads ctx.chainId body.whitelistBook deps.guardianSigner nonce)) with
      | none => rfl
      | some entries =>
        dsimp only [Option.map_some, batchClass]
        rw [rollupA4, resultClass_rollUp, List.append_assoc, anyFailed_append, anyFailed_append,
          anyFailed_flatMap, hgate, Bool.false_or, List.singleton_append]
        rfl

/-- One deadline entry, and the other A.1 entries of each contract in order. -/
structure BatchArray (rpc : (op : Op) → op.Answer) (deps : RequestWhitelistingDeps)
    (ctx : SigningContext) (body : RequestWhitelistingBody) (checks : List CheckEntry) : Prop where
  deadline : checks.filter isA1DeadlineEntry = [requestDeadlineCheck deps ctx body]
  blocks : ∃ blocks nonce entries,
    checks = bookChecks deps.policy body ++ blocks.flatten ++
      requestDeadlineCheck deps ctx body :: entries ∧
    toBigInt body.nonce = .ok nonce ∧
    nonceEntries deps.policy body.whitelistBook nonce
      (rpc (.nonceReads ctx.chainId body.whitelistBook deps.guardianSigner nonce)) = some entries ∧
    List.Forall₂ (fun contract block => ∃ a1Checks,
      (Settled.ofResult (nestedResult rpc deps ctx body contract)).checks = some a1Checks ∧
        List.Forall₂ (NamedFor contract) (a1Checks.filter fun e => !isA1DeadlineEntry e) block)
      body.requestContracts blocks

theorem filter_eq_nil_of_false {entries : List CheckEntry}
    (h : ∀ c ∈ entries, isA1DeadlineEntry c = false) : entries.filter isA1DeadlineEntry = [] :=
  List.filter_eq_nil_iff.mpr fun c hc => by rw [h c hc]; decide

theorem runA4_array (hop : body.operation = .whitelist) {nonce : ℤ}
    (hnonce : toBigInt body.nonce = .ok nonce)
    (hlen : (body.requestContracts.length : ℤ) ≤ maxRequestContracts)
    (hgate : anyFailed (bookChecks deps.policy body) = false) {checks : List CheckEntry}
    (h : ((runA4 maxRequestContracts deps ctx body).eval rpc).checks = some checks) :
    BatchArray rpc deps ctx body checks := by
  have havailable : ∀ c ∈ body.requestContracts,
      (nestedResult rpc deps ctx body c).unavailable = false := by
    intro c hc
    by_contra hu
    obtain ⟨message, status, hrun⟩ := runA4_unavailable hop hlen hgate
      ⟨c, hc, Bool.eq_true_of_not_eq_false hu⟩
    rw [hrun] at h
    cases h
  rw [runA4_gathered hop hlen hgate hnonce havailable] at h
  cases hentries : nonceEntries deps.policy body.whitelistBook nonce
      (rpc (.nonceReads ctx.chainId body.whitelistBook deps.guardianSigner nonce)) with
  | none =>
    rw [hentries] at h
    cases h
  | some entries =>
    rw [hentries] at h
    dsimp only at h
    rw [rollupA4, checks_rollUp, List.append_assoc, List.singleton_append] at h
    obtain rfl := Option.some.inj h
    refine ⟨?_, _, nonce, entries, by rw [List.flatMap], hnonce, hentries, ?_⟩
    · have hflat : ∀ c ∈ body.requestContracts.flatMap fun c =>
          suffixedA1 (nestedResult rpc deps ctx body c).entries c,
          isA1DeadlineEntry c = false := by
        intro e he
        obtain ⟨c, -, hc⟩ := List.mem_flatMap.mp he
        exact isA1DeadlineEntry_suffixedA1 _ c e hc
      have hdeadline : isA1DeadlineEntry (requestDeadlineCheck deps ctx body) = true := by
        rw [isA1DeadlineEntry, requestDeadlineCheck, checkDeadline_description, beq_self_eq_true]
      rw [List.filter_append, List.filter_append, List.filter_cons_of_pos hdeadline,
        filter_eq_nil_of_false (isA1DeadlineEntry_bookChecks deps.policy),
        filter_eq_nil_of_false hflat,
        filter_eq_nil_of_false (isA1DeadlineEntry_nonceEntries hentries)]
      rfl
    · rw [List.forall₂_map_right_iff, List.forall₂_same]
      intro c hc
      obtain ⟨hchecks, hwell, -⟩ := nestedEntries_available c (runA1_reported _ _) (havailable c hc)
      exact ⟨_, hchecks, suffixedA1_namedFor hwell c⟩

end Runner

section Conjunction
variable {α : Type} {gate : Bool} {unavailable failing : α → Bool} {rest : Option Bool}
  {xs : List α}

theorem batchClass_unavailable {a b : Bool} :
    batchClass gate a b rest = .upstreamUnavailable ↔ gate = false ∧ (a = true ∨ rest = none) := by
  cases gate <;> cases a <;> cases rest with
  | none => simp [batchClass]
  | some failed => cases failed <;> cases b <;> simp [batchClass]

theorem batchClass_validationFailed {a b : Bool} :
    batchClass gate a b rest = .validationFailed ↔
      gate = true ∨ a = false ∧ ∃ failed, rest = some failed ∧ (b = true ∨ failed = true) := by
  cases gate <;> cases a <;> cases rest with
  | none => simp [batchClass]
  | some failed => cases failed <;> cases b <;> simp [batchClass]

theorem batchClass_cases {a b : Bool} : batchClass gate a b rest = .ok ∨
    batchClass gate a b rest = .validationFailed ∨
      batchClass gate a b rest = .upstreamUnavailable := by
  cases gate <;> cases a <;> cases rest with
  | none => simp [batchClass]
  | some failed => cases failed <;> cases b <;> simp [batchClass]

theorem batchClass_any_unavailable (hne : xs ≠ []) :
    batchClass gate (xs.any unavailable) (xs.any failing) rest = .upstreamUnavailable ↔
      ∃ x ∈ xs, batchClass gate (unavailable x) (failing x) rest = .upstreamUnavailable := by
  simp only [batchClass_unavailable, List.any_eq_true]
  constructor
  · rintro ⟨hgate, ⟨x, hx, hu⟩ | hrest⟩
    · exact ⟨x, hx, hgate, .inl hu⟩
    · obtain ⟨x, hx⟩ := List.exists_mem_of_ne_nil xs hne
      exact ⟨x, hx, hgate, .inr hrest⟩
  · rintro ⟨x, hx, hgate, hu | hrest⟩
    · exact ⟨hgate, .inl ⟨x, hx, hu⟩⟩
    · exact ⟨hgate, .inr hrest⟩

theorem batchClass_any_validationFailed (hne : xs ≠ [])
    (h : batchClass gate (xs.any unavailable) (xs.any failing) rest ≠ .upstreamUnavailable) :
    batchClass gate (xs.any unavailable) (xs.any failing) rest = .validationFailed ↔
      ∃ x ∈ xs, batchClass gate (unavailable x) (failing x) rest = .validationFailed := by
  obtain ⟨x₀, hx₀⟩ := List.exists_mem_of_ne_nil xs hne
  cases gate with
  | true => exact ⟨fun _ => ⟨x₀, hx₀, rfl⟩, fun _ => rfl⟩
  | false =>
    have havailable : ∀ x ∈ xs, unavailable x = false := by
      intro x hx
      by_contra hu
      exact h (batchClass_unavailable.mpr ⟨rfl, .inl
        (List.any_eq_true.mpr ⟨x, hx, Bool.eq_true_of_not_eq_false hu⟩)⟩)
    have hany : xs.any unavailable = false := by simpa using havailable
    simp only [batchClass_validationFailed, List.any_eq_true, hany, reduceCtorEq, false_or,
      true_and]
    constructor
    · rintro ⟨failed, hrest, ⟨x, hx, hf⟩ | hf⟩
      · exact ⟨x, hx, havailable x hx, failed, hrest, .inl hf⟩
      · exact ⟨x₀, hx₀, havailable x₀ hx₀, failed, hrest, .inr hf⟩
    · rintro ⟨x, hx, -, failed, hrest, hf | hf⟩
      · exact ⟨failed, hrest, .inl ⟨x, hx, hf⟩⟩
      · exact ⟨failed, hrest, .inr hf⟩

end Conjunction

/-- Against a fixed client a batch is refused as its contracts are, whatever their order. -/
theorem requestWhitelistingChecks_conjunction (rpc : (op : Op) → op.Answer)
    {deps : RequestWhitelistingDeps} {runner : CheckRunner RequestWhitelistingBody}
    (hbuild : buildRequestWhitelistingChecks deps = .ok runner) (ctx : SigningContext)
    (body : RequestWhitelistingBody) (hop : body.operation = .whitelist)
    (hnonce : zUintStringBelowMax body.nonce = true) (hne : body.requestContracts ≠ [])
    (hlen : (body.requestContracts.length : ℤ) ≤
      deps.policy.maxRequestContracts.getD DEFAULT_MAX_REQUEST_CONTRACTS) :
    let answer (contracts : List Address) := (runner ctx (body.batch contracts)).eval rpc
    let whole := answer body.requestContracts
    (whole.resultClass = .upstreamUnavailable ↔
      ∃ c ∈ body.requestContracts, (answer [c]).resultClass = .upstreamUnavailable) ∧
    (whole.resultClass ≠ .upstreamUnavailable → (whole.resultClass = .validationFailed ↔
      ∃ c ∈ body.requestContracts, (answer [c]).resultClass = .validationFailed)) ∧
    (whole.resultClass ≠ .upstreamUnavailable → whole.resultClass ≠ .validationFailed →
      whole.resultClass = .ok) ∧
    (∀ contracts, contracts.Perm body.requestContracts →
      (answer contracts).resultClass = whole.resultClass) ∧
    ∀ checks, whole.checks = some checks → anyFailed (bookChecks deps.policy body) = false →
      BatchArray rpc deps ctx body checks := by
  intro answer whole
  obtain ⟨hmax, rfl⟩ := buildRequestWhitelistingChecks_ok hbuild
  have hvalue := toBigInt_decimal (isDecimal_of_zUintStringBelowMax hnonce)
  have hclass : ∀ contracts : List Address, contracts.length ≤ body.requestContracts.length →
      (answer contracts).resultClass = batchClass (anyFailed (bookChecks deps.policy body))
        (contracts.any fun c => (nestedResult rpc deps ctx body c).unavailable)
        (contracts.any fun c =>
          anyFailed (suffixedA1 (nestedResult rpc deps ctx body c).entries c))
        (restFailed rpc deps ctx body (decimalValue body.nonce.toList)) := by
    intro contracts hle
    have hop' : (body.batch contracts).operation = .whitelist := hop
    exact runA4_class hop' hvalue (by rw [RequestWhitelistingBody.batch]; dsimp only; omega)
  have hone : ∀ c ∈ body.requestContracts, (answer [c]).resultClass =
      batchClass (anyFailed (bookChecks deps.policy body))
        (nestedResult rpc deps ctx body c).unavailable
        (anyFailed (suffixedA1 (nestedResult rpc deps ctx body c).entries c))
        (restFailed rpc deps ctx body (decimalValue body.nonce.toList)) := by
    intro c hc
    rw [hclass [c] (List.length_pos_of_mem hc)]
    simp only [List.any_cons, List.any_nil, Bool.or_false]
  have hwhole : whole.resultClass = _ := hclass body.requestContracts le_rfl
  refine ⟨?_, fun hu => ?_, fun hu hv => ?_, fun contracts hperm => ?_, fun checks h hgate => ?_⟩
  · rw [hwhole, batchClass_any_unavailable hne]
    exact exists_congr fun c => and_congr_right fun hc => by rw [hone c hc]
  · rw [hwhole] at hu ⊢
    rw [batchClass_any_validationFailed hne hu]
    exact exists_congr fun c => and_congr_right fun hc => by rw [hone c hc]
  · rw [hwhole] at hu hv ⊢
    exact batchClass_cases.resolve_right fun h => h.elim hv hu
  · rw [hclass contracts hperm.length_eq.le, hwhole, hperm.any_eq, hperm.any_eq]
  · exact runA4_array hop hvalue hlen hgate h

namespace Sample

def batchBody : RequestWhitelistingBody where
  chainId := 1
  whitelistBook := "0xbook"
  operation := .whitelist
  requestContracts := ["0xreq", "0xREQ", "0xother"]
  nonce := "7"
  deadline := 1050

def batchDeps : RequestWhitelistingDeps where
  policy := ⟨policy, 10, none, some 3⟩
  guardianSigner := "0xguardian"
  cache := false
  cacheTtlMs := none

def batchRpc : (op : Op) → op.Answer
  | .nonceReads .. => .ok (0, false)
  | op => serve (fun _ => chain) op

end Sample

theorem requestWhitelistingChecks_conjunction_batch : ∃ checks,
    ((runA4 3 Sample.batchDeps Sample.ctx Sample.batchBody).eval Sample.batchRpc).checks =
      some checks ∧
    BatchArray Sample.batchRpc Sample.batchDeps Sample.ctx Sample.batchBody checks :=
  ⟨_, rfl, (requestWhitelistingChecks_conjunction Sample.batchRpc rfl Sample.ctx Sample.batchBody
    rfl (by decide) (by decide) (by decide)).2.2.2.2 _ rfl (by decide)⟩

end Guardian
