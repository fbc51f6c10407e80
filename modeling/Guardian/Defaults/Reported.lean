import Guardian.Defaults.IntentFundBinding
import Guardian.Defaults.IntentSwap
import Guardian.Defaults.RequestWhitelisting

/-!
# What the check runners report

Whatever the chain, the cache and the clock answer, a check runner asks for no
signature and returns one of five results: entries that all passed, a validation
failure that names a failed entry, an upstream failure, a thrown error, and from
the fund runner alone a state conflict. Every array among them is well formed.
-/

namespace Guardian
open Effect Text Program

inductive Reported (conflict : Prop) : Settled (List CheckEntry) → Prop where
  | ok {checks : List CheckEntry} (wellFormed : ∀ c ∈ checks, c.WellFormed)
      (passed : ∀ c ∈ checks, c.passed = true) : Reported conflict (.ok checks)
  | validationFailed {message : String} {checks : List CheckEntry}
      (wellFormed : ∀ c ∈ checks, c.WellFormed) (failed : ∃ c ∈ checks, c.passed = false) :
      Reported conflict (.error (.err (.validationFailed message checks)))
  | stateConflict {message : String} {checks : List CheckEntry} (allowed : conflict)
      (wellFormed : ∀ c ∈ checks, c.WellFormed) :
      Reported conflict (.error (.err (.stateConflict message checks)))
  | upstreamUnavailable (message : String) (status : ℕ) :
      Reported conflict (.error (.err (.upstreamUnavailable message status)))
  | thrown (error : Thrown) : Reported conflict (.error (.thrown error))

def AsksNoSignature : Op → Prop
  | .signTypedData _ => False
  | _ => True

def checking : Protocol env Unit :=
  ⟨fun _ op => AsksNoSignature op, fun _ _ => True, fun _ _ => ()⟩

abbrev Checks (conflict : Prop) (p : Signing (Settled (List CheckEntry))) : Prop :=
  p.Obeys checking (fun _ r => Reported conflict r) ()

theorem reported_rollUp {conflict : Prop} {checks : List CheckEntry} {message : String}
    (h : ∀ c ∈ checks, c.WellFormed) :
    Reported conflict (.ofResult (rollUp checks message)) := by
  cases hr : rollUp checks message with
  | ok cs =>
    obtain ⟨rfl, hpassed⟩ := rollUp_ok.mp hr
    exact .ok h hpassed
  | error e =>
    obtain ⟨rfl, hfailed⟩ := rollUp_error.mp hr
    exact .validationFailed h hfailed

theorem checkSubset_wellFormed {d : String} (h : d ≠ "") (holders accepted : List Address) :
    (checkSubset d holders accepted).WellFormed := by
  unfold checkSubset
  split
  · exact failed_wellFormed h (by decide)
  · dsimp only
    split
    · exact failed_wellFormed h (append_ne_empty (by decide))
    · exact passed_wellFormed h

theorem checkPartialHolders_wellFormed {d : String} (h : d ≠ "")
    (holders accepted : List Address) (disposition : LookbackExhausted) :
    (checkPartialHolders d holders accepted disposition).WellFormed := by
  unfold checkPartialHolders
  dsimp only
  split
  · exact failed_wellFormed h (append_ne_empty (by decide))
  · cases disposition with
    | skip => exact skipped_wellFormed h
    | fail => exact failed_wellFormed h (append_ne_empty (by decide))

theorem roleCheck_wellFormed {d : String} (h : d ≠ "") (data : RoleMap ⊕ RoleMap)
    (policy : IntentRequestBindingPolicy) (roleMask : ℕ) (accepted : List Address) :
    (roleCheck data policy d roleMask accepted).WellFormed := by
  cases data with
  | inl holders => exact checkSubset_wellFormed h _ _
  | inr partialHolders => exact checkPartialHolders_wellFormed h _ _ _

section Entries
variable {deadlineCheck : CheckEntry} (hdeadline : deadlineCheck.WellFormed)
include hdeadline

theorem provenanceFailed_wellFormed {reason : String} (h : reason ≠ "") :
    ∀ c ∈ provenanceFailed reason deadlineCheck, c.WellFormed := by
  simp only [provenanceFailed, List.forall_mem_cons, List.not_mem_nil, false_implies,
    implies_true, and_true]
  exact ⟨failed_wellFormed (by decide) h, skipped_wellFormed (by decide),
    skipped_wellFormed (by decide), skipped_wellFormed (by decide), hdeadline⟩

theorem evaluateRoles_wellFormed (factory owner : Address) (data : RoleMap ⊕ RoleMap)
    (chainId : ℕ) (policy : IntentRequestBindingPolicy) :
    ∀ c ∈ evaluateRoles factory owner data chainId policy deadlineCheck, c.WellFormed := by
  unfold evaluateRoles
  dsimp only
  have hfactory := passed_wellFormed (show factoryDescription ≠ "" by decide)
  have howner : (checkMembership ownerDescription owner
      (policy.acceptedOwners.on chainId)).WellFormed := checkMembership_wellFormed (by decide)
  split
  · exact provenanceFailed_wellFormed hdeadline (by simp [String.append_eq_empty_iff, toString])
  split
  · simp only [List.forall_mem_cons, List.not_mem_nil, false_implies, implies_true, and_true]
    exact ⟨hfactory, howner, roleCheck_wellFormed (by decide) _ _ _ _, hdeadline⟩
  · simp only [List.forall_mem_cons, List.not_mem_nil, false_implies, implies_true, and_true]
    exact ⟨hfactory, howner, roleCheck_wellFormed (by decide) _ _ _ _,
      roleCheck_wellFormed (by decide) _ _ _ _, hdeadline⟩

theorem evaluateA1_wellFormed (data : A1OnChainData) (chainId : ℕ)
    (policy : IntentRequestBindingPolicy) :
    ∀ c ∈ evaluateA1 data chainId policy deadlineCheck, c.WellFormed := by
  cases data with
  | noFactory => exact provenanceFailed_wellFormed hdeadline (by decide)
  | tooOld factory owner partialHolders => exact evaluateRoles_wellFormed hdeadline _ _ _ _ _
  | resolved factory owner holders => exact evaluateRoles_wellFormed hdeadline _ _ _ _ _

theorem evaluateRetargetter_wellFormed (data : RetargetterOnChainData) (requestContract : Address)
    (now : ℤ) (policy : IntentRequestBindingPolicy) :
    ∀ c ∈ evaluateRetargetter data requestContract now policy deadlineCheck, c.WellFormed := by
  simp only [evaluateRetargetter, List.forall_mem_cons, List.not_mem_nil, false_implies,
    implies_true, and_true]
  refine ⟨passed_wellFormed (by decide), skipped_wellFormed (by decide),
    skipped_wellFormed (by decide), skipped_wellFormed (by decide),
    skipped_wellFormed (by decide), ite_wellFormed (by decide) ?_, ite_wellFormed (by decide) ?_,
    hdeadline⟩
  · split <;> simp [String.append_eq_empty_iff, toString]
  · simp [String.append_eq_empty_iff]

theorem trustedRequestContractChecks_wellFormed :
    ∀ c ∈ trustedRequestContractChecks deadlineCheck, c.WellFormed := by
  simp only [trustedRequestContractChecks, List.forall_mem_cons, List.not_mem_nil, false_implies,
    implies_true, and_true]
  exact ⟨passed_wellFormed (by decide), skipped_wellFormed (by decide),
    skipped_wellFormed (by decide), skipped_wellFormed (by decide),
    skipped_wellFormed (by decide), hdeadline⟩

end Entries

def UpstreamOnly {α : Type} (r : Except SigningError α) : Prop :=
  ∀ e, r = .error e → ∃ message, e = upstream message

section Reads
variable {α : Type} {ctx : SigningContext} {policy : IntentRequestBindingPolicy}

theorem upstreamOnly_ok (a : α) : UpstreamOnly (.ok a : Except SigningError α) :=
  fun _ h => by simp at h

theorem upstreamOnly_error (message : String) :
    UpstreamOnly (.error (upstream message) : Except SigningError α) :=
  fun _ h => ⟨message, (Except.error.inj h).symm⟩

theorem scanRoleHolders_checking (args : ScanArgs) :
    (scanRoleHolders args).Obeys checking (fun _ _ => True) () := by
  refine scanRoleHolders_performs.permitted fun _ op h => ?_
  cases op with
  | signTypedData => exact h.elim
  | _ => trivial

theorem predatesWindow_checking (requestContract : Address) (latestBlock : ℕ) :
    (predatesWindow ctx requestContract policy latestBlock).Obeys checking
      (fun _ _ => True) () := by
  unfold predatesWindow
  split
  · refine .call_bind trivial fun answer _ => ?_
    cases answer <;> exact .pure trivial
  · exact .pure trivial

theorem fetchRoles_checking (requestContract owner firstFactory : Address)
    (matchedFactories : List Address) :
    (fetchRoles ctx requestContract policy owner firstFactory matchedFactories).Obeys checking
      (fun _ r => UpstreamOnly r) () := by
  refine .call_bind trivial fun block _ => ?_
  match block with
  | .error _ => exact .pure (upstreamOnly_error _)
  | .ok latestBlock =>
    refine .bind (predatesWindow_checking _ _) fun _ predates _ => ?_
    split
    · exact .pure (upstreamOnly_ok _)
    · refine .bind (scanRoleHolders_checking _) fun _ r _ => ?_
      match r with
      | .error _ => exact .pure (upstreamOnly_error _)
      | .ok (.tooOld _) => exact .pure (upstreamOnly_ok _)
      | .ok (.resolved _ _ _) => exact .pure (upstreamOnly_ok _)

theorem fetchA1OnChain_checking (chainId : ℕ) (requestContract : Address) :
    (fetchA1OnChain ctx chainId requestContract policy).Obeys checking
      (fun _ r => UpstreamOnly r) () := by
  refine .call_bind trivial fun stage1 _ => ?_
  match stage1 with
  | .error _ => exact .pure (upstreamOnly_error _)
  | .ok (.failure e, _) =>
    dsimp only
    split
    · exact .pure (upstreamOnly_ok _)
    · exact .pure (upstreamOnly_error _)
  | .ok (.success owner, slots) =>
    dsimp only
    split
    · refine .call_bind trivial fun answer _ => ?_
      cases answer with
      | ok operation => exact .pure (upstreamOnly_ok _)
      | error e => exact .pure (upstreamOnly_error _)
    · split
      · split
        · exact .pure (upstreamOnly_error _)
        · exact .pure (upstreamOnly_ok _)
      · exact fetchRoles_checking _ _ _ _

theorem readCache_checking (body : A1Request) (deps : A1Deps) :
    (readCache body deps).Obeys checking (fun _ _ => True) () := by
  unfold readCache
  split
  · refine .call_bind trivial fun hit _ => ?_
    match hit with
    | .ok (some _) => exact .pure trivial
    | .ok none => exact .pure trivial
    | .error _ => exact .pure trivial
  · exact .pure trivial

theorem writeCache_checking (body : A1Request) (deps : A1Deps) (data : A1OnChainData) :
    (writeCache body deps data).Obeys checking (fun _ _ => True) () := by
  unfold writeCache
  split
  · exact .call_bind trivial fun _ _ => .pure trivial
  · exact .pure trivial

end Reads

theorem runA1_checking (ctx : SigningContext) (body : A1Request) (deps : A1Deps) :
    (runA1 ctx body deps).Obeys checking (fun _ r => Reported False (.ofResult r)) () := by
  have hdeadline := checkDeadline_wellFormed ctx.nowUnixSeconds
    deps.policy.maxDeadlineSecondsAhead body.deadline
  unfold runA1
  dsimp only
  split
  · exact .pure (reported_rollUp (trustedRequestContractChecks_wellFormed hdeadline))
  · refine .bind (readCache_checking body deps) fun _ hit _ => ?_
    cases hit with
    | some data => exact .pure (reported_rollUp (evaluateA1_wellFormed hdeadline _ _ _))
    | none =>
      refine .bind (fetchA1OnChain_checking _ _) fun _ r hr => ?_
      match r, hr with
      | .error e, hr =>
        obtain ⟨message, rfl⟩ := hr e rfl
        exact .pure (.upstreamUnavailable message 503)
      | .ok (.retargetter data), _ =>
        exact .pure (reported_rollUp (evaluateRetargetter_wellFormed hdeadline _ _ _ _))
      | .ok (.onChain data), _ =>
        refine .bind (writeCache_checking body deps data) fun _ _ _ => ?_
        exact .pure (reported_rollUp (evaluateA1_wellFormed hdeadline _ _ _))

theorem intentRequestBindingChecks_checks {deps : A1Deps}
    {runner : CheckRunner IntentRequestBindingBody}
    (h : buildIntentRequestBindingChecks deps = .ok runner) (ctx : SigningContext)
    (body : IntentRequestBindingBody) : Checks False (runner ctx body) := by
  unfold buildIntentRequestBindingChecks at h
  cases hpolicy : assertRetargetterPolicy "buildIntentRequestBindingChecks" deps.policy with
  | error e => rw [hpolicy] at h; cases h
  | ok u =>
    rw [hpolicy] at h
    cases h
    show (Settled.ofResult <$> runA1 ctx body.a1 deps).Obeys checking _ ()
    rw [map_eq_pure_bind]
    exact .bind (runA1_checking ctx body.a1 deps) fun _ r hr => .pure hr

theorem skippedFundReads_wellFormed : ∀ c ∈ skippedFundReads, c.WellFormed := by
  simp only [skippedFundReads, List.forall_mem_cons, List.not_mem_nil, false_implies,
    implies_true, and_true]
  exact ⟨skipped_wellFormed (by decide), skipped_wellFormed (by decide),
    skipped_wellFormed (by decide)⟩

theorem forall_mem_append {α : Type} {p : α → Prop} {xs ys : List α} (hx : ∀ x ∈ xs, p x)
    (hy : ∀ y ∈ ys, p y) : ∀ x ∈ xs ++ ys, p x := by
  intro x h
  exact (List.mem_append.mp h).elim (hx x) (hy x)

theorem checkPositionManager_wellFormed (body : IntentFundBindingBody) (reads : FundReads) :
    (checkPositionManager body reads).WellFormed := by
  unfold checkPositionManager
  refine ite_wellFormed (by decide) ?_
  split <;> simp [String.append_eq_empty_iff, toString]

theorem checkNoCurrentFund_wellFormed (body : IntentFundBindingBody) (reads : FundReads) :
    (checkNoCurrentFund body reads).WellFormed :=
  ite_wellFormed (by decide) (by simp [String.append_eq_empty_iff, toString])

theorem rollupFundState_reported
    {deadlineCheck fundOnList ownerCheck pmCheck noCurrentFundCheck depositorRoleCheck : CheckEntry}
    (h : ∀ c ∈ [deadlineCheck, fundOnList, ownerCheck, pmCheck, noCurrentFundCheck,
      depositorRoleCheck], c.WellFormed) :
    Reported True (.ofResult (rollupFundState deadlineCheck fundOnList ownerCheck pmCheck
      noCurrentFundCheck depositorRoleCheck)) := by
  unfold rollupFundState
  dsimp only
  split
  · exact reported_rollUp h
  · rename_i h422
    split
    · exact .stateConflict trivial h
    · rename_i h409
      refine .ok h ?_
      simp only [List.any_cons, List.any_nil, Bool.or_false, Bool.or_eq_true,
        Bool.not_eq_true', not_or, Bool.not_eq_false] at h422 h409
      simp only [List.forall_mem_cons, List.not_mem_nil, false_implies, implies_true, and_true]
      exact ⟨h422.1, h422.2.1, h422.2.2.1, h422.2.2.2.1, h409, h422.2.2.2.2⟩

theorem intentFundBindingChecks_checks (policy : IntentFundBindingPolicy) (ctx : SigningContext)
    (body : IntentFundBindingBody) :
    Checks True (buildIntentFundBindingChecks policy ctx body) := by
  have hdeadline := checkDeadline_wellFormed ctx.nowUnixSeconds policy.maxDeadlineSecondsAhead
    body.deadline
  have hfund : (checkMembership "fund contract is on the accepted-funds list" body.fundContract
      (policy.acceptedFunds.on body.chainId)).WellFormed := checkMembership_wellFormed (by decide)
  rw [Checks, buildIntentFundBindingChecks, runA2]
  split
  · exact .pure (.thrown _)
  · dsimp only
    split
    · refine .pure (reported_rollUp (forall_mem_append ?_ skippedFundReads_wellFormed))
      simp only [List.forall_mem_cons, List.not_mem_nil, false_implies, implies_true, and_true]
      exact ⟨hdeadline, hfund, skipped_wellFormed (by decide)⟩
    · refine .call_bind trivial fun answer _ => ?_
      match answer with
      | .ok reads =>
        refine .pure (rollupFundState_reported ?_)
        simp only [List.forall_mem_cons, List.not_mem_nil, false_implies, implies_true, and_true]
        exact ⟨hdeadline, hfund, checkMembership_wellFormed (by decide),
          checkPositionManager_wellFormed body reads, checkNoCurrentFund_wellFormed body reads,
          skipped_wellFormed (by decide)⟩
      | .error e =>
        dsimp only
        split
        · refine .pure (reported_rollUp (forall_mem_append ?_ skippedFundReads_wellFormed))
          simp only [List.forall_mem_cons, List.not_mem_nil, false_implies, implies_true, and_true]
          refine ⟨hdeadline, hfund, failed_wellFormed (by decide) ?_⟩
          split <;> simp [String.append_eq_empty_iff]
        · exact .pure (.upstreamUnavailable _ _)

theorem pmLegFailed_reported {reason : String} {deadlineCheck : CheckEntry} (h : reason ≠ "")
    (hdeadline : deadlineCheck.WellFormed) :
    Reported False (.ofResult (pmLegFailed reason deadlineCheck)) := by
  unfold pmLegFailed rollupA3
  refine reported_rollUp ?_
  simp only [List.forall_mem_cons, List.not_mem_nil, false_implies, implies_true, and_true]
  exact ⟨failed_wellFormed (by decide) h, skipped_wellFormed (by decide),
    skipped_wellFormed (by decide), skipped_wellFormed (by decide), hdeadline⟩

theorem resolvePmLeg_rejected {n : ℕ} {slots : List (Slot Bool)} {reason : String}
    (h : resolvePmLeg n slots = .rejected reason) : reason ≠ "" := by
  unfold resolvePmLeg at h
  split at h
  · cases h
  · dsimp only at h
    split_ifs at h <;> cases h <;> decide

theorem checkSharePrice_wellFormed (pmShares actualDebt : ℤ) (reads : PositionManagerReads)
    (bps : ℤ) : (checkSharePrice pmShares actualDebt reads bps).WellFormed := by
  unfold checkSharePrice
  dsimp only
  split
  · exact failed_wellFormed (by decide) (by decide)
  · exact ite_wellFormed (by decide) (by simp [String.append_eq_empty_iff, toString])

theorem sharePriceEntry_wellFormed {pmLeg debtLeg : SwapLeg} {reads : PositionManagerReads}
    {bps : ℤ} {entry : CheckEntry} (h : sharePriceEntry pmLeg debtLeg reads bps = .ok entry) :
    entry.WellFormed := by
  unfold sharePriceEntry at h
  split at h
  · cases h
    exact skipped_wellFormed (by decide)
  · cases hs : toBigInt pmLeg.amount with
    | error e => rw [hs] at h; cases h
    | ok pmShares =>
      cases hd : toBigInt debtLeg.amount with
      | error e => rw [hs, hd] at h; cases h
      | ok actualDebt =>
        rw [hs, hd] at h
        cases h
        exact checkSharePrice_wellFormed _ _ _ _

theorem evaluatePositionManager_reported {policy : IntentSwapPolicy} {chainId : ℕ}
    {pmLeg debtLeg : SwapLeg} {reads : PositionManagerReads} {deadlineCheck : CheckEntry}
    (hdeadline : deadlineCheck.WellFormed) :
    Reported False
      (evaluatePositionManager policy chainId pmLeg debtLeg reads deadlineCheck) := by
  unfold evaluatePositionManager
  split
  · exact .thrown _
  · rename_i priceCheck hprice
    refine reported_rollUp ?_
    simp only [List.forall_mem_cons, List.not_mem_nil, false_implies, implies_true, and_true]
    exact ⟨passed_wellFormed (by decide), checkMembership_wellFormed (by decide),
      ite_wellFormed (by decide) (by simp [String.append_eq_empty_iff, toString]),
      sharePriceEntry_wellFormed hprice, hdeadline⟩

theorem checkPmLeg_checks {policy : IntentSwapPolicy} {ctx : SigningContext} {chainId : ℕ}
    {pmLeg debtLeg : SwapLeg} {deadlineCheck : CheckEntry}
    (hdeadline : deadlineCheck.WellFormed) :
    Checks False (checkPmLeg policy ctx chainId deadlineCheck pmLeg debtLeg) := by
  refine .call_bind trivial fun answer _ => ?_
  match answer with
  | .error _ => exact .pure (.upstreamUnavailable _ _)
  | .ok reads => exact .pure (evaluatePositionManager_reported hdeadline)

theorem intentSwapChecks_checks {policy : IntentSwapPolicy} {runner : CheckRunner IntentSwapBody}
    (h : buildIntentSwapChecks policy = .ok runner) (ctx : SigningContext)
    (body : IntentSwapBody) : Checks False (runner ctx body) := by
  have hdeadline := checkDeadline_wellFormed ctx.nowUnixSeconds policy.maxDeadlineSecondsAhead
    body.deadline
  unfold buildIntentSwapChecks at h
  split at h
  · cases h
  · cases h
    rw [Checks, runA3]
    split
    · dsimp only
      split
      · exact .pure (pmLegFailed_reported (by decide) hdeadline)
      · refine .call_bind trivial fun answer _ => ?_
        match answer with
        | .error _ => exact .pure (.upstreamUnavailable _ _)
        | .ok slots =>
          dsimp only
          split
          · exact .pure (.upstreamUnavailable _ _)
          · rename_i reason hreason
            exact .pure (pmLegFailed_reported (resolvePmLeg_rejected hreason) hdeadline)
          · exact checkPmLeg_checks hdeadline
          · exact checkPmLeg_checks hdeadline
    · exact .pure (.upstreamUnavailable _ _)

theorem suffixed_wellFormed {entry : CheckEntry} (h : entry.WellFormed) (contract : Address) :
    (suffixed entry contract).WellFormed := by
  have hd : s!"{entry.description} (for {contract})" ≠ "" := by
    simp [String.append_eq_empty_iff, toString]
  unfold suffixed
  dsimp only
  split_ifs with hskipped hpassed
  · exact skipped_wellFormed hd
  · exact passed_wellFormed hd
  · obtain ⟨reason, hr, hne⟩ := h.failed_reason (by simpa using hpassed)
    exact failed_wellFormed hd (by rw [hr]; exact hne)

theorem suffixedA1_wellFormed {entries : List CheckEntry} (h : ∀ c ∈ entries, c.WellFormed)
    (contract : Address) : ∀ c ∈ suffixedA1 entries contract, c.WellFormed := by
  intro c hc
  obtain ⟨entry, hentry, rfl⟩ := List.mem_map.mp hc
  exact suffixed_wellFormed (h entry (List.mem_filter.mp hentry).1) contract

/-- A batch under construction: well-formed entries, or the error that ended it. -/
def Gathered : Settled (List CheckEntry) → Prop
  | .ok checks => ∀ c ∈ checks, c.WellFormed
  | .error failure => Reported False (.error failure)

theorem nestedEntries_gathered (contract : Address) {r : CheckResult}
    (h : Reported False (.ofResult r)) : Gathered (nestedEntries contract r) := by
  match r, h with
  | .ok entries, .ok hwell _ => exact suffixedA1_wellFormed hwell contract
  | .error _, .validationFailed hwell _ => exact suffixedA1_wellFormed hwell contract
  | .error _, .upstreamUnavailable message status => exact .upstreamUnavailable message status

theorem runA1Batch_checking (ctx : SigningContext) (chainId deadline : ℕ) (deps : A1Deps)
    {checks : List CheckEntry} (h : ∀ c ∈ checks, c.WellFormed) (contracts : List Address) :
    (runA1Batch ctx chainId deadline deps checks contracts).Obeys checking
      (fun _ r => Gathered r) () := by
  induction contracts generalizing checks with
  | nil => exact .pure h
  | cons contract contracts ih =>
    refine .bind (runA1_checking _ _ _) fun _ r hr => ?_
    have hnested := nestedEntries_gathered contract hr
    revert hnested
    match nestedEntries contract r with
    | .error failure => exact fun hnested => .pure hnested
    | .ok entries => exact fun hnested => ih (forall_mem_append h hnested)

theorem skippedNonceChecks_wellFormed : ∀ c ∈ skippedNonceChecks, c.WellFormed := by
  simp only [skippedNonceChecks, NONCE_CHECK_DESCRIPTIONS, List.map_cons, List.map_nil,
    List.forall_mem_cons, List.not_mem_nil, false_implies, implies_true, and_true]
  exact ⟨skipped_wellFormed (by decide), skipped_wellFormed (by decide),
    skipped_wellFormed (by decide)⟩

theorem checkNonce_checks {deps : RequestWhitelistingDeps} {ctx : SigningContext}
    {body : RequestWhitelistingBody} {checks : List CheckEntry}
    (h : ∀ c ∈ checks, c.WellFormed) : Checks False (checkNonce deps ctx body checks) := by
  rw [Checks, checkNonce]
  split
  · exact .pure (.thrown _)
  · refine .call_bind trivial fun answer _ => ?_
    match answer with
    | .ok (floor, consumed) =>
      exact .pure (reported_rollUp (forall_mem_append h (checkNonceWindow_wellFormed _ _ _ _)))
    | .error e =>
      dsimp only
      split
      · refine .pure (reported_rollUp (forall_mem_append h (List.forall_mem_cons.mpr
          ⟨failed_wellFormed (by decide) ?_, skippedNonceChecks_wellFormed⟩)))
        simp [String.append_eq_empty_iff]
      · exact .pure (.upstreamUnavailable _ _)

theorem bookChecks_wellFormed (policy : RequestWhitelistingPolicy)
    (body : RequestWhitelistingBody) : ∀ c ∈ bookChecks policy body, c.WellFormed := by
  unfold bookChecks
  split
  · simp
  · simp only [List.forall_mem_cons, List.not_mem_nil, false_implies, implies_true, and_true]
    exact checkMembership_wellFormed (by decide)

theorem runA4_checks (maxRequestContracts : ℤ) (deps : RequestWhitelistingDeps)
    (ctx : SigningContext) (body : RequestWhitelistingBody) :
    Checks False (runA4 maxRequestContracts deps ctx body) := by
  have hdeadline := checkDeadline_wellFormed ctx.nowUnixSeconds
    deps.policy.maxDeadlineSecondsAhead body.deadline
  have hgate := bookChecks_wellFormed deps.policy body
  rw [Checks, runA4]
  split
  · refine .pure (reported_rollUp ?_)
    simp only [List.forall_mem_cons, List.not_mem_nil, false_implies, implies_true, and_true]
    exact failed_wellFormed (by decide) (by simp [String.append_eq_empty_iff, toString])
  split
  · exact .pure (reported_rollUp (forall_mem_append hgate
      (List.forall_mem_cons.mpr ⟨hdeadline, skippedNonceChecks_wellFormed⟩)))
  · have hbatch : (batchEntries deps ctx body (bookChecks deps.policy body)).Obeys checking
        (fun _ r => Gathered r) () := by
      unfold batchEntries
      split
      · exact runA1Batch_checking _ _ _ _ hgate _
      · exact .pure hgate
    refine .bind hbatch fun _ r hr => ?_
    match r, hr with
    | .error failure, hr => exact .pure hr
    | .ok checks, hr =>
      exact checkNonce_checks (forall_mem_append hr (by simpa using hdeadline))

theorem requestWhitelistingChecks_checks {deps : RequestWhitelistingDeps}
    {runner : CheckRunner RequestWhitelistingBody}
    (h : buildRequestWhitelistingChecks deps = .ok runner) (ctx : SigningContext)
    (body : RequestWhitelistingBody) : Checks False (runner ctx body) := by
  obtain ⟨-, rfl⟩ := buildRequestWhitelistingChecks_ok h
  exact runA4_checks _ deps ctx body

end Guardian
