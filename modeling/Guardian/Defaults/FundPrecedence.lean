import Guardian.Core.Accepted
import Guardian.Defaults.Chain
import Guardian.Defaults.IntentFundBinding

/-!
# Which rejection of a fund binding wins

A.2 can fail as the client's fault, as a conflict of state, or upstream, and builds
its entries on four branches. One function of the read answers which class wins.
-/

namespace Guardian
open Effect Text Program

def fundOnListDescription : String := "fund contract is on the accepted-funds list"

def a2Descriptions : List String :=
  [DEADLINE_CHECK_DESCRIPTION, fundOnListDescription, fundOwnerDescription, pmDescription,
    noCurrentFundDescription, depositorRoleDescription]

section Precedence
variable (policy : IntentFundBindingPolicy) (ctx : SigningContext) (body : IntentFundBindingBody)
  (reads : FundReads)

def FundAccepted : Prop :=
  ∃ fund ∈ policy.acceptedFunds.on body.chainId,
    toLowerCase fund = toLowerCase body.fundContract

def FundDeadlineMet : Prop :=
  (body.deadline : ℤ) ≤ ctx.nowUnixSeconds + policy.maxDeadlineSecondsAhead

def FundOwnerAccepted : Prop :=
  ∃ owner ∈ policy.acceptedOwners.on body.chainId, toLowerCase owner = toLowerCase reads.owner

def PositionManagerFlagged : Prop :=
  ∃ asset ∈ [reads.depositAsset, reads.targetAsset], asset.isPositionManager = true ∧
    toLowerCase asset.asset = toLowerCase body.positionManager

instance : Decidable (FundAccepted policy body) := List.decidableBEx _ _
instance : Decidable (FundDeadlineMet policy ctx body) := Int.decLe _ _
instance : Decidable (FundOwnerAccepted policy body reads) := List.decidableBEx _ _
instance : Decidable (PositionManagerFlagged body reads) := List.decidableBEx _ _

def boundClass : ResultClass :=
  if ¬(FundDeadlineMet policy ctx body ∧ FundOwnerAccepted policy body reads ∧
    PositionManagerFlagged body reads) then .validationFailed
  else if reads.currentFund ≠ ZERO_ADDRESS then .stateConflict
  else .ok

def fundReadClass : Except RpcError FundReads → ResultClass
  | .error e =>
    if isDeterministicContractCallFailure e ["owner", "getIntent"] then .validationFailed
    else .upstreamUnavailable
  | .ok reads => boundClass policy ctx body reads

def fundVerdicts : List Bool :=
  [decide (FundDeadlineMet policy ctx body), true, decide (FundOwnerAccepted policy body reads),
    decide (PositionManagerFlagged body reads), decide (reads.currentFund = ZERO_ADDRESS), true]

end Precedence

section Entries
variable {policy : IntentFundBindingPolicy} {ctx : SigningContext} {body : IntentFundBindingBody}
  {reads : FundReads}

@[simp] theorem checkMembership_description (d v : String) (accepted : List String) :
    (checkMembership d v accepted).description = d := by
  unfold checkMembership
  split <;> rfl

@[simp] theorem checkPositionManager_description (body : IntentFundBindingBody)
    (reads : FundReads) : (checkPositionManager body reads).description = pmDescription := by
  unfold checkPositionManager
  split <;> rfl

@[simp] theorem checkNoCurrentFund_description (body : IntentFundBindingBody)
    (reads : FundReads) :
    (checkNoCurrentFund body reads).description = noCurrentFundDescription := by
  unfold checkNoCurrentFund
  split <;> rfl

def fundDeadlineEntry (policy : IntentFundBindingPolicy) (ctx : SigningContext)
    (body : IntentFundBindingBody) : CheckEntry :=
  checkDeadline ctx.nowUnixSeconds body.deadline policy.maxDeadlineSecondsAhead

def fundOnListEntry (policy : IntentFundBindingPolicy) (body : IntentFundBindingBody) :
    CheckEntry :=
  checkMembership fundOnListDescription body.fundContract (policy.acceptedFunds.on body.chainId)

theorem fundOnList_passed :
    (fundOnListEntry policy body).passed = decide (FundAccepted policy body) := by
  rw [fundOnListEntry, checkMembership_passed, Bool.eq_iff_iff, memLower_iff, decide_eq_true_iff]
  rfl

theorem fundOwner_passed :
    (checkMembership fundOwnerDescription reads.owner
      (policy.acceptedOwners.on body.chainId)).passed =
        decide (FundOwnerAccepted policy body reads) := by
  rw [checkMembership_passed, Bool.eq_iff_iff, memLower_iff, decide_eq_true_iff]
  rfl

theorem fundDeadline_passed :
    (fundDeadlineEntry policy ctx body).passed = decide (FundDeadlineMet policy ctx body) := by
  rw [fundDeadlineEntry, Bool.eq_iff_iff, checkDeadline_passed, decide_eq_true_iff]
  rfl

theorem checkPositionManager_passed :
    (checkPositionManager body reads).passed = decide (PositionManagerFlagged body reads) := by
  rw [checkPositionManager, ite_passed]
  refine decide_eq_decide.mpr ?_
  rw [List.any_eq_true, PositionManagerFlagged]
  constructor
  · intro h
    obtain ⟨a, ha, heq⟩ := h
    obtain ⟨asset, hasset, rfl⟩ := List.mem_map.mp ha
    obtain ⟨hmem, hflag⟩ := List.mem_filter.mp hasset
    exact ⟨asset, hmem, hflag, by simpa using heq⟩
  · intro h
    obtain ⟨asset, hmem, hflag, heq⟩ := h
    refine ⟨asset.asset, List.mem_map_of_mem (List.mem_filter.mpr ⟨hmem, hflag⟩), ?_⟩
    simpa using heq

theorem checkNoCurrentFund_passed :
    (checkNoCurrentFund body reads).passed = decide (reads.currentFund = ZERO_ADDRESS) := by
  rw [checkNoCurrentFund, ite_passed]

theorem rollupFundState_checks {a b c d e f : CheckEntry} :
    (Settled.ofResult (rollupFundState a b c d e f)).checks = some [a, b, c, d, e, f] := by
  unfold rollupFundState
  dsimp only
  split
  · exact rollUp_checks
  · split <;> rfl

theorem rollupFundState_class {a b c d e f : CheckEntry} :
    (Settled.ofResult (rollupFundState a b c d e f)).resultClass =
      if ¬(a.passed ∧ b.passed ∧ c.passed ∧ d.passed ∧ f.passed) then .validationFailed
      else if ¬e.passed then .stateConflict else .ok := by
  unfold rollupFundState
  dsimp only
  by_cases h : a.passed ∧ b.passed ∧ c.passed ∧ d.passed ∧ f.passed
  · obtain ⟨ha, hb, hc, hd, hf⟩ := h
    rw [if_neg (by simp [ha, hb, hc, hd, hf]), if_neg (not_not.mpr ⟨ha, hb, hc, hd, hf⟩)]
    cases e.passed <;> rfl
  · have hany : ([a, b, c, d, f].any fun x => !x.passed) = true := by
      simp only [List.any_cons, List.any_nil]
      revert h
      cases a.passed <;> cases b.passed <;> cases c.passed <;> cases d.passed <;>
        cases f.passed <;> simp
    have hall : [a, b, c, d, e, f].all CheckEntry.passed = false := by
      simp only [List.any_cons, List.any_nil] at hany
      simp only [List.all_cons, List.all_nil]
      revert hany
      cases a.passed <;> cases b.passed <;> cases c.passed <;> cases d.passed <;>
        cases f.passed <;> simp
    rw [if_pos hany, if_pos h, rollupA2, rollUp_class, hall]
    rfl

/-- What the runner makes of an answer, and what it returns without asking. -/
def fundReadResult (policy : IntentFundBindingPolicy) (ctx : SigningContext)
    (body : IntentFundBindingBody) : Option (Except RpcError FundReads) → Settled (List CheckEntry)
  | none => .ofResult (rollupA2
      ([fundDeadlineEntry policy ctx body, fundOnListEntry policy body,
        skipped fundOwnerDescription] ++ skippedFundReads))
  | some (.ok reads) => .ofResult (evaluateFund body (policy.acceptedOwners.on body.chainId) reads
      (fundDeadlineEntry policy ctx body) (fundOnListEntry policy body))
  | some (.error e) =>
    if isDeterministicContractCallFailure e ["owner", "getIntent"] then
      .ofResult (evaluateFundReadFailure body
        (e.isContractFunctionExecutionError && e.functionName == "owner")
        (fundDeadlineEntry policy ctx body) (fundOnListEntry policy body))
    else .error (.err (upstream "fund-binding read failed upstream"))

theorem executes_runA2 (hid : UINT_DECIMAL_RE body.intent.id = true) {tr : List SigningEvent}
    {r : Settled (List CheckEntry)} (h : Executes (runA2 policy ctx body) tr r) :
    (¬FundAccepted policy body ∧ tr = [] ∧ r = fundReadResult policy ctx body none) ∨
      FundAccepted policy body ∧ ∃ answer : Except RpcError FundReads,
        tr = [⟨.fundReads ctx.chainId body.fundContract body.facility
          (decimalValue body.intent.id.toList), answer⟩] ∧
        r = fundReadResult policy ctx body (some answer) := by
  rw [runA2, toBigInt_decimal hid] at h
  change Executes (if (!(fundOnListEntry policy body).passed) = true then _ else _) tr r at h
  rw [fundOnList_passed] at h
  by_cases haccepted : FundAccepted policy body
  · rw [if_neg (by simp [haccepted])] at h
    obtain ⟨answer, tr', rfl, hrest⟩ := executes_perform.mp h
    refine .inr ⟨haccepted, answer, ?_⟩
    match answer, hrest with
    | .ok reads, hrest =>
      obtain ⟨rfl, hr⟩ := runs_done.mp hrest
      cases hr
      exact ⟨rfl, rfl⟩
    | .error e, hrest =>
      rw [bind_done] at hrest
      dsimp only at hrest
      rw [fundReadResult]
      split at hrest
      · obtain ⟨rfl, hr⟩ := runs_done.mp hrest
        cases hr
        exact ⟨rfl, (if_pos ‹_›).symm⟩
      · obtain ⟨rfl, hr⟩ := runs_done.mp hrest
        cases hr
        exact ⟨rfl, (if_neg ‹_›).symm⟩
  · rw [if_pos (by simp [haccepted])] at h
    obtain ⟨rfl, hr⟩ := runs_done.mp h
    cases hr
    exact .inl ⟨haccepted, rfl, rfl⟩

theorem fundReadResult_none (h : ¬FundAccepted policy body) :
    (fundReadResult policy ctx body none).resultClass = .validationFailed := by
  rw [fundReadResult, rollupA2, rollUp_class, if_neg]
  simp [fundOnList_passed, h]

theorem fundReadResult_some (h : FundAccepted policy body) (answer : Except RpcError FundReads) :
    (fundReadResult policy ctx body (some answer)).resultClass =
      fundReadClass policy ctx body answer := by
  cases answer with
  | error e =>
    rw [fundReadResult, fundReadClass]
    split
    · rw [evaluateFundReadFailure, rollupA2, rollUp_class, if_neg]
      simp
    · rfl
  | ok reads =>
    rw [fundReadResult, evaluateFund, rollupFundState_class, fundDeadline_passed,
      fundOnList_passed, fundOwner_passed, checkPositionManager_passed, checkNoCurrentFund_passed]
    simp only [h, skipped_passed, decide_true, decide_eq_true_eq, true_and, and_true]
    rfl

theorem fundReadResult_verdicts (h : FundAccepted policy body) (reads : FundReads) :
    (fundReadResult policy ctx body (some (.ok reads))).checks.map (List.map CheckEntry.passed) =
      some (fundVerdicts policy ctx body reads) := by
  rw [fundReadResult, evaluateFund, rollupFundState_checks, Option.map_some]
  simp only [List.map_cons, List.map_nil, fundDeadline_passed, fundOnList_passed,
    fundOwner_passed, checkPositionManager_passed, checkNoCurrentFund_passed, h, skipped_passed,
    decide_true]
  rfl

theorem fundReadResult_descriptions (answer : Option (Except RpcError FundReads)) :
    ∀ checks, (fundReadResult policy ctx body answer).checks = some checks →
      checks.map CheckEntry.description = a2Descriptions := by
  intro checks h
  match answer with
  | none =>
    rw [fundReadResult, rollupA2, rollUp_checks] at h
    cases h
    simp [a2Descriptions, skippedFundReads, fundDeadlineEntry, fundOnListEntry]
  | some (.ok reads) =>
    rw [fundReadResult, evaluateFund, rollupFundState_checks] at h
    cases h
    simp [a2Descriptions, fundDeadlineEntry, fundOnListEntry]
  | some (.error e) =>
    rw [fundReadResult] at h
    split at h
    · rw [evaluateFundReadFailure, rollupA2, rollUp_checks] at h
      cases h
      simp [a2Descriptions, skippedFundReads, fundDeadlineEntry, fundOnListEntry]
    · cases h

end Entries

/-- The classes of A.2 in their order, for every run, with the six entries on every branch. -/
theorem fund_binding_precedence (policy : IntentFundBindingPolicy) (ctx : SigningContext)
    (body : IntentFundBindingBody) (hid : UINT_DECIMAL_RE body.intent.id = true)
    (tr : List SigningEvent) (r : Settled (List CheckEntry))
    (hrun : Executes (buildIntentFundBindingChecks policy ctx body) tr r) :
    (¬FundAccepted policy body → tr = [] ∧ r.resultClass = .validationFailed) ∧
      (FundAccepted policy body → ∃ answer : Except RpcError FundReads,
        tr = [⟨.fundReads ctx.chainId body.fundContract body.facility
          (decimalValue body.intent.id.toList), answer⟩] ∧
        r.resultClass = fundReadClass policy ctx body answer ∧
        ∀ reads, answer = .ok reads →
          r.checks.map (List.map CheckEntry.passed) = some (fundVerdicts policy ctx body reads)) ∧
      ∀ checks, r.checks = some checks →
        checks.map CheckEntry.description = a2Descriptions := by
  rcases executes_runA2 hid hrun with ⟨hunlisted, rfl, rfl⟩ | ⟨haccepted, answer, rfl, rfl⟩
  · exact ⟨fun _ => ⟨rfl, fundReadResult_none hunlisted⟩, fun h => absurd h hunlisted,
      fundReadResult_descriptions none⟩
  · refine ⟨fun h => absurd haccepted h, fun _ => ⟨answer, rfl, ?_, fun reads heq => ?_⟩,
      fundReadResult_descriptions (some answer)⟩
    · exact fundReadResult_some haccepted answer
    · subst heq
      exact fundReadResult_verdicts haccepted reads

namespace Sample

def bindingPolicy : IntentFundBindingPolicy := ⟨3600, fun _ => some ["0xF"], fun _ => some ["0xo"]⟩

def bindingCtx : SigningContext := ⟨1, 1000000, false⟩

def bindingBody : IntentFundBindingBody := ⟨1, "0xfac", ⟨"5"⟩, "0xf", "0xp", 1050⟩

def boundReads : FundReads := ⟨"0xO", ⟨"0xP", false⟩, ⟨"0xq", true⟩, "0xother"⟩

def boundClient : ∀ op : Op, op.Answer
  | .fundReads .. => .ok boundReads
  | op => serve (fun _ => ⟨0, [], fun _ => none, fun _ _ => none, fun _ => none, fun _ _ => none,
      by simp, by simp⟩) op

end Sample

/-- The client's fault is reported although a fund is bound. -/
theorem fund_binding_precedence_bound :
    ∃ tr r, Executes (buildIntentFundBindingChecks Sample.bindingPolicy Sample.bindingCtx
        Sample.bindingBody) tr r ∧ r.resultClass = .validationFailed ∧
      Sample.boundReads.currentFund ≠ ZERO_ADDRESS := by
  have hrun := executes_trace Sample.boundClient
    (buildIntentFundBindingChecks Sample.bindingPolicy Sample.bindingCtx Sample.bindingBody)
  have haccepted : FundAccepted Sample.bindingPolicy Sample.bindingBody := by decide +kernel
  obtain ⟨answer, htrace, hclass, _⟩ := (fund_binding_precedence Sample.bindingPolicy
    Sample.bindingCtx Sample.bindingBody (by decide +kernel) _ _ hrun).2.1 haccepted
  have hanswered := trace_answered Sample.boundClient
    (buildIntentFundBindingChecks Sample.bindingPolicy Sample.bindingCtx Sample.bindingBody)
  rw [htrace] at hanswered
  have hanswer : answer = .ok Sample.boundReads := hanswered _ (List.mem_singleton.mpr rfl)
  refine ⟨_, _, hrun, ?_, by decide⟩
  rw [hclass, hanswer]
  decide +kernel

end Guardian
