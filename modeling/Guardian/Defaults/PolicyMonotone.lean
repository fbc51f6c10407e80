import Guardian.Defaults.UndisturbedScan

/-!
# Policy monotonicity of A.1

A loosened policy lists more addresses, allows a later deadline, asks for a smaller
repayment buffer, or skips where it failed. It keeps what picks the path: the
retargetters, the factories and the scan limits. So its fetch returns the same value,
unless the probe it no longer makes had already rejected, and what passed still passes.
-/

namespace Guardian
open Effect Text

structure Loosens (p q : IntentRequestBindingPolicy) : Prop extends SharedReads p q where
  maxDeadlineSecondsAhead : p.maxDeadlineSecondsAhead ≤ q.maxDeadlineSecondsAhead
  trusted : ∀ c, p.trustedRequestContracts.on c ⊆ q.trustedRequestContracts.on c
  owners : ∀ c, p.acceptedOwners.on c ⊆ q.acceptedOwners.on c
  pullers : ∀ c, p.acceptedPullers.on c ⊆ q.acceptedPullers.on c
  consumers : ∀ c, p.acceptedConsumers.on c ⊆ q.acceptedConsumers.on c
  executors : ∀ c,
    p.acceptedFlashLoanRequestExecutors.on c ⊆ q.acceptedFlashLoanRequestExecutors.on c
  buffer : q.minRetargetterRepaymentBufferSeconds.getD
      DEFAULT_MIN_RETARGETTER_REPAYMENT_BUFFER_SECONDS ≤
    p.minRetargetterRepaymentBufferSeconds.getD DEFAULT_MIN_RETARGETTER_REPAYMENT_BUFFER_SECONDS
  disposition : q.onLookbackExhausted = p.onLookbackExhausted ∨
    p.onLookbackExhausted = some .fail ∧ q.onLookbackExhausted.getD .skip = .skip

theorem memLower_mono {value : String} {accepted accepted' : List String}
    (h : accepted ⊆ accepted') (hmem : memLower value accepted = true) :
    memLower value accepted' = true := by
  obtain ⟨a, ha, hlower⟩ := memLower_iff.mp hmem
  exact memLower_iff.mpr ⟨a, h ha, hlower⟩

section Evaluate
variable {p q : IntentRequestBindingPolicy}

theorem Loosens.disposed (h : Loosens p q) (hp : p.onLookbackExhausted.getD .skip = .skip) :
    q.onLookbackExhausted.getD .skip = .skip := by
  rcases h.disposition with heq | ⟨hfail, hskip⟩
  · rw [heq, hp]
  · exact hskip

theorem RolePasses.mono {data : RoleMap ⊕ RoleMap} {mask : ℕ} {accepted accepted' : List Address}
    (hsub : accepted ⊆ accepted') (h : Loosens p q) (hp : RolePasses data p (mask, accepted)) :
    RolePasses data q (mask, accepted') := by
  cases data with
  | inl holders => exact ⟨hp.1, fun u hu => memLower_mono hsub (hp.2 u hu)⟩
  | inr partialHolders => exact ⟨h.disposed hp.1, fun u hu => memLower_mono hsub (hp.2 u hu)⟩

theorem rolesPass_mono {data : RoleMap ⊕ RoleMap} {chainId : ℕ} {factory : Address}
    (h : Loosens p q) (hp : ∀ rule ∈ roleRules p chainId factory, RolePasses data p rule) :
    ∀ rule ∈ roleRules q chainId factory, RolePasses data q rule := by
  rw [roleRules, ← h.flashLoanFactories]
  rw [roleRules] at hp
  split
  · rename_i hflash
    rw [if_pos hflash] at hp
    simp only [List.forall_mem_cons, List.not_mem_nil, false_implies, implies_true,
      and_true] at hp ⊢
    exact hp.mono (h.executors chainId) h
  · rename_i hflash
    rw [if_neg hflash] at hp
    simp only [List.forall_mem_cons, List.not_mem_nil, false_implies, implies_true,
      and_true] at hp ⊢
    exact ⟨hp.1.mono (h.pullers chainId) h, hp.2.mono (h.consumers chainId) h⟩

theorem checkDeadline_mono {now : ℤ} {deadline : ℕ} (h : Loosens p q)
    (hp : (checkDeadline now deadline p.maxDeadlineSecondsAhead).passed = true) :
    (checkDeadline now deadline q.maxDeadlineSecondsAhead).passed = true := by
  have hle := h.maxDeadlineSecondsAhead
  rw [checkDeadline_passed] at hp ⊢
  omega

variable {body : A1Request} {deadlineCheck deadlineCheck' : CheckEntry}

theorem evaluateRoles_mono {factory owner : Address} {data : RoleMap ⊕ RoleMap} (h : Loosens p q)
    (hdeadline : deadlineCheck.passed = true → deadlineCheck'.passed = true)
    (hp : ∀ c ∈ evaluateRoles factory owner data body.chainId p deadlineCheck, c.passed = true) :
    ∀ c ∈ evaluateRoles factory owner data body.chainId q deadlineCheck', c.passed = true := by
  obtain ⟨hfactory, howner, hd, hroles⟩ := evaluateRoles_passed.mp hp
  have hfactories : p.factories body.chainId = q.factories body.chainId := by
    rw [IntentRequestBindingPolicy.factories, IntentRequestBindingPolicy.factories, h.factories,
      h.flashLoanFactories]
  exact evaluateRoles_passed.mpr ⟨hfactories ▸ hfactory,
    memLower_mono (h.owners body.chainId) howner,
    hdeadline hd, rolesPass_mono h hroles⟩

theorem evaluateA1_mono {data : A1OnChainData} (h : Loosens p q)
    (hdeadline : deadlineCheck.passed = true → deadlineCheck'.passed = true)
    (hp : ∀ c ∈ evaluateA1 data body.chainId p deadlineCheck, c.passed = true) :
    ∀ c ∈ evaluateA1 data body.chainId q deadlineCheck', c.passed = true := by
  cases data with
  | noFactory =>
    have := hp _ (.head _)
    simp at this
  | tooOld factory owner partialHolders => exact evaluateRoles_mono h hdeadline hp
  | resolved factory owner holders => exact evaluateRoles_mono h hdeadline hp

theorem evaluateRetargetter_mono {data : RetargetterOnChainData} {rc : Address} {now : ℤ}
    (h : Loosens p q) (hdeadline : deadlineCheck.passed = true → deadlineCheck'.passed = true)
    (hp : ∀ c ∈ evaluateRetargetter data rc now p deadlineCheck, c.passed = true) :
    ∀ c ∈ evaluateRetargetter data rc now q deadlineCheck', c.passed = true := by
  obtain ⟨hattached, hbuffer, hd⟩ := evaluateRetargetter_passed.mp hp
  have hle := h.buffer
  exact evaluateRetargetter_passed.mpr ⟨hattached, by omega, hdeadline hd⟩

theorem deadline_of_evaluateA1 {data : A1OnChainData}
    (hp : ∀ c ∈ evaluateA1 data body.chainId p deadlineCheck, c.passed = true) :
    deadlineCheck.passed = true := by
  cases data with
  | noFactory =>
    have := hp _ (.head _)
    simp at this
  | tooOld factory owner partialHolders => exact (evaluateRoles_passed.mp hp).2.2.1
  | resolved factory owner holders => exact (evaluateRoles_passed.mp hp).2.2.1

end Evaluate

def A1Call.under (call : A1Call) (q : IntentRequestBindingPolicy) : A1Call :=
  { call with deps := { call.deps with policy := q } }

section Calls
variable {call : A1Call} {q : IntentRequestBindingPolicy}

theorem decide_mono (h : Loosens call.deps.policy q) {r : Except SigningError FetchedA1}
    {checks : List CheckEntry} (hr : call.decide r = .ok checks) :
    ∃ checks', (call.under q).decide r = .ok checks' := by
  match r, hr with
  | .ok (.retargetter data), hr =>
    exact ⟨_, rollUp_ok.mpr ⟨rfl, evaluateRetargetter_mono h (checkDeadline_mono h)
      (rollUp_ok.mp hr).2⟩⟩
  | .ok (.onChain data), hr =>
    exact ⟨_, rollUp_ok.mpr ⟨rfl, evaluateA1_mono h (checkDeadline_mono h)
      (rollUp_ok.mp hr).2⟩⟩

theorem deadline_of_decide {r : Except SigningError FetchedA1} {checks : List CheckEntry}
    (hr : call.decide r = .ok checks) :
    (checkDeadline call.ctx.nowUnixSeconds call.body.deadline
      call.deps.policy.maxDeadlineSecondsAhead).passed = true := by
  match r, hr with
  | .ok (.retargetter data), hr => exact (evaluateRetargetter_passed.mp (rollUp_ok.mp hr).2).2.2
  | .ok (.onChain data), hr => exact deadline_of_evaluateA1 (rollUp_ok.mp hr).2

theorem fetch_under {rpc : (op : Op) → op.Answer} (h : Loosens call.deps.policy q)
    {checks : List CheckEntry} (hr : call.decide (call.fetch.eval rpc) = .ok checks) :
    (call.under q).fetch.eval rpc = call.fetch.eval rpc := by
  have hshared : SharedReads q call.deps.policy :=
    ⟨h.retargetters.symm, h.factories.symm, h.flashLoanFactories.symm, h.blockRange.symm,
      h.maxLookbackBlocks.symm, h.deadlineMs.symm⟩
  have hq : (call.under q).fetch = fetchA1OnChain call.ctx call.body.chainId
      call.body.requestContract (call.deps.policy.disposed q.onLookbackExhausted) :=
    fetchA1OnChain_shared hshared _ _ _
  rw [hq]
  rcases h.disposition with heq | ⟨hfail, hskip⟩
  · rw [heq]
    rfl
  · have hne : (call.deps.policy.disposed q.onLookbackExhausted).onLookbackExhausted ≠
        some .fail := by
      intro hq
      rw [show q.onLookbackExhausted = some .fail from hq] at hskip
      simp at hskip
    have hunprobed : call.fetch.eval rpc = _ ∨ Probed rpc call.ctx call.body.chainId
        call.body.requestContract call.deps.policy (call.fetch.eval rpc) _ :=
      fetchA1OnChain_unprobed call.body.chainId (fun _ _ => rfl) (predatesWindow_skip hne)
    rcases hunprobed with hsame | ⟨owner, slots, firstFactory, rest, latestBlock, -, -, -, -,
      hprobed, -⟩
    · exact hsame.symm
    · have hrejected : decision (call.decide (.ok (.onChain (.tooOld firstFactory owner none)))) =
          .rejected := decision_rejected rfl hfail
      rw [← hprobed, hr] at hrejected
      simp [decision] at hrejected

end Calls

/-- What A.1 accepts under a policy it accepts under every looser one. -/
theorem runA1_monotone (rpc : (op : Op) → op.Answer) (call : A1Call)
    (q : IntentRequestBindingPolicy) (hcache : call.deps.cache = false)
    (h : Loosens call.deps.policy q) (checks : List CheckEntry)
    (hok : call.run.eval rpc = .ok checks) :
    ∃ checks', (call.under q).run.eval rpc = .ok checks' := by
  rw [call.run_eval hcache] at hok
  rw [(call.under q).run_eval hcache]
  have hdeadline : (checkDeadline call.ctx.nowUnixSeconds call.body.deadline
      call.deps.policy.maxDeadlineSecondsAhead).passed = true := by
    rw [A1Call.result] at hok
    split at hok
    · exact (rollUp_ok.mp hok).2 _ (by simp [trustedRequestContractChecks])
    · exact deadline_of_decide hok
  by_cases htrusted : isTrustedRequestContract call.body.requestContract call.body.chainId q = true
  · have hresult : (call.under q).result rpc = rollupA1 (trustedRequestContractChecks
        (checkDeadline call.ctx.nowUnixSeconds call.body.deadline q.maxDeadlineSecondsAhead)) :=
      if_pos htrusted
    rw [hresult]
    refine ⟨_, rollUp_ok.mpr ⟨rfl, ?_⟩⟩
    simp only [trustedRequestContractChecks, List.forall_mem_cons, passed_passed, skipped_passed,
      checkDeadline_mono h hdeadline, List.not_mem_nil, false_implies, implies_true, and_self]
  · have hnot : ¬ isTrustedRequestContract call.body.requestContract call.body.chainId
        call.deps.policy = true := by
      intro hp
      obtain ⟨a, ha, hlower⟩ := isOnChainSet_iff.mp hp
      exact htrusted (isOnChainSet_iff.mpr ⟨a, h.trusted _ ha, hlower⟩)
    have hresult : (call.under q).result rpc = (call.under q).decide
        ((call.under q).fetch.eval rpc) := if_neg htrusted
    rw [A1Call.result, if_neg hnot] at hok
    rw [hresult, fetch_under h hok]
    exact decide_mono h hok

namespace Sample

def strict : A1Call where
  ctx := ctx
  body := body
  deps := ⟨{ policy with onLookbackExhausted := some .fail }, false, none⟩
  chain := sameChain

def loose : IntentRequestBindingPolicy :=
  { policy with
    maxDeadlineSecondsAhead := 90
    acceptedOwners := fun _ => some ["0xnew", "0xown"]
    onLookbackExhausted := some .skip }

theorem loosens : Loosens strict.deps.policy loose where
  retargetters := rfl
  factories := rfl
  flashLoanFactories := rfl
  blockRange := rfl
  maxLookbackBlocks := rfl
  deadlineMs := rfl
  maxDeadlineSecondsAhead := by decide
  trusted _ := List.Subset.refl _
  owners _ := List.subset_cons_self _ _
  pullers _ := List.Subset.refl _
  consumers _ := List.Subset.refl _
  executors _ := List.Subset.refl _
  buffer := le_rfl
  disposition := .inr ⟨rfl, rfl⟩

end Sample

theorem runA1_monotone_loosened : ∃ checks',
    (Sample.strict.under Sample.loose).run.eval (serve fun _ => Sample.chain) = .ok checks' :=
  runA1_monotone (serve fun _ => Sample.chain) Sample.strict Sample.loose rfl Sample.loosens
    Sample.checks rfl

end Guardian
