import Guardian.Defaults.Chain

/-!
# Soundness of the A.1 decision

What an accepted binding request guarantees about the chain: the deadline bound,
and one of the trusted, the retargetter and the classic route. The proof follows
the runner: what each fetched value says about the chain, what a passed checks
array says about the fetched value, and their composition.
-/

namespace Guardian
open Effect Text

def roleRules (policy : IntentRequestBindingPolicy) (chainId : ℕ) (factory : Address) :
    List (ℕ × List Address) :=
  if memLower factory (policy.acceptedFlashLoanRequestFactories.on chainId) then
    [(ROLE_PULLER, policy.acceptedFlashLoanRequestExecutors.on chainId)]
  else
    [(ROLE_PULLER, policy.acceptedPullers.on chainId),
      (ROLE_CONSUMER, policy.acceptedConsumers.on chainId)]

def windowStart (chain : Chain) (policy : IntentRequestBindingPolicy) : ℤ :=
  if (chain.head : ℤ) > policy.eventScanMaxLookbackBlocks then
    chain.head - policy.eventScanMaxLookbackBlocks
  else 0

def RolesVerified (chain : Chain) (rc : Address) (rules : List (ℕ × List Address)) : Prop :=
  ∀ rule ∈ rules, (∃ u, chain.Holds rc rule.1 u) ∧
    ∀ u, chain.Holds rc rule.1 u → memLower u rule.2 = true

/-- No holder observed from `lo` on is outside the accepted set. -/
def RolesUnrefuted (chain : Chain) (rc : Address) (lo : ℤ) (rules : List (ℕ × List Address)) :
    Prop :=
  ∀ rule ∈ rules, ∀ u, chain.HoldsSince rc lo rule.1 u → memLower u rule.2 = true

def TrustedRoute (policy : IntentRequestBindingPolicy) (body : A1Request) : Prop :=
  ∃ c ∈ policy.trustedRequestContracts.on body.chainId,
    toLowerCase c = toLowerCase body.requestContract

def RetargetterRoute (chain : Chain) (now : ℤ) (policy : IntentRequestBindingPolicy)
    (body : A1Request) : Prop :=
  ∃ owner operation, chain.owner (toLowerCase body.requestContract) = some owner ∧
    (∃ r ∈ policy.acceptedRetargetters.on body.chainId, toLowerCase r = toLowerCase owner) ∧
    chain.operation (toLowerCase owner) = some operation ∧
    toLowerCase operation.request = toLowerCase body.requestContract ∧
    now + policy.minRetargetterRepaymentBufferSeconds.getD
      DEFAULT_MIN_RETARGETTER_REPAYMENT_BUFFER_SECONDS ≤ operation.repaymentDeadline

def ClassicRoute (chain : Chain) (policy : IntentRequestBindingPolicy) (body : A1Request) : Prop :=
  ∃ owner, ∃ check ∈ factoryChecks policy body.chainId,
    chain.owner (toLowerCase body.requestContract) = some owner ∧
    memLower owner (policy.acceptedOwners.on body.chainId) = true ∧
    chain.provenance check (toLowerCase body.requestContract) = some true ∧
    ((chain.Deployed check.factory body.requestContract (windowStart chain policy) ∨
        windowStart chain policy = 0) ∧
        RolesVerified chain body.requestContract
          (roleRules policy body.chainId check.factory) ∨
      0 < windowStart chain policy ∧
        ¬ chain.Deployed check.factory body.requestContract (windowStart chain policy) ∧
        policy.onLookbackExhausted ≠ some .fail ∧
        RolesUnrefuted chain body.requestContract (windowStart chain policy)
          (roleRules policy body.chainId check.factory))

def Recognised (chain : Chain) (policy : IntentRequestBindingPolicy) (body : A1Request)
    (factory : Address) : Prop :=
  ∃ check ∈ factoryChecks policy body.chainId, check.factory = factory ∧
    chain.provenance check (toLowerCase body.requestContract) = some true

def FetchedSound (chain : Chain) (policy : IntentRequestBindingPolicy) (body : A1Request) :
    FetchedA1 → Prop
  | .retargetter data =>
    chain.owner (toLowerCase body.requestContract) = some data.retargetter ∧
      isAcceptedRetargetter data.retargetter body.chainId policy = true ∧
      chain.operation (toLowerCase data.retargetter) =
        some ⟨data.attachedRequest, data.repaymentDeadline⟩
  | .onChain .noFactory => True
  | .onChain (.tooOld factory owner partialHolders) =>
    chain.owner (toLowerCase body.requestContract) = some owner ∧
      Recognised chain policy body factory ∧
      (partialHolders = none ∧ policy.onLookbackExhausted = some .fail ∨
        ∃ p, partialHolders = some p ∧ 0 < windowStart chain policy ∧
          ¬ chain.Deployed factory body.requestContract (windowStart chain policy) ∧
          ∀ u r, p.get? u = some r ↔ r ≠ 0 ∧
            chain.LatestRoles body.requestContract (windowStart chain policy) u r)
  | .onChain (.resolved factory owner holders) =>
    chain.owner (toLowerCase body.requestContract) = some owner ∧
      Recognised chain policy body factory ∧
      (chain.Deployed factory body.requestContract (windowStart chain policy) ∨
        windowStart chain policy = 0) ∧
      ∀ u r, holders.get? u = some r ↔ r ≠ 0 ∧ chain.LatestRoles body.requestContract 0 u r

theorem classifySlot_entries {acc : OrderedMap Address Address × List Address}
    {check : FactoryCheck} {slot : Slot Bool} {k f : Address}
    (h : (k, f) ∈ (classifySlot acc check slot).1.entries) :
    (k, f) ∈ acc.1.entries ∨ (slot = .success true ∧ f = check.factory) := by
  cases slot with
  | failure e => exact .inl h
  | success b =>
    cases b with
    | false => exact .inl h
    | true =>
      simp only [classifySlot, OrderedMap.mem_entries_set] at h
      split at h
      · exact .inr ⟨rfl, h⟩
      · exact .inl h

theorem classifyFactories_entries {slots : List (FactoryCheck × Slot Bool)} {k f : Address}
    (h : (k, f) ∈ (classifyFactories slots).1.entries) :
    ∃ s ∈ slots, s.2 = .success true ∧ s.1.factory = f := by
  suffices hacc : ∀ acc : OrderedMap Address Address × List Address,
      (k, f) ∈ (slots.foldl (fun acc s => classifySlot acc s.1 s.2) acc).1.entries →
        (k, f) ∈ acc.1.entries ∨ ∃ s ∈ slots, s.2 = .success true ∧ s.1.factory = f by
    rcases hacc _ h with h | h
    · simp [OrderedMap.empty] at h
    · exact h
  clear h
  induction slots with
  | nil => exact fun acc h => .inl h
  | cons s slots ih =>
    intro acc h
    rcases ih _ h with h | ⟨s', hs', h'⟩
    · rcases classifySlot_entries h with h | ⟨hs, hf⟩
      · exact .inl h
      · exact .inr ⟨s, by simp, hs, hf.symm⟩
    · exact .inr ⟨s', by simp [hs'], h'⟩

section Fetch
variable {chains : ℕ → Chain} {ctx : SigningContext} {policy : IntentRequestBindingPolicy}
  {body : A1Request}

theorem windowStart_eq (fs : List Address) :
    (scanArgs ctx body.requestContract policy fs (chains ctx.chainId).head).earliestAllowed =
      windowStart (chains ctx.chainId) policy := rfl

/-- With no update before the deployment, a window that holds it shows the whole history. -/
theorem latestRoles_of_deployed {chain : Chain} {rc factory : Address} {lo : ℤ}
    (hd : chain.Deployed factory rc lo) (hborn : chain.DeployedFirst rc [factory])
    (u : Address) (r : ℕ) : chain.LatestRoles rc lo u r ↔ chain.LatestRoles rc 0 u r := by
  obtain ⟨d, hd, hdlo, hdep⟩ := hd
  have hin : ∀ l ∈ chain.logs, ∀ u r, l.updates rc u r → lo ≤ l.blockNumber :=
    fun l hl u r hup => by
    have := hborn factory (by simp) d hd hdep l hl u r hup
    omega
  constructor
  · rintro ⟨l, hl, _, hup, hlatest⟩
    exact ⟨l, hl, by omega, hup, fun l' hl' r' _ hup' =>
      hlatest l' hl' r' (hin l' hl' u r' hup') hup'⟩
  · rintro ⟨l, hl, _, hup, hlatest⟩
    exact ⟨l, hl, hin l hl u r hup, hup, fun l' hl' r' _ hup' =>
      hlatest l' hl' r' (by omega) hup'⟩

theorem fetchRetargetterOperation_ensures {owner : Address}
    (howner : (chains ctx.chainId).owner (toLowerCase body.requestContract) = some owner)
    (hr : isAcceptedRetargetter owner body.chainId policy = true) :
    (fetchRetargetterOperation ctx owner).Ensures (Answers chains)
      (fun r => ∀ f, r = .ok f → FetchedSound (chains ctx.chainId) policy body f) := by
  refine .call_bind fun answer hanswer => ?_
  cases answer with
  | error e => exact .pure fun f hf => by simp at hf
  | ok operation =>
    refine .pure fun f hf => ?_
    obtain rfl := Except.ok.inj hf
    exact ⟨howner, hr, hanswer operation rfl⟩

theorem predatesWindow_ensures (latestBlock : ℕ) :
    (predatesWindow ctx body.requestContract policy latestBlock).Ensures (Answers chains)
      (fun r => r = true → policy.onLookbackExhausted = some .fail) := by
  rw [predatesWindow]
  split
  · rename_i h
    refine .call_bind fun answer _ => ?_
    cases answer with
    | error e => exact .pure fun _ => h.1
    | ok code => exact .pure fun _ => h.1
  · exact .pure fun h => by simp at h

theorem scanRoles_ensures {owner firstFactory : Address} {rest : List Address}
    (howner : (chains ctx.chainId).owner (toLowerCase body.requestContract) = some owner)
    (hmatched : ∀ f ∈ firstFactory :: rest, Recognised (chains ctx.chainId) policy body f)
    (hborn : (chains ctx.chainId).DeployedFirst body.requestContract (firstFactory :: rest)) :
    (scanRoles ctx body.requestContract policy owner firstFactory (firstFactory :: rest)
      (chains ctx.chainId).head).Ensures
      (Answers chains)
      (fun r => ∀ f, r = .ok f → FetchedSound (chains ctx.chainId) policy body f) := by
  have hfirst := hmatched firstFactory (by simp)
  refine .bind (scanRoleHolders_ensures rfl rfl) fun outcome hsound => ?_
  cases outcome with
  | error e => exact .pure fun f hf => by simp at hf
  | ok outcome =>
    have hs := hsound outcome rfl
    cases outcome with
    | tooOld partialHolders =>
      refine .pure fun f hf => ?_
      obtain rfl := Except.ok.inj hf
      obtain ⟨hpos, hroles, hnot⟩ := hs
      exact ⟨howner, hfirst, .inr ⟨partialHolders, rfl, hpos, hnot firstFactory
        List.mem_cons_self, hroles⟩⟩
    | resolved holders block factory =>
      refine .pure fun f hf => ?_
      obtain rfl := Except.ok.inj hf
      obtain ⟨lo, hroles, ⟨rfl, rfl, h0⟩ | ⟨f, hfm, rfl, hlo, hdep⟩⟩ := hs
      · exact ⟨howner, hfirst, .inr h0, hroles⟩
      · have hwindow : (chains ctx.chainId).Deployed f body.requestContract
            (windowStart (chains ctx.chainId) policy) := by
          obtain ⟨l, hl, hb, hd⟩ := hdep
          exact ⟨l, hl, le_trans hlo hb, hd⟩
        have hborn' : (chains ctx.chainId).DeployedFirst body.requestContract [f] :=
          fun g hg => hborn g (by rw [List.mem_singleton.mp hg]; exact hfm)
        refine ⟨howner, hmatched f hfm, .inl hwindow, fun u r => ?_⟩
        rw [hroles]
        exact and_congr_right fun _ => latestRoles_of_deployed hdep hborn' u r

theorem fetchRoles_ensures {owner firstFactory : Address} {rest : List Address}
    (howner : (chains ctx.chainId).owner (toLowerCase body.requestContract) = some owner)
    (hmatched : ∀ f ∈ firstFactory :: rest, Recognised (chains ctx.chainId) policy body f)
    (hborn : (chains ctx.chainId).DeployedFirst body.requestContract (firstFactory :: rest)) :
    (fetchRoles ctx body.requestContract policy owner firstFactory (firstFactory :: rest)).Ensures
      (Answers chains)
      (fun r => ∀ f, r = .ok f → FetchedSound (chains ctx.chainId) policy body f) := by
  have hfirst := hmatched firstFactory (by simp)
  refine .call_bind fun answer hanswer => ?_
  cases answer with
  | error e => exact .pure fun f hf => by simp at hf
  | ok latestBlock =>
    obtain rfl : latestBlock = (chains ctx.chainId).head := hanswer latestBlock rfl
    refine .bind (predatesWindow_ensures _) fun probe hprobe => ?_
    split
    · rename_i h
      refine .pure fun f hf => ?_
      obtain rfl := Except.ok.inj hf
      exact ⟨howner, hfirst, .inl ⟨rfl, hprobe h⟩⟩
    · exact scanRoles_ensures howner hmatched hborn

theorem fetchA1OnChain_ensures
    (hborn : (chains ctx.chainId).DeployedFirst body.requestContract
      ((factoryChecks policy body.chainId).map FactoryCheck.factory)) :
    (fetchA1OnChain ctx body.chainId body.requestContract policy).Ensures (Answers chains)
      (fun r => ∀ f, r = .ok f → FetchedSound (chains ctx.chainId) policy body f) := by
  refine .call_bind fun answer hanswer => ?_
  match answer, hanswer with
  | .error e, _ => exact .pure fun f hf => by simp at hf
  | .ok (.failure e, slots), _ =>
    dsimp only
    split
    · refine .pure fun f hf => ?_
      obtain rfl := Except.ok.inj hf
      trivial
    · exact .pure fun f hf => by simp at hf
  | .ok (.success owner, slots), hanswer =>
    obtain ⟨howner, hprovenance⟩ := hanswer _ _ rfl
    dsimp only
    split
    · rename_i hr
      exact fetchRetargetterOperation_ensures (howner owner rfl) hr
    · split
      · split
        · exact .pure fun f hf => by simp at hf
        · refine .pure fun f hf => ?_
          obtain rfl := Except.ok.inj hf
          trivial
      · rename_i firstFactory rest hentries
        have hhit : ∀ f ∈ firstFactory :: rest, ∃ s ∈ (factoryChecks policy body.chainId).zip
            slots.toList, s.2 = .success true ∧ s.1.factory = f := by
          intro f hf
          rw [← hentries, List.mem_map] at hf
          obtain ⟨e, he, rfl⟩ := hf
          exact classifyFactories_entries he
        refine fetchRoles_ensures (howner owner rfl) (fun f hf => ?_) (fun f hf => ?_)
        · obtain ⟨s, hs, htrue, hsf⟩ := hhit f hf
          exact ⟨s.1, (List.of_mem_zip hs).1, hsf, hprovenance s hs true htrue⟩
        · obtain ⟨s, hs, _, hsf⟩ := hhit f hf
          exact hborn f (List.mem_map.mpr ⟨s.1, (List.of_mem_zip hs).1, hsf⟩)

end Fetch

section Evaluate
variable {chain : Chain} {policy : IntentRequestBindingPolicy} {body : A1Request}
  {deadlineCheck : CheckEntry}

/-- What the check of one role asks of the complete or the partial holder map. -/
def RolePasses (data : RoleMap ⊕ RoleMap) (policy : IntentRequestBindingPolicy)
    (rule : ℕ × List Address) : Prop :=
  match data with
  | .inl holders => holdersOf holders rule.1 ≠ [] ∧
      ∀ h ∈ holdersOf holders rule.1, memLower h rule.2 = true
  | .inr partialHolders => policy.onLookbackExhausted.getD .skip = .skip ∧
      ∀ h ∈ holdersOf partialHolders rule.1, memLower h rule.2 = true

theorem roleCheck_passed {data : RoleMap ⊕ RoleMap} {d : String} {mask : ℕ}
    {accepted : List Address} :
    (roleCheck data policy d mask accepted).passed = true ↔
      RolePasses data policy (mask, accepted) := by
  cases data with
  | inl holders => exact checkSubset_passed
  | inr partialHolders => exact checkPartialHolders_passed

def IntentRequestBindingPolicy.factories (policy : IntentRequestBindingPolicy) (chainId : ℕ) :
    List Address :=
  policy.acceptedRequestFactories.on chainId ++ policy.acceptedFlashLoanRequestFactories.on chainId

theorem evaluateRoles_passed {factory owner : Address} {data : RoleMap ⊕ RoleMap} :
    (∀ c ∈ evaluateRoles factory owner data body.chainId policy deadlineCheck,
      c.passed = true) ↔
    memLower factory (policy.factories body.chainId) = true ∧
      memLower owner (policy.acceptedOwners.on body.chainId) = true ∧
      deadlineCheck.passed = true ∧
      ∀ rule ∈ roleRules policy body.chainId factory, RolePasses data policy rule := by
  rw [evaluateRoles]
  dsimp only
  by_cases haccepted : memLower factory (policy.factories body.chainId) = true
  · have haccepted' : memLower factory (policy.acceptedRequestFactories.on body.chainId ++
      policy.acceptedFlashLoanRequestFactories.on body.chainId) = true := haccepted
    rw [if_neg (by simp [haccepted'])]
    split
    · rename_i hflash
      simp only [List.forall_mem_cons, checkMembership_passed, roleCheck_passed, passed_passed,
        roleRules, hflash, if_true, haccepted, List.not_mem_nil, false_implies, implies_true,
        and_true, true_and]
      tauto
    · rename_i hflash
      simp only [List.forall_mem_cons, checkMembership_passed, roleCheck_passed, passed_passed,
        roleRules, hflash, Bool.false_eq_true, if_false, haccepted, List.not_mem_nil,
        false_implies, implies_true, and_true, true_and]
      tauto
  · have haccepted' : memLower factory (policy.acceptedRequestFactories.on body.chainId ++
      policy.acceptedFlashLoanRequestFactories.on body.chainId) = false :=
      Bool.eq_false_of_not_eq_true haccepted
    rw [if_pos (by simp [haccepted'])]
    simp [provenanceFailed, haccepted]

theorem mem_holdersOf_iff {holders : RoleMap} {rc : Address} {lo : ℤ}
    (hholders : ∀ u r, holders.get? u = some r ↔ r ≠ 0 ∧ chain.LatestRoles rc lo u r)
    {mask : ℕ} {u : Address} : u ∈ holdersOf holders mask ↔ chain.HoldsSince rc lo mask u := by
  rw [mem_holdersOf]
  constructor
  · rintro ⟨r, hr, hm⟩
    exact ⟨r, ((hholders u r).mp hr).2, hm⟩
  · rintro ⟨r, hr, hm⟩
    exact ⟨r, (hholders u r).mpr ⟨fun h0 => hm (by simp [h0]), hr⟩, hm⟩

theorem rolesVerified_of_resolved {factory : Address} {holders : RoleMap}
    (hholders : ∀ u r, holders.get? u = some r ↔
      r ≠ 0 ∧ chain.LatestRoles body.requestContract 0 u r)
    (h : ∀ rule ∈ roleRules policy body.chainId factory, RolePasses (.inl holders) policy rule) :
    RolesVerified chain body.requestContract (roleRules policy body.chainId factory) := by
  intro rule hrule
  obtain ⟨hne, hall⟩ := h rule hrule
  obtain ⟨u, hu⟩ := List.exists_mem_of_ne_nil _ hne
  exact ⟨⟨u, (mem_holdersOf_iff hholders).mp hu⟩,
    fun u hu => hall u ((mem_holdersOf_iff hholders).mpr hu)⟩

theorem rolesUnrefuted_of_tooOld {factory : Address} {partialHolders : RoleMap} {lo : ℤ}
    (hholders : ∀ u r, partialHolders.get? u = some r ↔
      r ≠ 0 ∧ chain.LatestRoles body.requestContract lo u r)
    (h : ∀ rule ∈ roleRules policy body.chainId factory,
      RolePasses (.inr partialHolders) policy rule) :
    RolesUnrefuted chain body.requestContract lo (roleRules policy body.chainId factory) := by
  intro rule hrule u hu
  exact (h rule hrule).2 u ((mem_holdersOf_iff hholders).mpr hu)

theorem roleRules_ne_nil (factory : Address) : roleRules policy body.chainId factory ≠ [] := by
  unfold roleRules
  split <;> simp

theorem disposition_of_tooOld {factory : Address} {partialHolders : RoleMap}
    (h : ∀ rule ∈ roleRules policy body.chainId factory,
      RolePasses (.inr partialHolders) policy rule) :
    policy.onLookbackExhausted ≠ some .fail := by
  intro hfail
  obtain ⟨rule, hrule⟩ := List.exists_mem_of_ne_nil _ (roleRules_ne_nil factory)
  have := (h rule hrule).1
  simp [hfail] at this

theorem classicRoute_of_evaluateA1 {data : A1OnChainData}
    (hdata : FetchedSound chain policy body (.onChain data))
    (h : ∀ c ∈ evaluateA1 data body.chainId policy deadlineCheck, c.passed = true) :
    deadlineCheck.passed = true ∧ ClassicRoute chain policy body := by
  cases data with
  | noFactory =>
    have := h (failed factoryDescription _)
      (by simp only [evaluateA1, provenanceFailed]; exact .head _)
    simp at this
  | tooOld factory owner partialHolders =>
    obtain ⟨howner, ⟨check, hcheck, rfl, htrue⟩, hcase⟩ := hdata
    obtain ⟨-, hacc, hdeadline, hroles⟩ := evaluateRoles_passed.mp h
    have hskip := disposition_of_tooOld hroles
    refine ⟨hdeadline, owner, check, hcheck, howner, hacc, htrue, ?_⟩
    rcases hcase with ⟨_, hfail⟩ | ⟨p, rfl, hpos, hnot, hholders⟩
    · exact absurd hfail hskip
    · exact .inr ⟨hpos, hnot, hskip, rolesUnrefuted_of_tooOld hholders hroles⟩
  | resolved factory owner holders =>
    obtain ⟨howner, ⟨check, hcheck, rfl, htrue⟩, hwindow, hholders⟩ := hdata
    obtain ⟨-, hacc, hdeadline, hroles⟩ := evaluateRoles_passed.mp h
    exact ⟨hdeadline, owner, check, hcheck, howner, hacc, htrue,
      .inl ⟨hwindow, rolesVerified_of_resolved hholders hroles⟩⟩

theorem evaluateRetargetter_passed {now : ℤ} {data : RetargetterOnChainData} {rc : Address} :
    (∀ c ∈ evaluateRetargetter data rc now policy deadlineCheck, c.passed = true) ↔
      toLowerCase data.attachedRequest = toLowerCase rc ∧
        now + policy.minRetargetterRepaymentBufferSeconds.getD
          DEFAULT_MIN_RETARGETTER_REPAYMENT_BUFFER_SECONDS ≤ data.repaymentDeadline ∧
        deadlineCheck.passed = true := by
  simp only [evaluateRetargetter, List.forall_mem_cons, passed_passed, skipped_passed, ite_passed,
    decide_eq_true_eq, ge_iff_le, List.not_mem_nil, false_implies, implies_true, and_true, true_and]

theorem retargetterRoute_of_evaluate {now : ℤ} {data : RetargetterOnChainData}
    (hdata : FetchedSound chain policy body (.retargetter data))
    (h : ∀ c ∈ evaluateRetargetter data body.requestContract now policy deadlineCheck,
      c.passed = true) :
    deadlineCheck.passed = true ∧ RetargetterRoute chain now policy body := by
  obtain ⟨howner, hr, hoperation⟩ := hdata
  obtain ⟨hattached, hbuffer, hdeadline⟩ := evaluateRetargetter_passed.mp h
  exact ⟨hdeadline, data.retargetter, _, howner, isOnChainSet_iff.mp hr, hoperation, hattached,
    hbuffer⟩

end Evaluate

theorem runA1_ensures {chains : ℕ → Chain} {ctx : SigningContext} {body : A1Request} {deps : A1Deps}
    (hcache : deps.cache = false)
    (hborn : (chains ctx.chainId).DeployedFirst body.requestContract
      ((factoryChecks deps.policy body.chainId).map FactoryCheck.factory)) :
    (runA1 ctx body deps).Ensures (Answers chains) (fun r => ∀ checks, r = .ok checks →
      (body.deadline : ℤ) ≤ ctx.nowUnixSeconds + deps.policy.maxDeadlineSecondsAhead ∧
        (TrustedRoute deps.policy body ∨
          RetargetterRoute (chains ctx.chainId) ctx.nowUnixSeconds deps.policy body ∨
          ClassicRoute (chains ctx.chainId) deps.policy body)) := by
  rw [runA1]
  split
  · rename_i htrusted
    refine .pure fun checks hchecks => ?_
    have hall := (rollUp_ok.mp hchecks).2
    simp only [trustedRequestContractChecks, List.forall_mem_cons] at hall
    exact ⟨checkDeadline_passed.mp hall.2.2.2.2.2.1, .inl (isOnChainSet_iff.mp htrusted)⟩
  · have hmiss : readCache body deps = pure none := by simp [readCache, hcache]
    rw [hmiss, pure_bind]
    refine .bind (fetchA1OnChain_ensures hborn) fun fetched hfetched => ?_
    match fetched, hfetched with
    | .error e, _ => exact .pure fun checks h => by simp at h
    | .ok (.retargetter data), hfetched =>
      refine .pure fun checks hchecks => ?_
      obtain ⟨hdeadline, hroute⟩ :=
        retargetterRoute_of_evaluate (hfetched _ rfl) (rollUp_ok.mp hchecks).2
      exact ⟨checkDeadline_passed.mp hdeadline, .inr (.inl hroute)⟩
    | .ok (.onChain data), hfetched =>
      refine .bind (Program.ensures_true _) fun _ _ => .pure fun checks hchecks => ?_
      obtain ⟨hdeadline, hroute⟩ :=
        classicRoute_of_evaluateA1 (hfetched _ rfl) (rollUp_ok.mp hchecks).2
      exact ⟨checkDeadline_passed.mp hdeadline, .inr (.inr hroute)⟩

/-- Every complete run over honest reads that accepts was entitled to. -/
theorem runA1_sound (chains : ℕ → Chain) (ctx : SigningContext) (body : A1Request) (deps : A1Deps)
    (hchain : ctx.chainId = body.chainId) (hcache : deps.cache = false)
    (hborn : (chains body.chainId).DeployedFirst body.requestContract
      ((factoryChecks deps.policy body.chainId).map FactoryCheck.factory))
    (tr : List SigningEvent) (checks : List CheckEntry)
    (hrun : Executes (runA1 ctx body deps) tr (.ok checks))
    (hhonest : ∀ e ∈ tr, Answers chains e) :
    (body.deadline : ℤ) ≤ ctx.nowUnixSeconds + deps.policy.maxDeadlineSecondsAhead ∧
      (TrustedRoute deps.policy body ∨
        RetargetterRoute (chains body.chainId) ctx.nowUnixSeconds deps.policy body ∨
        ClassicRoute (chains body.chainId) deps.policy body) := by
  rw [← hchain] at hborn ⊢
  exact (runA1_ensures hcache (hchain ▸ hborn)).executes hrun hhonest checks rfl

namespace Sample

def roleLog (block index : ℕ) (user : Address) (roles : ℕ) : Log :=
  ⟨"0xREQ", .rolesUpdated, block, index, some user, some roles, none, none⟩

def chain : Chain where
  head := 100
  logs := [roleLog 90 0 "0xPULL" 1, roleLog 90 1 "0xCONS" 2,
    ⟨"0xFAC", .requestCreated, 90, 2, none, none, some "0xreq", none⟩,
    roleLog 95 0 "0xROGUE" 1, roleLog 96 0 "0xROGUE" 0]
  owner := fun _ => some "0xOWN"
  provenance := fun _ _ => some true
  operation := fun _ => none
  code := fun _ _ => none
  logs_le_head := by decide
  logs_positioned := by decide

def policy : IntentRequestBindingPolicy where
  maxDeadlineSecondsAhead := 60
  trustedRequestContracts := fun _ => none
  acceptedRetargetters := fun _ => none
  minRetargetterRepaymentBufferSeconds := none
  acceptedRequestFactories := fun _ => some ["0xfac"]
  acceptedFlashLoanRequestFactories := fun _ => none
  acceptedFlashLoanRequestExecutors := fun _ => none
  acceptedOwners := fun _ => some ["0xown"]
  acceptedPullers := fun _ => some ["0xpull"]
  acceptedConsumers := fun _ => some ["0xcons"]
  eventScanBlockRange := 7
  eventScanMaxLookbackBlocks := 50
  eventScanDeadlineMs := none
  onLookbackExhausted := none

def ctx : SigningContext := ⟨1, 1000000, false⟩

def body : A1Request := ⟨1, "0xreq", 1050⟩

theorem sameChain : ctx.chainId = body.chainId := rfl

def checks : List CheckEntry :=
  [passed factoryDescription, passed ownerDescription, passed pullerDescription,
    passed consumerDescription, passed DEADLINE_CHECK_DESCRIPTION]

theorem accepted : (runA1 ctx body ⟨policy, false, none⟩).eval (serve fun _ => chain) =
    .ok checks := by
  rfl

theorem deployedFirst : chain.DeployedFirst body.requestContract
    ((factoryChecks policy body.chainId).map FactoryCheck.factory) := by
  intro f _ d hd hdep l hl u r _
  have hdeploy : ∀ d ∈ chain.logs, d.eventName ≠ .rolesUpdated → d.blockNumber = 90 := by decide
  have hrole : ∀ l ∈ chain.logs, 90 ≤ l.blockNumber := by decide
  rw [hdeploy d hd hdep.1]
  exact hrole l hl

end Sample

theorem runA1_sound_resolved :
    ((1050 : ℕ) : ℤ) ≤ 1000 + 60 ∧
      (TrustedRoute Sample.policy Sample.body ∨
        RetargetterRoute Sample.chain 1000 Sample.policy Sample.body ∨
        ClassicRoute Sample.chain Sample.policy Sample.body) := by
  have hrun := Program.executes_trace (serve fun _ => Sample.chain)
    (runA1 Sample.ctx Sample.body ⟨Sample.policy, false, none⟩)
  rw [Sample.accepted] at hrun
  refine runA1_sound (fun _ => Sample.chain) Sample.ctx Sample.body ⟨Sample.policy, false, none⟩
    rfl rfl Sample.deployedFirst _ Sample.checks hrun fun e he => ?_
  rw [show e = ⟨e.op, e.answer⟩ from rfl, Program.trace_answered _ _ e he]
  exact serve_answers _ e.op

end Guardian
