import Guardian.Defaults.UndisturbedScan

/-!
# No false rejection by A.1

The other half of the soundness theorem: over reads that do not fail, a request
that keeps its deadline and takes one of four routes is accepted. Besides the
trusted and the retargetter route these are a deployment inside the lookback
window with its complete holder sets, and one before it with what the window shows.
-/

namespace Guardian
open Effect Text

/-- A matched factory deployed the contract in the window, under satisfied role rules. -/
def DeployedInWindow (chain : Chain) (policy : IntentRequestBindingPolicy) (body : A1Request) :
    Prop :=
  (∃ f, Recognised chain policy body f ∧
      chain.Deployed f body.requestContract (windowStart chain policy)) ∧
    ∀ f, Recognised chain policy body f →
      chain.Deployed f body.requestContract (windowStart chain policy) →
      RolesVerified chain body.requestContract (roleRules policy body.chainId f)

/-- The deployment is older than the window, and the window shows no rogue of any matched
factory's rules. -/
def DeployedBeforeWindow (chain : Chain) (policy : IntentRequestBindingPolicy)
    (body : A1Request) : Prop :=
  0 < windowStart chain policy ∧
    (∀ f, Recognised chain policy body f →
      ¬ chain.Deployed f body.requestContract (windowStart chain policy)) ∧
    policy.onLookbackExhausted ≠ some .fail ∧
    ∀ f, Recognised chain policy body f →
      RolesUnrefuted chain body.requestContract (windowStart chain policy)
        (roleRules policy body.chainId f)

def DeploymentRoute (chain : Chain) (policy : IntentRequestBindingPolicy) (body : A1Request) :
    Prop :=
  (∃ owner, chain.owner (toLowerCase body.requestContract) = some owner ∧
      memLower owner (policy.acceptedOwners.on body.chainId) = true ∧
      isAcceptedRetargetter owner body.chainId policy = false) ∧
    (∃ f, Recognised chain policy body f) ∧
    (DeployedInWindow chain policy body ∨ DeployedBeforeWindow chain policy body)

def Answered (chains : ℕ → Chain) : SigningEvent → Prop
  | ⟨.ownerAndProvenance c rc checks, answer⟩ => ∃ slot slots, answer = .ok (slot, slots) ∧
      (∀ a, (chains c).owner (toLowerCase rc) = some a → slot = .success a) ∧
      ∀ s ∈ checks.zip slots.toList, ∀ b,
        (chains c).provenance s.1 (toLowerCase rc) = some b → s.2 = .success b
  | ⟨.operation c r, answer⟩ =>
    ∀ operation, (chains c).operation (toLowerCase r) = some operation → answer = .ok operation
  | ⟨.getBlockNumber c, answer⟩ => answer = .ok (chains c).head
  | _ => True

/-- Every read of the run is answered, and answered with what the chain holds. -/
def ReadsAnswered (chains : ℕ → Chain) (start width : ℤ) (e : SigningEvent) : Prop :=
  Answers chains e ∧ Answered chains e ∧ Undisturbed start width e

section Classify
variable {slots : List (FactoryCheck × Slot Bool)}

theorem classifySlot_keys {acc : OrderedMap Address Address × List Address}
    (hacc : ∀ e ∈ acc.1.entries, e.1 = toLowerCase e.2) (check : FactoryCheck) (slot : Slot Bool) :
    ∀ e ∈ (classifySlot acc check slot).1.entries, e.1 = toLowerCase e.2 := by
  rintro ⟨k, f⟩ he
  cases slot with
  | failure e => exact hacc _ he
  | success b =>
    cases b with
    | false => exact hacc _ he
    | true =>
      simp only [classifySlot, OrderedMap.mem_entries_set] at he
      split at he
      · rename_i hk
        rw [hk, he]
      · exact hacc _ he

theorem classifyFactories_keys :
    ∀ e ∈ (classifyFactories slots).1.entries, e.1 = toLowerCase e.2 := by
  suffices hacc : ∀ acc : OrderedMap Address Address × List Address,
      (∀ e ∈ acc.1.entries, e.1 = toLowerCase e.2) →
        ∀ e ∈ (slots.foldl (fun acc s => classifySlot acc s.1 s.2) acc).1.entries,
          e.1 = toLowerCase e.2 by
    exact hacc _ (by simp [OrderedMap.empty])
  induction slots with
  | nil => exact fun _ h => h
  | cons s slots ih => exact fun acc h => ih _ (classifySlot_keys h _ _)

theorem classifyFactories_covers {s : FactoryCheck × Slot Bool} (hs : s ∈ slots)
    (htrue : s.2 = .success true) :
    ∃ f, (toLowerCase s.1.factory, f) ∈ (classifyFactories slots).1.entries := by
  suffices hacc : ∀ (acc : OrderedMap Address Address × List Address) (k : Address),
      ((∃ f, (k, f) ∈ acc.1.entries) ∨
        ∃ s ∈ slots, s.2 = .success true ∧ toLowerCase s.1.factory = k) →
      ∃ f, (k, f) ∈ (slots.foldl (fun acc s => classifySlot acc s.1 s.2) acc).1.entries by
    exact hacc _ _ (.inr ⟨s, hs, htrue, rfl⟩)
  clear hs
  induction slots with
  | nil =>
    rintro acc k (h | ⟨s, hs, -⟩)
    · exact h
    · simp at hs
  | cons s slots ih =>
    intro acc k h
    refine ih _ _ ?_
    rcases h with ⟨f, hf⟩ | ⟨s', hs', htrue', hk⟩
    · left
      obtain ⟨check, slot⟩ := s
      cases slot with
      | failure e => exact ⟨f, hf⟩
      | success b =>
        cases b with
        | false => exact ⟨f, hf⟩
        | true =>
          by_cases hk : k = toLowerCase check.factory
          · exact ⟨check.factory, OrderedMap.mem_entries_set.mpr (by rw [if_pos hk])⟩
          · exact ⟨f, OrderedMap.mem_entries_set.mpr (by rwa [if_neg hk])⟩
    · rcases List.mem_cons.mp hs' with rfl | hs'
      · left
        obtain ⟨check, slot⟩ := s'
        subst htrue'
        exact ⟨check.factory, OrderedMap.mem_entries_set.mpr (by rw [if_pos hk.symm])⟩
      · exact .inr ⟨s', hs', htrue', hk⟩

end Classify

section Evaluate
variable {chain : Chain} {policy : IntentRequestBindingPolicy} {body : A1Request}

theorem Recognised.accepted {factory : Address} (h : Recognised chain policy body factory) :
    memLower factory (policy.factories body.chainId) = true := by
  obtain ⟨check, hcheck, rfl, -⟩ := h
  refine memLower_iff.mpr ⟨check.factory, ?_, rfl⟩
  rcases List.mem_append.mp hcheck with h | h
  · obtain ⟨f, hf, rfl⟩ := List.mem_map.mp h
    exact List.mem_append_left _ hf
  · obtain ⟨f, hf, rfl⟩ := List.mem_map.mp h
    exact List.mem_append_right _ hf

theorem rolePasses_resolved {holders : RoleMap} {factory : Address}
    (hholders : ∀ u r, holders.get? u = some r ↔
      r ≠ 0 ∧ chain.LatestRoles body.requestContract 0 u r)
    (h : RolesVerified chain body.requestContract (roleRules policy body.chainId factory)) :
    ∀ rule ∈ roleRules policy body.chainId factory, RolePasses (.inl holders) policy rule := by
  intro rule hrule
  obtain ⟨⟨u, hu⟩, hall⟩ := h rule hrule
  refine ⟨?_, fun u hu => hall u ((mem_holdersOf_iff hholders).mp hu)⟩
  exact List.ne_nil_of_mem ((mem_holdersOf_iff hholders).mpr hu)

theorem rolePasses_tooOld {partialHolders : RoleMap} {factory : Address} {lo : ℤ}
    (hholders : ∀ u r, partialHolders.get? u = some r ↔
      r ≠ 0 ∧ chain.LatestRoles body.requestContract lo u r)
    (hskip : policy.onLookbackExhausted ≠ some .fail)
    (h : RolesUnrefuted chain body.requestContract lo (roleRules policy body.chainId factory)) :
    ∀ rule ∈ roleRules policy body.chainId factory,
      RolePasses (.inr partialHolders) policy rule := by
  intro rule hrule
  have hdisposition : policy.onLookbackExhausted.getD .skip = .skip := by
    match hp : policy.onLookbackExhausted with
    | none => rfl
    | some .skip => rfl
    | some .fail => exact absurd hp hskip
  exact ⟨hdisposition, fun u hu => h rule hrule u ((mem_holdersOf_iff hholders).mp hu)⟩

end Evaluate

section Fetch
variable {chains : ℕ → Chain} {ctx : SigningContext} {policy : IntentRequestBindingPolicy}
  {body : A1Request} {start width : ℤ}

def Passes (policy : IntentRequestBindingPolicy) (body : A1Request)
    (r : Except SigningError FetchedA1) : Prop :=
  ∃ data, r = .ok (.onChain data) ∧ ∀ deadlineCheck, deadlineCheck.passed = true →
    ∀ c ∈ evaluateA1 data body.chainId policy deadlineCheck, c.passed = true

theorem predatesWindow_false
    (hcode : CodeFromDeployment (chains ctx.chainId)
      ((factoryChecks policy body.chainId).map FactoryCheck.factory))
    (hroute : DeployedInWindow (chains ctx.chainId) policy body ∨
      DeployedBeforeWindow (chains ctx.chainId) policy body) :
    (predatesWindow ctx body.requestContract policy (chains ctx.chainId).head).Ensures
      (ReadsAnswered chains start width) (fun r => r = false) := by
  rw [predatesWindow]
  split
  · rename_i h
    refine .call_bind fun answer hanswer => ?_
    rcases answer with _ | (_ | code)
    · exact .pure rfl
    · exact .pure rfl
    · exfalso
      rcases hroute with ⟨⟨f, ⟨check, hcheck, rfl, -⟩, l, hl, hlo, hdep⟩, -⟩ | ⟨-, -, hskip, -⟩
      · have hsome := hanswer.1 _ rfl
        have hle := hcode body.requestContract _ (by rw [← hsome]; simp) check.factory
          (List.mem_map_of_mem hcheck) l hl hdep
        have hstart : windowStart (chains ctx.chainId) policy =
          (chains ctx.chainId).head - policy.eventScanMaxLookbackBlocks := if_pos h.2
        omega
      · exact hskip h.1
  · exact .pure rfl

theorem scanRoles_passes {owner firstFactory : Address} {rest : List Address}
    (hrange : 0 < policy.eventScanBlockRange) (hlookback : 0 < policy.eventScanMaxLookbackBlocks)
    (hbudget : ∀ budget, policy.eventScanDeadlineMs = some budget → 0 ≤ budget ∧ width ≤ budget)
    (hborn : (chains ctx.chainId).DeployedFirst body.requestContract
      ((factoryChecks policy body.chainId).map FactoryCheck.factory))
    (howner : memLower owner (policy.acceptedOwners.on body.chainId) = true)
    (hmatched : ∀ f ∈ firstFactory :: rest, Recognised (chains ctx.chainId) policy body f)
    (hcovers : ∀ f, Recognised (chains ctx.chainId) policy body f →
      ∃ g ∈ firstFactory :: rest, toLowerCase g = toLowerCase f)
    (hroute : DeployedInWindow (chains ctx.chainId) policy body ∨
      DeployedBeforeWindow (chains ctx.chainId) policy body) :
    (scanRoles ctx body.requestContract policy owner firstFactory (firstFactory :: rest)
      (chains ctx.chainId).head).Ensures (ReadsAnswered chains start width)
      (Passes policy body) := by
  have hargs : scanArgsError (scanArgs ctx body.requestContract policy (firstFactory :: rest)
      (chains ctx.chainId).head) = none :=
    scanArgsError_eq_none (by simp [scanArgs]) hrange hlookback fun d hd => (hbudget d hd).1
  have hexact := (scanRoleHolders_exact rfl rfl hargs fun d hd => (hbudget d hd).2).relax
    fun e (he : ReadsAnswered chains start width e) => ⟨he.1, he.2.2⟩
  -- a matched factory deployed the contract in the window: the scan must have seen it
  have hseen : DeployedInWindow (chains ctx.chainId) policy body →
      ∃ g ∈ firstFactory :: rest, (chains ctx.chainId).Deployed g body.requestContract
        (windowStart (chains ctx.chainId) policy) := by
    rintro ⟨⟨f, hf, l, hl, hlo, hdep⟩, -⟩
    obtain ⟨g, hg, hgf⟩ := hcovers f hf
    exact ⟨g, hg, l, hl, hlo, hdep.1, hdep.2.1.trans hgf.symm, hdep.2.2⟩
  refine .bind hexact fun r hr => ?_
  obtain ⟨o, rfl, ho⟩ := hr
  cases o with
  | tooOld p =>
    obtain ⟨hpos, hholders, hnot⟩ := ho
    refine .pure ⟨_, rfl, fun deadlineCheck hdeadline => ?_⟩
    rcases hroute with hin | ⟨-, -, hskip, hroles⟩
    · obtain ⟨g, hg, hdep⟩ := hseen hin
      exact absurd hdep (hnot g hg)
    · have hfirst := hmatched _ List.mem_cons_self
      exact evaluateRoles_passed.mpr ⟨hfirst.accepted, howner, hdeadline,
        rolePasses_tooOld hholders hskip (hroles firstFactory hfirst)⟩
  | resolved holders block factory =>
    refine .pure ⟨_, rfl, fun deadlineCheck hdeadline => ?_⟩
    cases factory with
    | none =>
      exfalso
      obtain ⟨⟨-, -, ⟨-, -, h0⟩ | ⟨f, -, hf, -⟩⟩, hnot⟩ := ho
      · rcases hroute with hin | ⟨hpos, -⟩
        · obtain ⟨g, hg, hdep⟩ := hseen hin
          exact hnot g hg hdep
        · rw [windowStart_eq] at h0
          omega
      · simp at hf
    | some factory =>
      obtain ⟨lo, hholders, ⟨h0, -⟩ | ⟨f, hf, hff, hlo, hdep⟩⟩ := ho
      · simp at h0
      · obtain rfl := Option.some.inj hff
        have hwindow : (chains ctx.chainId).Deployed factory body.requestContract
            (windowStart (chains ctx.chainId) policy) := by
          obtain ⟨l, hl, hlb, hd⟩ := hdep
          exact ⟨l, hl, le_trans hlo hlb, hd⟩
        rcases hroute with ⟨-, hroles⟩ | ⟨-, hnot, -⟩
        · have hborn' : (chains ctx.chainId).DeployedFirst body.requestContract [factory] := by
            intro g hg
            obtain ⟨check, hcheck, hcf, -⟩ := hmatched factory hf
            refine hborn g ?_
            rw [List.mem_singleton.mp hg, ← hcf]
            exact List.mem_map_of_mem hcheck
          refine evaluateRoles_passed.mpr ⟨(hmatched factory hf).accepted, howner, hdeadline,
            rolePasses_resolved (fun u r => ?_) (hroles factory (hmatched factory hf) hwindow)⟩
          rw [hholders]
          exact and_congr_right fun _ => latestRoles_of_deployed hdep hborn' u r
        · exact absurd hwindow (hnot factory (hmatched factory hf))

theorem fetchRoles_passes {owner firstFactory : Address} {rest : List Address}
    (hcode : CodeFromDeployment (chains ctx.chainId)
      ((factoryChecks policy body.chainId).map FactoryCheck.factory))
    (hroute : DeployedInWindow (chains ctx.chainId) policy body ∨
      DeployedBeforeWindow (chains ctx.chainId) policy body)
    (hscan : (scanRoles ctx body.requestContract policy owner firstFactory (firstFactory :: rest)
      (chains ctx.chainId).head).Ensures (ReadsAnswered chains start width)
      (Passes policy body)) :
    (fetchRoles ctx body.requestContract policy owner firstFactory (firstFactory :: rest)).Ensures
      (ReadsAnswered chains start width) (Passes policy body) := by
  refine .call_bind fun answer hanswer => ?_
  have hhead : answer = .ok (chains ctx.chainId).head := hanswer.2.1
  subst hhead
  refine .bind (predatesWindow_false hcode hroute) fun probe hprobe => ?_
  subst hprobe
  exact hscan

theorem slot_iff {rc : Address} {checks : List FactoryCheck}
    {answer : Op.Answer (.ownerAndProvenance ctx.chainId rc checks)} {slot : Slot Address}
    {slots : List.Vector (Slot Bool) checks.length} (hanswer : answer = .ok (slot, slots))
    (h : ReadsAnswered chains start width ⟨.ownerAndProvenance ctx.chainId rc checks, answer⟩) :
    ∀ s ∈ checks.zip slots.toList,
      (s.2 = .success true ↔ (chains ctx.chainId).provenance s.1 (toLowerCase rc) = some true) := by
  intro s hs
  obtain ⟨slot', slots', hanswer', -, hall⟩ := h.2.1
  obtain ⟨-, rfl⟩ := Prod.mk.inj (Except.ok.inj (hanswer.symm.trans hanswer'))
  exact ⟨(h.1 slot slots hanswer).2 s hs true, hall s hs true⟩

theorem fetchA1OnChain_passes
    (hrange : 0 < policy.eventScanBlockRange) (hlookback : 0 < policy.eventScanMaxLookbackBlocks)
    (hbudget : ∀ budget, policy.eventScanDeadlineMs = some budget → 0 ≤ budget ∧ width ≤ budget)
    (hborn : (chains ctx.chainId).DeployedFirst body.requestContract
      ((factoryChecks policy body.chainId).map FactoryCheck.factory))
    (hcode : CodeFromDeployment (chains ctx.chainId)
      ((factoryChecks policy body.chainId).map FactoryCheck.factory))
    (hroute : DeploymentRoute (chains ctx.chainId) policy body) :
    (fetchA1OnChain ctx body.chainId body.requestContract policy).Ensures
      (ReadsAnswered chains start width) (Passes policy body) := by
  obtain ⟨⟨owner, howner, haccepted, hnot⟩, ⟨f₀, check₀, hcheck₀, -, htrue₀⟩, hroute⟩ := hroute
  refine .call_bind fun answer hanswer => ?_
  obtain ⟨slot, slots, hok, hslot, hslots⟩ := hanswer.2.1
  obtain rfl := hslot owner howner
  have hiff := slot_iff hok hanswer
  subst hok
  dsimp only
  rw [if_neg (by simp [hnot])]
  have hmem : ∀ check ∈ factoryChecks policy body.chainId,
      ∃ s ∈ (factoryChecks policy body.chainId).zip slots.toList, s.1 = check := by
    intro check hcheck
    have hfst : ((factoryChecks policy body.chainId).zip slots.toList).map Prod.fst =
      factoryChecks policy body.chainId := List.map_fst_zip (by simp)
    rw [← hfst] at hcheck
    exact List.mem_map.mp hcheck
  have hcovered : ∀ f, Recognised (chains ctx.chainId) policy body f →
      ∃ g, (toLowerCase f, g) ∈
        (classifyFactories ((factoryChecks policy body.chainId).zip slots.toList)).1.entries := by
    rintro f ⟨check, hcheck, rfl, htrue⟩
    obtain ⟨s, hs, rfl⟩ := hmem check hcheck
    exact classifyFactories_covers hs ((hiff s hs).mpr htrue)
  split
  · rename_i hnil
    obtain ⟨g, hg⟩ := hcovered _ ⟨check₀, hcheck₀, rfl, htrue₀⟩
    rw [List.map_eq_nil_iff.mp hnil] at hg
    simp at hg
  · rename_i firstFactory rest hentries
    refine fetchRoles_passes hcode hroute (scanRoles_passes hrange hlookback hbudget hborn haccepted
      (fun f hf => ?_) (fun f hf => ?_) hroute)
    · rw [← hentries, List.mem_map] at hf
      obtain ⟨e, he, rfl⟩ := hf
      obtain ⟨s, hs, htrue, hsf⟩ := classifyFactories_entries he
      exact ⟨s.1, (List.of_mem_zip hs).1, hsf, (hiff s hs).mp htrue⟩
    · obtain ⟨g, hg⟩ := hcovered f hf
      refine ⟨g, ?_, (classifyFactories_keys _ hg).symm⟩
      rw [← hentries]
      exact List.mem_map.mpr ⟨_, hg, rfl⟩

end Fetch

theorem retargetter_passes {chains : ℕ → Chain} {ctx : SigningContext}
    {policy : IntentRequestBindingPolicy} {body : A1Request} {start width now : ℤ}
    (hroute : RetargetterRoute (chains ctx.chainId) now policy body) :
    (fetchA1OnChain ctx body.chainId body.requestContract policy).Ensures
      (ReadsAnswered chains start width) (fun r => ∃ data, r = .ok (.retargetter data) ∧
        ∀ deadlineCheck, deadlineCheck.passed = true → ∀ c ∈
          evaluateRetargetter data body.requestContract now policy deadlineCheck,
          c.passed = true) := by
  obtain ⟨owner, operation, howner, hlisted, hoperation, hattached, hbuffer⟩ := hroute
  refine .call_bind fun answer hanswer => ?_
  obtain ⟨slot, slots, rfl, hslot, -⟩ := hanswer.2.1
  obtain rfl := hslot owner howner
  dsimp only
  have haccepted : isAcceptedRetargetter owner body.chainId policy = true :=
    isOnChainSet_iff.mpr hlisted
  rw [if_pos haccepted]
  refine .call_bind fun answer hanswer => ?_
  obtain rfl := hanswer.2.1 operation hoperation
  exact .pure ⟨_, rfl, fun deadlineCheck hdeadline =>
    evaluateRetargetter_passed.mpr ⟨hattached, hbuffer, hdeadline⟩⟩

theorem runA1_accepts {chains : ℕ → Chain} {call : A1Call} {start width : ℤ}
    (hcache : call.deps.cache = false) (hrange : 0 < call.deps.policy.eventScanBlockRange)
    (hlookback : 0 < call.deps.policy.eventScanMaxLookbackBlocks)
    (hbudget : ∀ budget, call.deps.policy.eventScanDeadlineMs = some budget →
      0 ≤ budget ∧ width ≤ budget)
    (hborn : (chains call.ctx.chainId).DeployedFirst call.body.requestContract
      ((factoryChecks call.deps.policy call.body.chainId).map FactoryCheck.factory))
    (hcode : CodeFromDeployment (chains call.ctx.chainId)
      ((factoryChecks call.deps.policy call.body.chainId).map FactoryCheck.factory))
    (hdeadline : (call.body.deadline : ℤ) ≤
      call.ctx.nowUnixSeconds + call.deps.policy.maxDeadlineSecondsAhead)
    (hroute : TrustedRoute call.deps.policy call.body ∨
      RetargetterRoute (chains call.ctx.chainId) call.ctx.nowUnixSeconds call.deps.policy
        call.body ∨
      DeploymentRoute (chains call.ctx.chainId) call.deps.policy call.body) :
    call.run.Ensures (ReadsAnswered chains start width) (fun r => ∃ checks, r = .ok checks) := by
  have hcheck := checkDeadline_passed.mpr hdeadline
  rw [A1Call.run, runA1]
  split
  · refine .pure ⟨_, rollUp_ok.mpr ⟨rfl, ?_⟩⟩
    simp only [trustedRequestContractChecks, List.forall_mem_cons, passed_passed, skipped_passed,
      hcheck, List.not_mem_nil, false_implies, implies_true, and_self]
  · rename_i hnot
    rw [show readCache call.body call.deps = pure none by simp [readCache, hcache], pure_bind]
    rcases hroute with htrusted | hretargetter | hdeployment
    · exact absurd (isOnChainSet_iff.mpr htrusted) hnot
    · refine .bind (retargetter_passes hretargetter) fun r hr => ?_
      obtain ⟨data, rfl, hall⟩ := hr
      exact .pure ⟨_, rollUp_ok.mpr ⟨rfl, hall _ hcheck⟩⟩
    · refine .bind (fetchA1OnChain_passes hrange hlookback hbudget hborn hcode hdeployment)
        fun r hr => ?_
      obtain ⟨data, rfl, hall⟩ := hr
      dsimp only
      rw [show writeCache call.body call.deps data = pure () by simp [writeCache, hcache],
        pure_bind]
      exact .pure ⟨_, rollUp_ok.mpr ⟨rfl, hall _ hcheck⟩⟩

/-- A request that takes one of the routes is accepted by every run whose reads are answered. -/
theorem runA1_complete (chains : ℕ → Chain) (call : A1Call) (start width : ℤ)
    (hcache : call.deps.cache = false) (hrange : 0 < call.deps.policy.eventScanBlockRange)
    (hlookback : 0 < call.deps.policy.eventScanMaxLookbackBlocks)
    (hbudget : ∀ budget, call.deps.policy.eventScanDeadlineMs = some budget →
      0 ≤ budget ∧ width ≤ budget)
    (hborn : (chains call.body.chainId).DeployedFirst call.body.requestContract
      ((factoryChecks call.deps.policy call.body.chainId).map FactoryCheck.factory))
    (hcode : CodeFromDeployment (chains call.body.chainId)
      ((factoryChecks call.deps.policy call.body.chainId).map FactoryCheck.factory))
    (hdeadline : (call.body.deadline : ℤ) ≤
      call.ctx.nowUnixSeconds + call.deps.policy.maxDeadlineSecondsAhead)
    (hroute : TrustedRoute call.deps.policy call.body ∨
      RetargetterRoute (chains call.body.chainId) call.ctx.nowUnixSeconds call.deps.policy
        call.body ∨
      DeploymentRoute (chains call.body.chainId) call.deps.policy call.body)
    (tr : List SigningEvent) (r : CheckResult) (hrun : Executes call.run tr r)
    (hreads : ∀ e ∈ tr, ReadsAnswered chains start width e) : ∃ checks, r = .ok checks := by
  rw [← call.chain] at hborn hcode hroute
  refine (runA1_accepts hcache hrange hlookback hbudget ?_ ?_ hdeadline hroute).executes hrun hreads
  · rwa [← call.chain]
  · rwa [← call.chain]

theorem serve_readsAnswered (chains : ℕ → Chain) (op : Op) :
    ReadsAnswered chains 0 0 ⟨op, serve chains op⟩ := by
  refine ⟨serve_answers chains op, ?_, ?_⟩
  · cases op with
    | ownerAndProvenance c rc checks =>
      refine ⟨_, _, rfl, fun a ha => ?_, fun s hs b hb => ?_⟩
      · rw [ha]
        rfl
      · obtain ⟨i, hi, rfl⟩ := List.mem_iff_getElem.mp hs
        simp only [List.Vector.toList_mk, List.getElem_zip, List.getElem_map] at hb ⊢
        rw [hb]
        rfl
    | operation c r =>
      intro operation h
      simp only [serve, h]
    | getBlockNumber c => rfl
    | _ => trivial
  · cases op with
    | getLogs c addresses fromBlock toBlock => exact ⟨_, rfl⟩
    | signalAborted => rfl
    | dateNow => exact ⟨le_rfl, le_rfl⟩
    | _ => trivial

namespace Sample

def roleLogsOf (chain : Chain) (lo : ℤ) : List Log :=
  chain.logs.filter fun l => decide (lo ≤ l.blockNumber ∧ l.eventName = .rolesUpdated ∧
    toLowerCase l.address = "0xreq")

theorem holdsSince_iff (chain : Chain) (lo : ℤ) (mask : ℕ) (u : Address) :
    chain.HoldsSince "0xreq" lo mask u ↔
      u ∈ holdersOf (replayRoleState (roleLogsOf chain lo)) mask :=
  (mem_holdersOf_iff fun u r => replayRoleState_get? fun l => by
    rw [roleLogsOf, List.mem_filter, decide_eq_true_eq]
    rfl).symm

def variant (budget : Option ℤ) (disposition : Option LookbackExhausted) : A1Call where
  ctx := ctx
  body := body
  deps := ⟨{ policy with eventScanDeadlineMs := budget, onLookbackExhausted := disposition },
    false, none⟩
  chain := sameChain

def hurried : A1Call := variant (some 0) none

theorem variant_deployment {chain : Chain} {budget : Option ℤ}
    {disposition : Option LookbackExhausted} (howner : chain.owner "0xreq" = some "0xOWN")
    (hprovenance : chain.provenance ⟨"0xfac", "isRequest"⟩ "0xreq" = some true)
    (hdeployed : chain.Deployed "0xfac" "0xreq"
      (windowStart chain (variant budget disposition).deps.policy))
    (hpullers : holdersOf (replayRoleState (roleLogsOf chain 0)) ROLE_PULLER = ["0xpull"])
    (hconsumers : holdersOf (replayRoleState (roleLogsOf chain 0)) ROLE_CONSUMER = ["0xcons"]) :
    DeploymentRoute chain (variant budget disposition).deps.policy body := by
  have hbody : toLowerCase body.requestContract = "0xreq" := by decide
  have hrecognised : Recognised chain (variant budget disposition).deps.policy body "0xfac" :=
    ⟨⟨"0xfac", "isRequest"⟩, .head _, rfl, by rwa [hbody]⟩
  refine ⟨⟨"0xOWN", by rwa [hbody], rfl, rfl⟩, ⟨_, hrecognised⟩,
    .inl ⟨⟨_, hrecognised, hdeployed⟩, ?_⟩⟩
  intro f _ _ rule hrule
  have hrules : rule = (ROLE_PULLER, ["0xpull"]) ∨ rule = (ROLE_CONSUMER, ["0xcons"]) := by
    simpa [roleRules, memLower, AddressSets.on, variant, policy] using hrule
  have hholders : ∀ mask u, chain.Holds body.requestContract mask u ↔
      u ∈ holdersOf (replayRoleState (roleLogsOf chain 0)) mask := holdsSince_iff chain 0
  simp only [hholders]
  rcases hrules with rfl | rfl
  · rw [hpullers]
    exact ⟨⟨"0xpull", by decide⟩, by decide⟩
  · rw [hconsumers]
    exact ⟨⟨"0xcons", by decide⟩, by decide⟩

theorem hurried_deployment : DeploymentRoute chain hurried.deps.policy body :=
  variant_deployment rfl rfl
    ⟨_, .tail _ (.tail _ (.head _)), by decide, by decide, by decide, by decide⟩ (by decide)
    (by decide)

end Sample

theorem runA1_complete_hurried : ∃ checks,
    Sample.hurried.run.eval (serve fun _ => Sample.chain) = .ok checks := by
  refine runA1_complete (fun _ => Sample.chain) Sample.hurried 0 0 rfl (by decide) (by decide)
    (fun budget h => ?_) Sample.deployedFirst (fun rc n h => absurd rfl h) (by decide)
    (.inr (.inr Sample.hurried_deployment)) _ _ (Program.executes_trace _ _) fun e he => ?_
  · rw [← Option.some.inj h]
    exact ⟨le_rfl, le_rfl⟩
  · rw [show e = ⟨e.op, e.answer⟩ from rfl, Program.trace_answered _ _ e he]
    exact serve_readsAnswered _ _

namespace Sample

def early : Chain where
  head := 100
  logs := [roleLog 10 0 "0xPULL" 1, roleLog 10 1 "0xCONS" 2,
    ⟨"0xFAC", .requestCreated, 90, 0, none, none, some "0xreq", none⟩]
  owner := fun _ => some "0xOWN"
  provenance := fun _ _ => some true
  operation := fun _ => none
  code := fun _ _ => none
  logs_le_head := by decide
  logs_positioned := by decide

def coded : Chain := { chain with code := fun _ _ => some "0x60" }

def hurriedTrace : List SigningEvent :=
  let answer := serve fun _ => chain
  let ask (op : Op) : SigningEvent := ⟨op, answer op⟩
  [ask (.ownerAndProvenance 1 "0xreq" [⟨"0xfac", "isRequest"⟩]), ask (.getBlockNumber 1),
    ask .dateNow, ask (.getLogs 1 ["0xfac", "0xreq"] 94 100), ⟨.dateNow, (1 : ℤ)⟩]

theorem hurried_runs : Executes hurried.run hurriedTrace
    (.error (upstream "role-events scan failed upstream")) := by
  refine .step _ (.step _ (.step _ (.step _ (.step _ ?_))))
  exact .refl _

theorem hurriedTrace_answered :
    ∀ e ∈ hurriedTrace, ReadsAnswered (fun _ => chain) 0 1 e := by
  have hserved : ∀ op, ReadsAnswered (fun _ => chain) 0 1 ⟨op, serve (fun _ => chain) op⟩ := by
    intro op
    obtain ⟨hanswers, hanswered, hundisturbed⟩ := serve_readsAnswered (fun _ => chain) op
    refine ⟨hanswers, hanswered, ?_⟩
    cases op with
    | dateNow => exact ⟨le_rfl, by decide⟩
    | _ => exact hundisturbed
  intro e he
  simp only [hurriedTrace, List.mem_cons, List.not_mem_nil, or_false] at he
  rcases he with rfl | rfl | rfl | rfl | rfl
  · exact hserved _
  · exact hserved _
  · exact hserved _
  · exact hserved _
  · exact ⟨trivial, trivial, by decide, by decide⟩

end Sample

/-- Good requests that are not accepted: the scan runs out of its budget; the roles or the code
of the contract are older than its deployment event. -/
theorem good_request_refused :
    (DeploymentRoute Sample.chain Sample.hurried.deps.policy Sample.body ∧
      Executes Sample.hurried.run Sample.hurriedTrace
        (.error (upstream "role-events scan failed upstream")) ∧
      ∀ e ∈ Sample.hurriedTrace, ReadsAnswered (fun _ => Sample.chain) 0 1 e) ∧
    (DeploymentRoute Sample.early (Sample.variant none none).deps.policy Sample.body ∧
      decision ((Sample.variant none none).run.eval (serve fun _ => Sample.early)) = .rejected) ∧
    (DeploymentRoute Sample.coded (Sample.variant none (some .fail)).deps.policy Sample.body ∧
      decision ((Sample.variant none (some .fail)).run.eval (serve fun _ => Sample.coded)) =
        .rejected) := by
  refine ⟨⟨Sample.hurried_deployment, Sample.hurried_runs, Sample.hurriedTrace_answered⟩,
    ⟨Sample.variant_deployment rfl rfl ?_ ?_ ?_, rfl⟩,
    ⟨Sample.variant_deployment rfl rfl ?_ ?_ ?_, rfl⟩⟩
  · exact ⟨_, .tail _ (.tail _ (.head _)), by decide, by decide, by decide, by decide⟩
  · decide
  · decide
  · exact ⟨_, .tail _ (.tail _ (.head _)), by decide, by decide, by decide, by decide⟩
  · decide
  · decide

end Guardian
