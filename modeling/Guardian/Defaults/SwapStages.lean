import Guardian.Defaults.RespelledSwap
import Guardian.Defaults.SwapSymmetric

/-!
# What the first stage of a swap decides

The slots of the two legs, in any number and mixture, against the three ways stage 1
can end: an upstream error, a rejection, or the one leg whose views are read next.
-/

namespace Guardian
open Effect Text Program

def Hit (slots : List (Slot Bool)) : Prop := .success true ∈ slots

instance (slots : List (Slot Bool)) : Decidable (Hit slots) :=
  inferInstanceAs (Decidable (.success true ∈ slots))

def FailedDeterministically (slots : List (Slot Bool)) : Prop :=
  ∃ e, .failure e ∈ slots ∧ isDeterministicContractCallFailure e ["isPositionManager"] = true

def FailedOtherwise (slots : List (Slot Bool)) : Prop :=
  ∃ e, .failure e ∈ slots ∧ isDeterministicContractCallFailure e ["isPositionManager"] = false

def Inconclusive (slots : List (Slot Bool)) : Prop :=
  FailedOtherwise slots ∨ (¬Hit slots ∧ FailedDeterministically slots)

section Decision
variable {slots as bs : List (Slot Bool)}

theorem hits_iff : hits slots = true ↔ Hit slots := by
  rw [hits, List.any_eq_true]
  constructor
  · intro h
    obtain ⟨slot, hmem, hslot⟩ := h
    match slot, hslot with
    | .success true, _ => exact hmem
  · intro h
    exact ⟨_, h, rfl⟩

theorem hit_append : Hit (as ++ bs) ↔ Hit as ∨ Hit bs := List.mem_append

theorem any_isOpen : slots.any isOpen = true ↔ FailedOtherwise slots := by
  rw [List.any_eq_true]
  constructor
  · intro h
    obtain ⟨slot, hmem, hslot⟩ := h
    match slot, hslot with
    | .failure e, hslot => exact ⟨e, hmem, by simpa [isOpen] using hslot⟩
  · intro h
    obtain ⟨e, hmem, he⟩ := h
    exact ⟨_, hmem, by simp [isOpen, he]⟩

theorem any_isFailure (hclosed : ¬FailedOtherwise slots) :
    slots.any isFailure = true ↔ FailedDeterministically slots := by
  rw [List.any_eq_true]
  constructor
  · intro h
    obtain ⟨slot, hmem, hslot⟩ := h
    match slot, hslot with
    | .failure e, _ =>
      refine ⟨e, hmem, ?_⟩
      by_contra hother
      exact hclosed ⟨e, hmem, Bool.eq_false_iff.mpr hother⟩
  · intro h
    obtain ⟨e, hmem, _⟩ := h
    exact ⟨_, hmem, rfl⟩

theorem deterministicFailures_none (h : FailedOtherwise slots) :
    deterministicFailures slots = none := by
  have hpos := deterministicFailures_pos slots
  rw [if_pos (any_isOpen.mpr h)] at hpos
  exact Option.map_eq_none_iff.mp hpos

theorem deterministicFailures_some (h : ¬FailedOtherwise slots) :
    ∃ failures, deterministicFailures slots = some failures ∧
      (failures > 0 ↔ FailedDeterministically slots) := by
  have hpos := deterministicFailures_pos slots
  rw [if_neg fun hopen => h (any_isOpen.mp hopen)] at hpos
  obtain ⟨failures, hfailures, hcount⟩ := Option.map_eq_some_iff.mp hpos
  refine ⟨failures, hfailures, ?_⟩
  rw [← any_isFailure h, ← hcount, decide_eq_true_iff]

/-- What each decision says about the slots; the four exclude one another. -/
def PmLeg.Describes (as bs : List (Slot Bool)) : PmLeg → Prop
  | .upstreamFailed => Inconclusive (as ++ bs)
  | .rejected _ => ¬Inconclusive (as ++ bs) ∧ (Hit as ↔ Hit bs)
  | .legA => ¬Inconclusive (as ++ bs) ∧ Hit as ∧ ¬Hit bs
  | .legB => ¬Inconclusive (as ++ bs) ∧ ¬Hit as ∧ Hit bs

theorem resolvePmLeg_describes (as bs : List (Slot Bool)) :
    (resolvePmLeg as.length (as ++ bs)).Describes as bs := by
  unfold resolvePmLeg
  rw [List.take_left, List.drop_left]
  by_cases hopen : FailedOtherwise (as ++ bs)
  · rw [deterministicFailures_none hopen]
    exact .inl hopen
  · obtain ⟨failures, hfailures, hpos⟩ := deterministicFailures_some hopen
    rw [hfailures]
    have hinconclusive : Inconclusive (as ++ bs) ↔ ¬(Hit as ∨ Hit bs) ∧ failures > 0 := by
      rw [Inconclusive, hit_append, hpos]
      exact or_iff_right hopen
    have ha := @hits_iff as
    have hb := @hits_iff bs
    dsimp only
    cases hhitA : hits as <;> cases hhitB : hits bs <;>
      simp only [hhitA, hhitB, Bool.false_eq_true, false_iff, true_iff] at ha hb
    · rw [if_pos rfl]
      by_cases hsome : failures > 0
      · rw [if_pos (by simp [hsome])]
        exact hinconclusive.mpr ⟨by simp [ha, hb], hsome⟩
      · rw [if_neg (by simp [hsome]), if_neg (by simp)]
        exact ⟨fun h => hsome (hinconclusive.mp h).2, iff_of_false ha hb⟩
    · rw [if_neg (by simp), if_neg (by simp)]
      exact ⟨fun h => (hinconclusive.mp h).1 (.inr hb), ha, hb⟩
    · rw [if_neg (by simp), if_pos rfl]
      exact ⟨fun h => (hinconclusive.mp h).1 (.inl ha), ha, hb⟩
    · rw [if_pos rfl, if_neg (by simp), if_pos rfl]
      exact ⟨fun h => (hinconclusive.mp h).1 (.inl ha), iff_of_true ha hb⟩

end Decision

section Stages
variable (policy : IntentSwapPolicy) (ctx : SigningContext) (body : IntentSwapBody)

def swapDeadlineEntry : CheckEntry :=
  checkDeadline ctx.nowUnixSeconds body.deadline policy.maxDeadlineSecondsAhead

/-- The views of one leg's asset are read, and the other leg is the debt leg. -/
def ReadsViews (pmLeg debtLeg : SwapLeg) (tail : List SigningEvent)
    (r : Settled (List CheckEntry)) : Prop :=
  ∃ answer : Except RpcError PositionManagerReads,
    tail = [⟨.positionManagerReads ctx.chainId pmLeg.asset, answer⟩] ∧
      r = match answer with
        | .error _ => .error (.err (upstream "position-manager read failed upstream"))
        | .ok reads => evaluatePositionManager policy body.chainId pmLeg debtLeg reads
          (swapDeadlineEntry policy ctx body)

/-- The end of a run whose multicall answered with these slots. -/
structure StageOne (legA legB : SwapLeg) (as bs : List (Slot Bool)) (tail : List SigningEvent)
    (r : Settled (List CheckEntry)) : Prop where
  upstream : tail = [] ∧ r.resultClass = .upstreamUnavailable ↔ Inconclusive (as ++ bs)
  rejected : tail = [] ∧ r.resultClass = .validationFailed ↔
    ¬Inconclusive (as ++ bs) ∧ (Hit as ↔ Hit bs)
  viewsA : ¬Inconclusive (as ++ bs) → Hit as → ¬Hit bs → ReadsViews policy ctx body legA legB tail r
  viewsB : ¬Inconclusive (as ++ bs) → ¬Hit as → Hit bs → ReadsViews policy ctx body legB legA tail r

variable {policy ctx body} {legA legB : SwapLeg} {tail : List SigningEvent}
  {r : Settled (List CheckEntry)}

theorem executes_checkPmLeg {pmLeg debtLeg : SwapLeg}
    (h : Executes (checkPmLeg policy ctx body.chainId (swapDeadlineEntry policy ctx body)
      pmLeg debtLeg) tail r) : ReadsViews policy ctx body pmLeg debtLeg tail r := by
  obtain ⟨answer, tail', rfl, hrest⟩ := executes_perform.mp h
  refine ⟨answer, ?_⟩
  match answer, hrest with
  | .error e, hrest =>
    obtain ⟨rfl, hr⟩ := runs_done.mp hrest
    cases hr
    exact ⟨rfl, rfl⟩
  | .ok reads, hrest =>
    obtain ⟨rfl, hr⟩ := runs_done.mp hrest
    cases hr
    exact ⟨rfl, rfl⟩

theorem pmLegFailed_class {reason : String} {deadlineCheck : CheckEntry} :
    (Settled.ofResult (pmLegFailed reason deadlineCheck)).resultClass = .validationFailed := by
  rw [pmLegFailed, rollupA3, rollUp_class, if_neg]
  simp

theorem ReadsViews.not_nil {pmLeg debtLeg : SwapLeg}
    (h : ReadsViews policy ctx body pmLeg debtLeg tail r) : tail ≠ [] := by
  obtain ⟨answer, rfl, _⟩ := h
  exact List.cons_ne_nil _ _

def decided (policy : IntentSwapPolicy) (ctx : SigningContext) (body : IntentSwapBody)
    (legA legB : SwapLeg) : PmLeg → Signing (Settled (List CheckEntry))
  | .upstreamFailed => return pmFactoryReadFailed
  | .rejected reason =>
    return .ofResult (pmLegFailed reason (swapDeadlineEntry policy ctx body))
  | .legA => checkPmLeg policy ctx body.chainId (swapDeadlineEntry policy ctx body) legA legB
  | .legB => checkPmLeg policy ctx body.chainId (swapDeadlineEntry policy ctx body) legB legA

theorem stageOne_of_describes {as bs : List (Slot Bool)} {decision : PmLeg}
    (hdescribes : decision.Describes as bs)
    (h : Executes (decided policy ctx body legA legB decision) tail r) :
    StageOne policy ctx body legA legB as bs tail r := by
  cases decision with
  | upstreamFailed =>
    obtain ⟨rfl, hr⟩ := runs_done.mp h
    cases hr
    have hopen : Inconclusive (as ++ bs) := hdescribes
    exact ⟨iff_of_true ⟨rfl, rfl⟩ hopen, iff_of_false (fun h => by cases h.2) fun h => h.1 hopen,
      fun h => absurd hopen h, fun h => absurd hopen h⟩
  | rejected reason =>
    obtain ⟨rfl, hr⟩ := runs_done.mp h
    cases hr
    obtain ⟨hclosed, hhits⟩ := hdescribes
    refine ⟨iff_of_false (fun h => ?_) hclosed, iff_of_true ⟨rfl, pmLegFailed_class⟩
      ⟨hclosed, hhits⟩, fun _ ha hb => absurd (hhits.mp ha) hb,
      fun _ ha hb => absurd (hhits.mpr hb) ha⟩
    rw [pmLegFailed_class] at h
    cases h.2
  | legA =>
    obtain ⟨hclosed, ha, hb⟩ := hdescribes
    have hviews := executes_checkPmLeg h
    exact ⟨iff_of_false (fun h => hviews.not_nil h.1) hclosed,
      iff_of_false (fun h => hviews.not_nil h.1) fun h => hb (h.2.mp ha), fun _ _ _ => hviews,
      fun _ hnot _ => absurd ha hnot⟩
  | legB =>
    obtain ⟨hclosed, ha, hb⟩ := hdescribes
    have hviews := executes_checkPmLeg h
    exact ⟨iff_of_false (fun h => hviews.not_nil h.1) hclosed,
      iff_of_false (fun h => hviews.not_nil h.1) fun h => ha (h.2.mpr hb),
      fun _ hhit _ => absurd hhit ha, fun _ _ _ => hviews⟩

theorem executes_resolveLegs {factories : List Address}
    (hfactories : policy.acceptedPmFactories.on body.chainId = factories)
    {tr : List SigningEvent}
    (h : Executes (resolveLegs policy ctx body (swapDeadlineEntry policy ctx body) legA legB)
      tr r) :
    ∃ (answer : Except RpcError (List.Vector (Slot Bool) (pmCalls factories legA legB).length))
      (tail : List SigningEvent),
      tr = ⟨.isPositionManager ctx.chainId (pmCalls factories legA legB), answer⟩ :: tail ∧
      (∀ e, answer = .error e → tail = [] ∧ r.resultClass = .upstreamUnavailable) ∧
      ∀ slots, answer = .ok slots → StageOne policy ctx body legA legB
        (slots.toList.take factories.length) (slots.toList.drop factories.length) tail r := by
  subst hfactories
  obtain ⟨answer, tail, rfl, hrest⟩ := executes_perform.mp h
  refine ⟨answer, tail, rfl, fun e he => ?_, fun slots hslots => ?_⟩
  · subst he
    obtain ⟨rfl, hr⟩ := runs_done.mp hrest
    cases hr
    exact ⟨rfl, rfl⟩
  · subst hslots
    have hdescribes := resolvePmLeg_describes
      (slots.toList.take (policy.acceptedPmFactories.on body.chainId).length)
      (slots.toList.drop (policy.acceptedPmFactories.on body.chainId).length)
    have hlength : (slots.toList.take (policy.acceptedPmFactories.on body.chainId).length).length =
        (policy.acceptedPmFactories.on body.chainId).length := by
      rw [List.length_take, List.Vector.toList_length, pmCalls, List.length_append,
        List.length_map, List.length_map]
      omega
    rw [List.take_append_drop, hlength] at hdescribes
    have hdecided : Executes (decided policy ctx body legA legB (resolvePmLeg
        (policy.acceptedPmFactories.on body.chainId).length slots.toList)) tail r := by
      rw [bind_done] at hrest
      dsimp only at hrest
      generalize resolvePmLeg _ slots.toList = decision at hrest ⊢
      cases decision <;> exact hrest
    exact stageOne_of_describes hdescribes hdecided

end Stages

/-- Stage 1 for every vector of slots, and its independence of how the factories are listed. -/
theorem swap_stage_one (policy : IntentSwapPolicy) (runner : CheckRunner IntentSwapBody)
    (hrunner : buildIntentSwapChecks policy = .ok runner) (ctx : SigningContext)
    (body : IntentSwapBody) (legA legB : SwapLeg) (hlegs : body.legs = [legA, legB])
    (factories : List Address) (hfactories : policy.acceptedPmFactories.on body.chainId = factories)
    (hnonempty : factories ≠ []) :
    (∀ tr r, Executes (runner ctx body) tr r →
      ∃ (answer : Except RpcError (List.Vector (Slot Bool) (pmCalls factories legA legB).length))
        (tail : List SigningEvent),
        tr = ⟨.isPositionManager ctx.chainId (pmCalls factories legA legB), answer⟩ :: tail ∧
        (∀ e, answer = .error e → tail = [] ∧ r.resultClass = .upstreamUnavailable) ∧
        ∀ slots, answer = .ok slots → StageOne policy ctx body legA legB
          (slots.toList.take factories.length) (slots.toList.drop factories.length) tail r) ∧
    ∀ (client : SwapClient) (sets : AddressSets) (runner' : CheckRunner IntentSwapBody),
      (∀ factory, factory ∈ sets.on body.chainId ↔ factory ∈ factories) →
      buildIntentSwapChecks { policy with acceptedPmFactories := sets } = .ok runner' →
        (runner' ctx body).eval client.rpc = (runner ctx body).eval client.rpc := by
  have hrunA3 : ∀ {p : IntentSwapPolicy} {run : CheckRunner IntentSwapBody},
      buildIntentSwapChecks p = .ok run → run = runA3 p := by
    intro p run h
    unfold buildIntentSwapChecks at h
    split at h
    · cases h
    · exact (Except.ok.inj h).symm
  obtain rfl := hrunA3 hrunner
  have hresolve : ∀ p : IntentSwapPolicy, p.acceptedPmFactories.on body.chainId ≠ [] →
      runA3 p ctx body = resolveLegs p ctx body (swapDeadlineEntry p ctx body) legA legB := by
    intro p hne
    rw [runA3_legs p ctx body legA legB hlegs, if_neg hne]
    rfl
  refine ⟨fun tr r hrun => ?_, fun client sets runner' hsame hrunner' => ?_⟩
  · rw [hresolve policy (hfactories ▸ hnonempty)] at hrun
    exact executes_resolveLegs hfactories hrun
  · obtain rfl := hrunA3 hrunner'
    have hmembers : SameMembers (sets.on body.chainId) factories := hsame
    have hne : sets.on body.chainId ≠ [] := fun h => hnonempty (hmembers.eq_nil.mp h)
    have hdecision := resolvePmLeg_same
      (hmembers.map fun f => client.isPositionManager ctx.chainId f legA.asset)
      (hmembers.map fun f => client.isPositionManager ctx.chainId f legB.asset)
    simp only [List.length_map] at hdecision
    rw [hresolve policy (hfactories ▸ hnonempty), hresolve _ hne, resolveLegs_eval,
      resolveLegs_eval]
    dsimp only [SwapClient.slots]
    rw [hfactories, hdecision]
    generalize resolvePmLeg factories.length _ = decision
    cases decision <;> rfl

namespace Sample

def repeatedPolicy : IntentSwapPolicy :=
  { swapPolicy with acceptedPmFactories := fun _ => some ["0xfactory", "0xfactory"] }

end Sample

/-- The share token's views are read, and listing its factory twice changes nothing. -/
theorem swap_stage_one_repeated :
    (∃ tr r answer tail, Executes (runA3 Sample.swapPolicy Sample.signCtx Sample.swapBody) tr r ∧
      tr = ⟨.isPositionManager 1 [("0xfactory", Sample.shareToken),
        ("0xfactory", Sample.debtToken)], answer⟩ :: tail ∧
      ∃ reads, tail = [⟨.positionManagerReads 1 Sample.shareToken, reads⟩]) ∧
    (runA3 Sample.repeatedPolicy Sample.signCtx Sample.swapBody).eval Sample.swapClient.rpc =
      (runA3 Sample.swapPolicy Sample.signCtx Sample.swapBody).eval Sample.swapClient.rpc := by
  have hstage := swap_stage_one Sample.swapPolicy _ rfl Sample.signCtx Sample.swapBody
    ⟨⟨"9"⟩, Sample.shareToken, "10"⟩ ⟨⟨"5"⟩, Sample.debtToken, "20"⟩ rfl ["0xfactory"] rfl
    (List.cons_ne_nil _ _)
  refine ⟨?_, hstage.2 Sample.swapClient _ _ (fun factory => by simp [AddressSets.on]) rfl⟩
  have hrun := executes_trace Sample.swapClient.rpc
    (runA3 Sample.swapPolicy Sample.signCtx Sample.swapBody)
  obtain ⟨answer, tail, htrace, _, hslots⟩ := hstage.1 _ _ hrun
  have hanswered := trace_answered Sample.swapClient.rpc
    (runA3 Sample.swapPolicy Sample.signCtx Sample.swapBody)
  rw [htrace] at hanswered
  have hanswer := hanswered _ (.head _)
  have hviews := (hslots _ hanswer).viewsA
  refine ⟨_, _, answer, tail, hrun, htrace, ?_⟩
  rw [List.take_append_drop] at hviews
  have hclosed : ¬Inconclusive [.success true, .success false] := by
    simp [Inconclusive, FailedOtherwise, FailedDeterministically]
  obtain ⟨reads, htail, _⟩ := hviews hclosed (by decide +kernel) (by decide +kernel)
  exact ⟨reads, htail⟩

end Guardian
