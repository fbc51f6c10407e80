import Guardian.Defaults.BatchConjunction
import Guardian.Defaults.FundPrecedence
import Guardian.Defaults.IntentRequestBindingSound
import Guardian.Defaults.Reported
import Guardian.Defaults.SwapPrice
import Guardian.Defaults.SwapStages

/-!
# What accepted checks entitle to

One view of each chain answers for every read of the four runners. What a runner's
acceptance says about that view is stated kind by kind, without the runner's entries:
the policy, the chain and the body are all that is left.
-/

namespace Guardian
open Effect Text Tolerance Program

/-- What the contracts of a chain answer, by lower-cased address. -/
structure ChainViews extends Chain where
  fundReads : Address → Address → ℤ → Option FundReads
  isPositionManager : Address → Address → Option Bool
  positionManagerReads : Address → Option PositionManagerReads
  nonceReads : Address → Address → ℤ → Option (ℕ × Bool)

/-- A slot that did not fail shows the view, and only a contract without one reverts. -/
def ShowsView {α : Type} (functionNames : List String) (view : Option α) : Slot α → Prop
  | .success a => view = some a
  | .failure e => isDeterministicContractCallFailure e functionNames = true → view = none

def AnswersViews (views : ℕ → ChainViews) : SigningEvent → Prop
  | ⟨.fundReads c fund facility id, answer⟩ =>
    ∀ reads, answer = .ok reads →
      (views c).fundReads (toLowerCase fund) (toLowerCase facility) id = some reads
  | ⟨.isPositionManager c calls, answer⟩ =>
    ∀ slots, answer = .ok slots → ∀ s ∈ calls.zip slots.toList,
      ShowsView ["isPositionManager"]
        ((views c).isPositionManager (toLowerCase s.1.1) (toLowerCase s.1.2)) s.2
  | ⟨.positionManagerReads c positionManager, answer⟩ =>
    ∀ reads, answer = .ok reads →
      (views c).positionManagerReads (toLowerCase positionManager) = some reads
  | ⟨.nonceReads c book guardianSigner nonce, answer⟩ =>
    ∀ reads, answer = .ok reads →
      (views c).nonceReads (toLowerCase book) (toLowerCase guardianSigner) nonce = some reads
  | e => Answers (fun c => (views c).toChain) e

theorem AnswersViews.answers {views : ℕ → ChainViews} {e : SigningEvent}
    (h : AnswersViews views e) : Answers (fun c => (views c).toChain) e := by
  obtain ⟨op, answer⟩ := e
  cases op with
  | fundReads _ _ _ _ => trivial
  | isPositionManager _ _ => trivial
  | positionManagerReads _ _ => trivial
  | nonceReads _ _ _ _ => trivial
  | _ => exact h

structure RequestEntitled (view : ChainViews) (policy : IntentRequestBindingPolicy)
    (ctx : SigningContext) (body : A1Request) : Prop where
  deadline : (body.deadline : ℤ) ≤ ctx.nowUnixSeconds + policy.maxDeadlineSecondsAhead
  route : TrustedRoute policy body ∨
    RetargetterRoute view.toChain ctx.nowUnixSeconds policy body ∨
    ClassicRoute view.toChain policy body

structure FundEntitled (view : ChainViews) (policy : IntentFundBindingPolicy)
    (ctx : SigningContext) (body : IntentFundBindingBody) : Prop where
  deadline : FundDeadlineMet policy ctx body
  fund : FundAccepted policy body
  reads : ∃ reads, view.fundReads (toLowerCase body.fundContract) (toLowerCase body.facility)
      (decimalValue body.intent.id.toList) = some reads ∧
    FundOwnerAccepted policy body reads ∧ PositionManagerFlagged body reads ∧
    reads.currentFund = ZERO_ADDRESS

def PmRecognised (view : ChainViews) (policy : IntentSwapPolicy) (body : IntentSwapBody)
    (leg : SwapLeg) : Prop :=
  ∃ factory ∈ policy.acceptedPmFactories.on body.chainId,
    view.isPositionManager (toLowerCase factory) (toLowerCase leg.asset) = some true

/-- One leg is a share token, the other its debt asset at the price of the view. -/
structure SwapEntitled (view : ChainViews) (policy : IntentSwapPolicy) (ctx : SigningContext)
    (body : IntentSwapBody) (pmLeg debtLeg : SwapLeg) : Prop where
  legs : body.legs = [pmLeg, debtLeg] ∨ body.legs = [debtLeg, pmLeg]
  deadline : (body.deadline : ℤ) ≤ ctx.nowUnixSeconds + policy.maxDeadlineSecondsAhead
  recognised : PmRecognised view policy body pmLeg
  unrecognised : ¬PmRecognised view policy body debtLeg
  priced : ∃ reads, view.positionManagerReads (toLowerCase pmLeg.asset) = some reads ∧
    (∃ owner ∈ policy.acceptedPmOwners.on body.chainId,
      toLowerCase owner = toLowerCase reads.owner) ∧
    toLowerCase debtLeg.asset = toLowerCase reads.debtAsset ∧ 0 < priceDenominator reads ∧
    Within 10000 policy.swapPriceToleranceBps debtLeg.amountValue
      ⌊exactDebt pmLeg.amountValue reads⌋

structure WhitelistingEntitled (view : ChainViews) (deps : RequestWhitelistingDeps)
    (ctx : SigningContext) (body : RequestWhitelistingBody) : Prop where
  batch : (body.requestContracts.length : ℤ) ≤
    deps.policy.maxRequestContracts.getD DEFAULT_MAX_REQUEST_CONTRACTS
  book : ∀ books, deps.policy.acceptedWhitelistBooks = some books →
    ∃ book ∈ books.on body.chainId, toLowerCase book = toLowerCase body.whitelistBook
  deadline : (body.deadline : ℤ) ≤ ctx.nowUnixSeconds + deps.policy.maxDeadlineSecondsAhead
  nonce : ∃ floor, view.nonceReads (toLowerCase body.whitelistBook)
      (toLowerCase deps.guardianSigner) (decimalValue body.nonce.toList) = some (floor, false) ∧
    floor ≤ decimalValue body.nonce.toList ∧
    (decimalValue body.nonce.toList : ℤ) ≤ floor + deps.policy.maxNonceAboveFloor
  contracts : body.operation = .whitelist → ∀ contract ∈ body.requestContracts,
    RequestEntitled view deps.policy.toIntentRequestBindingPolicy ctx
      ⟨body.chainId, contract, body.deadline⟩

/-- Every role update of a contract comes after its deployment by an accepted factory. -/
def BornFirst (view : ChainViews) (policy : IntentRequestBindingPolicy) (chainId : ℕ)
    (contract : Address) : Prop :=
  view.toChain.DeployedFirst contract ((factoryChecks policy chainId).map FactoryCheck.factory)

theorem ofResult_eq_ok {α : Type} {r : Except SigningError α} {a : α} :
    Settled.ofResult r = .ok a ↔ r = .ok a := by
  cases r <;> simp [Settled.ofResult]

section Runners
variable {views : ℕ → ChainViews} {ctx : SigningContext}

theorem runA1_entitled {body : A1Request} {deps : A1Deps} (hchain : ctx.chainId = body.chainId)
    (hcache : deps.cache = false)
    (hborn : BornFirst (views body.chainId) deps.policy body.chainId body.requestContract) :
    (runA1 ctx body deps).Ensures (AnswersViews views) fun r => ∀ checks, r = .ok checks →
      RequestEntitled (views body.chainId) deps.policy ctx body := by
  have hborn' : (views ctx.chainId).toChain.DeployedFirst body.requestContract
      ((factoryChecks deps.policy body.chainId).map FactoryCheck.factory) := by
    rw [hchain]
    exact hborn
  have hensures := @runA1_ensures (fun c => (views c).toChain) ctx body deps hcache hborn'
  have hviews := hensures.relax fun e he => AnswersViews.answers he
  refine hviews.mono fun _ r hr checks hchecks => ?_
  obtain ⟨hdeadline, hroute⟩ := hr checks hchecks
  rw [hchain] at hroute
  exact ⟨hdeadline, hroute⟩

theorem runA2_entitled {policy : IntentFundBindingPolicy} {body : IntentFundBindingBody}
    (hchain : ctx.chainId = body.chainId) (hid : UINT_DECIMAL_RE body.intent.id = true)
    {tr : List SigningEvent} {checks : List CheckEntry}
    (hrun : Executes (runA2 policy ctx body) tr (.ok checks))
    (hviews : ∀ e ∈ tr, AnswersViews views e) :
    FundEntitled (views body.chainId) policy ctx body := by
  rcases executes_runA2 hid hrun with ⟨hunlisted, _, hr⟩ | ⟨haccepted, answer, htrace, hr⟩
  · have hclass := @fundReadResult_none policy ctx body hunlisted
    rw [← hr] at hclass
    cases hclass
  · have hclass := @fundReadResult_some policy ctx body haccepted answer
    rw [← hr] at hclass
    cases answer with
    | error e =>
      rw [fundReadClass] at hclass
      split at hclass <;> cases hclass
    | ok reads =>
      subst htrace
      have hview := hviews _ (List.mem_singleton_self _)
      have hreads := hview reads rfl
      rw [fundReadClass, boundClass] at hclass
      split at hclass
      · cases hclass
      · rename_i hmet
        split at hclass
        · cases hclass
        · rename_i hunbound
          obtain ⟨hdeadline, howner, hflagged⟩ := not_not.mp hmet
          rw [hchain] at hreads
          exact ⟨hdeadline, haccepted, reads, hreads, howner, hflagged, not_not.mp hunbound⟩

def LegShown (view : ChainViews) (factories : List Address) (leg : SwapLeg)
    (slots : List (Slot Bool)) : Prop :=
  slots.length = factories.length ∧ ∀ s ∈ factories.zip slots, ShowsView ["isPositionManager"]
    (view.isPositionManager (toLowerCase s.1) (toLowerCase leg.asset)) s.2

theorem legsShown {view : ChainViews} {factories : List Address} {legA legB : SwapLeg}
    {slots : List (Slot Bool)} (hlength : slots.length = (pmCalls factories legA legB).length)
    (h : ∀ s ∈ (pmCalls factories legA legB).zip slots, ShowsView ["isPositionManager"]
      (view.isPositionManager (toLowerCase s.1.1) (toLowerCase s.1.2)) s.2) :
    LegShown view factories legA (slots.take factories.length) ∧
      LegShown view factories legB (slots.drop factories.length) := by
  have hlengths : slots.length = factories.length + factories.length := by
    simpa [pmCalls] using hlength
  have hsplit : (pmCalls factories legA legB).zip slots =
      (factories.map fun f => (f, legA.asset)).zip (slots.take factories.length) ++
        (factories.map fun f => (f, legB.asset)).zip (slots.drop factories.length) := by
    rw [pmCalls, ← List.zip_append (by simp [hlengths]), List.take_append_drop]
  rw [hsplit] at h
  refine ⟨⟨by simp [hlengths], fun s hs => ?_⟩, ⟨by simp [hlengths], fun s hs => ?_⟩⟩
  · refine h ((s.1, legA.asset), s.2) (List.mem_append_left _ ?_)
    rw [List.zip_map_left]
    exact List.mem_map.mpr ⟨s, hs, rfl⟩
  · refine h ((s.1, legB.asset), s.2) (List.mem_append_right _ ?_)
    rw [List.zip_map_left]
    exact List.mem_map.mpr ⟨s, hs, rfl⟩

section Legs
variable {view : ChainViews} {policy : IntentSwapPolicy} {body : IntentSwapBody} {leg : SwapLeg}
  {slots : List (Slot Bool)}
  (hshown : LegShown view (policy.acceptedPmFactories.on body.chainId) leg slots)
include hshown

theorem recognised_of_hit (hhit : Hit slots) : PmRecognised view policy body leg := by
  obtain ⟨i, hi, hslot⟩ := List.mem_iff_getElem.mp hhit
  have hfactory : i < (policy.acceptedPmFactories.on body.chainId).length := hshown.1 ▸ hi
  refine ⟨_, List.getElem_mem hfactory, ?_⟩
  refine hshown.2 (_, .success true) (List.mem_iff_getElem.mpr ⟨i, by simp; omega, ?_⟩)
  simp [hslot]

theorem unrecognised_of_not_hit (hhit : ¬Hit slots) (hopen : ¬FailedOtherwise slots) :
    ¬PmRecognised view policy body leg := by
  intro h
  obtain ⟨factory, hfactory, hview⟩ := h
  obtain ⟨i, hi, rfl⟩ := List.mem_iff_getElem.mp hfactory
  have hslot : i < slots.length := hshown.1.symm ▸ hi
  have hmem : ((policy.acceptedPmFactories.on body.chainId)[i], slots[i]) ∈
      (policy.acceptedPmFactories.on body.chainId).zip slots :=
    List.mem_iff_getElem.mpr ⟨i, by simp; omega, by simp⟩
  have hshows := hshown.2 _ hmem
  have hin : slots[i] ∈ slots := List.getElem_mem hslot
  dsimp only at hshows
  cases hcase : slots[i] with
  | success b =>
    rw [hcase] at hshows hin
    obtain rfl : b = true := Option.some.inj (hshows.symm.trans hview)
    exact hhit hin
  | failure e =>
    rw [hcase] at hshows hin
    cases hdet : isDeterministicContractCallFailure e ["isPositionManager"] with
    | true => cases (hshows hdet).symm.trans hview
    | false => exact hopen ⟨e, hin, hdet⟩

end Legs

theorem checkPmLeg_entitled {policy : IntentSwapPolicy} {body : IntentSwapBody}
    {pmLeg debtLeg : SwapLeg} (hchain : ctx.chainId = body.chainId)
    (hbps : 0 ≤ policy.swapPriceToleranceBps) (hpm : pmLeg.Decimal) (hdebt : debtLeg.Decimal)
    (hlegs : body.legs = [pmLeg, debtLeg] ∨ body.legs = [debtLeg, pmLeg])
    (hrecognised : PmRecognised (views body.chainId) policy body pmLeg)
    (hunrecognised : ¬PmRecognised (views body.chainId) policy body debtLeg) :
    (checkPmLeg policy ctx body.chainId (swapDeadlineEntry policy ctx body) pmLeg
      debtLeg).Ensures (AnswersViews views) fun r => ∀ checks, r = .ok checks →
        SwapEntitled (views body.chainId) policy ctx body pmLeg debtLeg := by
  refine .call_bind fun answer hanswer => ?_
  cases answer with
  | error e => exact .pure fun checks h => by cases h
  | ok reads =>
    refine .pure fun checks hchecks => ?_
    have hview := hanswer reads rfl
    rw [hchain] at hview
    unfold evaluatePositionManager at hchecks
    cases hprice : sharePriceEntry pmLeg debtLeg reads policy.swapPriceToleranceBps with
    | error e =>
      rw [hprice] at hchecks
      cases hchecks
    | ok priceCheck =>
      rw [hprice] at hchecks
      dsimp only at hchecks
      have hpassed := (rollUp_ok.mp (ofResult_eq_ok.mp hchecks)).2
      simp only [List.forall_mem_cons, List.not_mem_nil, false_implies, implies_true, and_true]
        at hpassed
      obtain ⟨_, howner, hasset, hpriced, hdeadline⟩ := hpassed
      obtain ⟨bps, hbps⟩ := Int.eq_ofNat_of_zero_le hbps
      rw [hbps, sharePriceEntry_decimal hpm hdebt hasset] at hprice
      obtain rfl := Except.ok.inj hprice
      have hdenom : 0 < priceDenominator reads := by
        refine lt_of_le_of_ne priceDenominator_nonneg fun hzero => ?_
        rw [checkSharePrice_zero hzero.symm] at hpriced
        cases hpriced
      rw [checkMembership_passed] at howner
      refine ⟨hlegs, checkDeadline_passed.mp hdeadline, hrecognised, hunrecognised, reads, hview,
        memLower_iff.mp howner, ?_, hdenom, ?_⟩
      · unfold checkDebtAsset at hasset
        rw [ite_passed, decide_eq_true_iff] at hasset
        exact hasset
      · rw [hbps]
        exact (checkSharePrice_passed hdenom bps).mp hpriced

theorem pmLegFailed_ne_ok {reason : String} {deadlineCheck : CheckEntry}
    {checks : List CheckEntry} :
    Settled.ofResult (pmLegFailed reason deadlineCheck) ≠ .ok checks := by
  intro h
  have hclass := @pmLegFailed_class reason deadlineCheck
  rw [h] at hclass
  cases hclass

section Closed
variable {as bs : List (Slot Bool)} (hclosed : ¬Inconclusive (as ++ bs))
include hclosed

theorem not_failedOtherwise_left : ¬FailedOtherwise as := by
  intro h
  obtain ⟨e, he, hdet⟩ := h
  exact hclosed (.inl ⟨e, List.mem_append_left _ he, hdet⟩)

theorem not_failedOtherwise_right : ¬FailedOtherwise bs := by
  intro h
  obtain ⟨e, he, hdet⟩ := h
  exact hclosed (.inl ⟨e, List.mem_append_right _ he, hdet⟩)

end Closed

theorem runA3_entitled {policy : IntentSwapPolicy} {body : IntentSwapBody} {legA legB : SwapLeg}
    (hchain : ctx.chainId = body.chainId) (hbps : 0 ≤ policy.swapPriceToleranceBps)
    (hlegs : body.legs = [legA, legB]) (ha : legA.Decimal) (hb : legB.Decimal) :
    (runA3 policy ctx body).Ensures (AnswersViews views) fun r => ∀ checks, r = .ok checks →
      ∃ pmLeg debtLeg, SwapEntitled (views body.chainId) policy ctx body pmLeg debtLeg := by
  rw [runA3, hlegs]
  dsimp only
  split
  · exact .pure fun checks h => absurd h pmLegFailed_ne_ok
  · refine .call_bind fun answer hanswer => ?_
    cases answer with
    | error e => exact .pure fun checks h => by cases h
    | ok slots =>
      have hslots := hanswer slots rfl
      rw [hchain] at hslots
      obtain ⟨hshownA, hshownB⟩ := legsShown slots.toList_length hslots
      have hdescribes := resolvePmLeg_describes
        (slots.toList.take (policy.acceptedPmFactories.on body.chainId).length)
        (slots.toList.drop (policy.acceptedPmFactories.on body.chainId).length)
      rw [List.take_append_drop, hshownA.1] at hdescribes
      dsimp only
      generalize resolvePmLeg _ slots.toList = decision at hdescribes ⊢
      cases decision with
      | upstreamFailed => exact .pure fun checks h => by cases h
      | rejected reason =>
        exact .pure fun checks h => absurd h pmLegFailed_ne_ok
      | legA =>
        obtain ⟨hclosed, hhit, hother⟩ := hdescribes
        have hopen := not_failedOtherwise_right hclosed
        refine (checkPmLeg_entitled hchain hbps ha hb (.inl hlegs) (recognised_of_hit hshownA hhit)
          (unrecognised_of_not_hit hshownB hother hopen)).mono fun _ r hr checks h => ?_
        exact ⟨legA, legB, hr checks h⟩
      | legB =>
        obtain ⟨hclosed, hother, hhit⟩ := hdescribes
        have hopen := not_failedOtherwise_left hclosed
        refine (checkPmLeg_entitled hchain hbps hb ha (.inr hlegs) (recognised_of_hit hshownB hhit)
          (unrecognised_of_not_hit hshownA hother hopen)).mono fun _ r hr checks h => ?_
        exact ⟨legB, legA, hr checks h⟩

/-- An A.1 array ends with the deadline entry and holds no other one. -/
def DeadlineLast (deadlineCheck : CheckEntry) (checks : List CheckEntry) : Prop :=
  ∃ others, checks = others ++ [deadlineCheck] ∧ ∀ c ∈ others, isA1DeadlineEntry c = false

section Arrays
variable {deadlineCheck : CheckEntry}

theorem roleCheck_description (data : RoleMap ⊕ RoleMap) (policy : IntentRequestBindingPolicy)
    (description : String) (mask : ℕ) (accepted : List Address) :
    (roleCheck data policy description mask accepted).description = description := by
  cases data with
  | inl holders =>
    simp only [roleCheck, checkSubset]
    split
    · rfl
    · split <;> rfl
  | inr partialHolders =>
    simp only [roleCheck, checkPartialHolders]
    split
    · rfl
    · cases policy.onLookbackExhausted.getD .skip <;> rfl

theorem isA1DeadlineEntry_of_description {c : CheckEntry} {description : String}
    (h : c.description = description) (hne : (description == DEADLINE_CHECK_DESCRIPTION) = false) :
    isA1DeadlineEntry c = false := by
  rw [isA1DeadlineEntry, h, hne]

theorem provenanceFailed_last (reason : String) :
    DeadlineLast deadlineCheck (provenanceFailed reason deadlineCheck) := by
  refine ⟨[_, _, _, _], rfl, ?_⟩
  simp only [List.forall_mem_cons, List.not_mem_nil, false_implies, implies_true, and_true,
    isA1DeadlineEntry_skipped, isA1DeadlineEntry_failed]
  decide

theorem evaluateRoles_last (factory owner : Address) (data : RoleMap ⊕ RoleMap) (chainId : ℕ)
    (policy : IntentRequestBindingPolicy) : DeadlineLast deadlineCheck
      (evaluateRoles factory owner data chainId policy deadlineCheck) := by
  have howner : isA1DeadlineEntry (checkMembership ownerDescription owner
      (policy.acceptedOwners.on chainId)) = false :=
    isA1DeadlineEntry_of_description (checkMembership_description _ _ _) (by decide)
  have hfactory : isA1DeadlineEntry (passed factoryDescription) = false := by decide
  unfold evaluateRoles
  dsimp only
  split
  · exact provenanceFailed_last _
  split
  · refine ⟨[_, _, _], rfl, ?_⟩
    simp only [List.forall_mem_cons, List.not_mem_nil, false_implies, implies_true, and_true]
    exact ⟨hfactory, howner,
      isA1DeadlineEntry_of_description (roleCheck_description _ _ _ _ _) (by decide)⟩
  · refine ⟨[_, _, _, _], rfl, ?_⟩
    simp only [List.forall_mem_cons, List.not_mem_nil, false_implies, implies_true, and_true]
    exact ⟨hfactory, howner,
      isA1DeadlineEntry_of_description (roleCheck_description _ _ _ _ _) (by decide),
      isA1DeadlineEntry_of_description (roleCheck_description _ _ _ _ _) (by decide)⟩

theorem evaluateA1_last (data : A1OnChainData) (chainId : ℕ)
    (policy : IntentRequestBindingPolicy) :
    DeadlineLast deadlineCheck (evaluateA1 data chainId policy deadlineCheck) := by
  cases data with
  | noFactory => exact provenanceFailed_last _
  | tooOld factory owner partialHolders => exact evaluateRoles_last _ _ _ _ _
  | resolved factory owner holders => exact evaluateRoles_last _ _ _ _ _

theorem evaluateRetargetter_last (data : RetargetterOnChainData) (requestContract : Address)
    (now : ℤ) (policy : IntentRequestBindingPolicy) : DeadlineLast deadlineCheck
      (evaluateRetargetter data requestContract now policy deadlineCheck) := by
  refine ⟨[_, _, _, _, _, _, _], rfl, ?_⟩
  simp only [List.forall_mem_cons, List.not_mem_nil, false_implies, implies_true, and_true,
    isA1DeadlineEntry_passed, isA1DeadlineEntry_skipped]
  refine ⟨by decide, by decide, by decide, by decide, by decide, ?_, ?_⟩
  · split <;> simp only [isA1DeadlineEntry_passed, isA1DeadlineEntry_failed] <;> decide
  · split <;> simp only [isA1DeadlineEntry_passed, isA1DeadlineEntry_failed] <;> decide

theorem trustedRequestContractChecks_last :
    DeadlineLast deadlineCheck (trustedRequestContractChecks deadlineCheck) := by
  refine ⟨[_, _, _, _, _], rfl, ?_⟩
  simp only [List.forall_mem_cons, List.not_mem_nil, false_implies, implies_true, and_true,
    isA1DeadlineEntry_passed, isA1DeadlineEntry_skipped]
  decide

end Arrays

structure ReportsA1 (deadlineCheck : CheckEntry) (r : CheckResult) : Prop where
  reported : Reported False (.ofResult r)
  last : ∀ checks, (Settled.ofResult r).checks = some checks → DeadlineLast deadlineCheck checks

theorem ensures_of_checking {α : Type} {rely : SigningEvent → Prop} {post : α → Prop}
    {p : Signing α} (h : p.Obeys checking (fun _ => post) ()) : p.Ensures rely post :=
  h.change (fun _ _ _ => trivial) (fun _ _ _ => trivial) fun _ _ => rfl

theorem runA1_last (body : A1Request) (deps : A1Deps) :
    (runA1 ctx body deps).Ensures (AnswersViews views) fun r => ∀ checks,
      (Settled.ofResult r).checks = some checks → DeadlineLast
        (checkDeadline ctx.nowUnixSeconds body.deadline deps.policy.maxDeadlineSecondsAhead)
        checks := by
  unfold runA1
  dsimp only
  have hrollUp : ∀ {checks entries : List CheckEntry} {d : CheckEntry}, DeadlineLast d checks →
      (Settled.ofResult (rollupA1 checks)).checks = some entries → DeadlineLast d entries := by
    intro checks entries d hlast h
    rw [rollupA1, rollUp_checks] at h
    exact Option.some.inj h ▸ hlast
  split
  · exact .pure fun checks => hrollUp trustedRequestContractChecks_last
  · refine .bind (ensures_true _) fun hit _ => ?_
    cases hit with
    | some data => exact .pure fun checks => hrollUp (evaluateA1_last _ _ _)
    | none =>
      refine .bind (ensures_of_checking (fetchA1OnChain_checking _ _)) fun r hr => ?_
      rcases r with e | fetched
      · obtain ⟨message, rfl⟩ := hr e rfl
        exact .pure fun checks h => by cases h
      · cases fetched with
        | retargetter data => exact .pure fun checks => hrollUp (evaluateRetargetter_last _ _ _ _)
        | onChain data =>
          exact .bind (ensures_true _) fun _ _ => .pure fun checks =>
            hrollUp (evaluateA1_last _ _ _)

theorem runA1_reports (body : A1Request) (deps : A1Deps) :
    (runA1 ctx body deps).Ensures (AnswersViews views) (ReportsA1
      (checkDeadline ctx.nowUnixSeconds body.deadline deps.policy.maxDeadlineSecondsAhead)) := by
  have hreported : (runA1 ctx body deps).Ensures (AnswersViews views) fun r =>
      Reported False (.ofResult r) := ensures_of_checking (runA1_checking ctx body deps)
  refine ((hreported.and (runA1_last body deps)).relax fun e he => ⟨he, he⟩).mono fun _ r h => ?_
  exact ⟨h.1, h.2⟩

theorem nestedEntries_passed {d : CheckEntry} {r : CheckResult} {contract : Address}
    {entries : List CheckEntry} (hr : ReportsA1 d r) (hd : d.passed = true)
    (hnested : nestedEntries contract r = .ok entries) (hpassed : ∀ c ∈ entries, c.passed = true) :
    ∃ checks, r = .ok checks := by
  obtain ⟨hreported, hlast⟩ := hr
  cases r with
  | ok checks => exact ⟨checks, rfl⟩
  | error e =>
    cases hreported with
    | stateConflict allowed _ => exact allowed.elim
    | upstreamUnavailable _ _ => cases hnested
    | validationFailed wellFormed failed =>
      rename_i checks
      obtain rfl := Except.ok.inj hnested
      obtain ⟨others, rfl, hothers⟩ := hlast checks rfl
      obtain ⟨c, hc, hfailed⟩ := failed
      rcases List.mem_append.mp hc with hother | hdeadline
      · have hsuffixed := hpassed (suffixed c contract) (List.mem_map_of_mem
          (List.mem_filter.mpr ⟨hc, by rw [hothers c hother]; rfl⟩))
        rw [(suffixed_namedFor (wellFormed c hc) contract).passed, hfailed] at hsuffixed
        cases hsuffixed
      · rw [List.mem_singleton.mp hdeadline, hd] at hfailed
        cases hfailed

theorem runA1Batch_entitled {chainId deadline : ℕ} {deps : A1Deps} (hchain : ctx.chainId = chainId)
    (hcache : deps.cache = false) (contracts : List Address)
    (hborn : ∀ contract ∈ contracts, BornFirst (views chainId) deps.policy chainId contract)
    (checks : List CheckEntry) :
    (runA1Batch ctx chainId deadline deps checks contracts).Ensures (AnswersViews views)
      fun r => ∀ entries, r = .ok entries → checks <+: entries ∧
        ((∀ c ∈ entries, c.passed = true) →
          (deadline : ℤ) ≤ ctx.nowUnixSeconds + deps.policy.maxDeadlineSecondsAhead →
          ∀ contract ∈ contracts, RequestEntitled (views chainId) deps.policy ctx
            ⟨chainId, contract, deadline⟩) := by
  induction contracts generalizing checks with
  | nil =>
    refine .pure fun entries h => ?_
    cases h
    exact ⟨List.prefix_rfl, fun _ _ contract hcontract => by cases hcontract⟩
  | cons contract contracts ih =>
    have hentitled := @runA1_entitled views ctx ⟨chainId, contract, deadline⟩ deps hchain hcache
      (hborn contract (.head _))
    have hboth := (hentitled.and (runA1_reports ⟨chainId, contract, deadline⟩ deps)).relax
      fun e he => ⟨he, he⟩
    refine .bind hboth fun r hr => ?_
    cases hnested : nestedEntries contract r with
    | error failure => exact .pure fun entries h => by cases h
    | ok block =>
      refine (ih (fun c hc => hborn c (.tail _ hc)) (checks ++ block)).mono
        fun _ result hresult entries h => ?_
      obtain ⟨hstart, hrest⟩ := hresult entries h
      refine ⟨(List.prefix_append _ _).trans hstart, fun hpassed hdeadline c hc => ?_⟩
      rcases List.mem_cons.mp hc with rfl | hc
      · obtain ⟨a1Checks, hok⟩ := nestedEntries_passed hr.2 (checkDeadline_passed.mpr hdeadline)
          hnested fun e he => hpassed e (hstart.subset (List.mem_append_right _ he))
        exact hr.1 a1Checks hok
      · exact hrest hpassed hdeadline c hc

section Whitelisting
variable {deps : RequestWhitelistingDeps} {body : RequestWhitelistingBody}

theorem rollupA4_passed {checks entries : List CheckEntry}
    (h : Settled.ofResult (rollupA4 checks) = .ok entries) : ∀ c ∈ checks, c.passed = true :=
  (rollUp_ok.mp (ofResult_eq_ok.mp h)).2

theorem batchEntries_entitled (hchain : ctx.chainId = body.chainId) (hcache : deps.cache = false)
    (hborn : ∀ contract ∈ body.requestContracts, BornFirst (views body.chainId)
      deps.policy.toIntentRequestBindingPolicy body.chainId contract) (checks : List CheckEntry) :
    (batchEntries deps ctx body checks).Ensures (AnswersViews views) fun r => ∀ entries,
      r = .ok entries → (∀ c ∈ entries, c.passed = true) →
        (body.deadline : ℤ) ≤ ctx.nowUnixSeconds + deps.policy.maxDeadlineSecondsAhead →
        body.operation = .whitelist → ∀ contract ∈ body.requestContracts,
          RequestEntitled (views body.chainId) deps.policy.toIntentRequestBindingPolicy ctx
            ⟨body.chainId, contract, body.deadline⟩ := by
  unfold batchEntries
  cases hop : body.operation with
  | whitelist =>
    refine (@runA1Batch_entitled views ctx body.chainId body.deadline deps.a1 hchain hcache
      body.requestContracts hborn checks).mono fun _ r hr entries h hpassed hdeadline _ => ?_
    exact (hr entries h).2 hpassed hdeadline
  | unwhitelist => exact .pure fun entries _ _ _ h => by cases h

theorem checkNonce_entitled {checks : List CheckEntry}
    (hdecimal : UINT_DECIMAL_RE body.nonce = true) :
    (checkNonce deps ctx body checks).Ensures (AnswersViews views) fun r => ∀ entries,
      r = .ok entries → (∀ c ∈ checks, c.passed = true) ∧
        ∃ floor, (views ctx.chainId).nonceReads (toLowerCase body.whitelistBook)
            (toLowerCase deps.guardianSigner) (decimalValue body.nonce.toList) =
              some (floor, false) ∧
          floor ≤ decimalValue body.nonce.toList ∧
          (decimalValue body.nonce.toList : ℤ) ≤ floor + deps.policy.maxNonceAboveFloor := by
  rw [checkNonce, toBigInt_decimal hdecimal]
  refine .call_bind fun answer hanswer => ?_
  cases answer with
  | error e =>
    dsimp only
    split
    · refine .pure fun entries h => ?_
      have hpassed := rollupA4_passed h
      have hfailed := hpassed _ (List.mem_append_right _ (.head _))
      cases hfailed
    · exact .pure fun entries h => by cases h
  | ok read =>
    obtain ⟨floor, consumed⟩ := read
    refine .pure fun entries h => ?_
    have hpassed := rollupA4_passed h
    obtain ⟨rfl, hfloor, hceiling⟩ := checkNonceWindow_passed.mp fun c hc =>
      hpassed c (List.mem_append_right _ hc)
    exact ⟨fun c hc => hpassed c (List.mem_append_left _ hc), floor, hanswer _ rfl,
      by exact_mod_cast hfloor, hceiling⟩

theorem bookChecks_passed (h : ((bookChecks deps.policy body).any fun c => !c.passed) = false) :
    ∀ books, deps.policy.acceptedWhitelistBooks = some books →
      ∃ book ∈ books.on body.chainId, toLowerCase book = toLowerCase body.whitelistBook := by
  intro books hbooks
  rw [bookChecks, hbooks] at h
  simp only [List.any_cons, List.any_nil, Bool.or_false, Bool.not_eq_false',
    checkMembership_passed] at h
  exact memLower_iff.mp h

theorem runA4_entitled (hchain : ctx.chainId = body.chainId) (hcache : deps.cache = false)
    (hdecimal : UINT_DECIMAL_RE body.nonce = true)
    (hborn : ∀ contract ∈ body.requestContracts, BornFirst (views body.chainId)
      deps.policy.toIntentRequestBindingPolicy body.chainId contract) :
    (runA4 (deps.policy.maxRequestContracts.getD DEFAULT_MAX_REQUEST_CONTRACTS) deps ctx
      body).Ensures (AnswersViews views) fun r => ∀ checks, r = .ok checks →
        WhitelistingEntitled (views body.chainId) deps ctx body := by
  rw [runA4]
  split
  · refine .pure fun checks h => ?_
    cases rollupA4_passed h _ (.head _)
  · rename_i hlength
    split
    · rename_i hgate
      refine .pure fun checks h => ?_
      obtain ⟨c, hc, hfailed⟩ := List.any_eq_true.mp hgate
      rw [rollupA4_passed h c (List.mem_append_left _ hc)] at hfailed
      cases hfailed
    · rename_i hgate
      refine .bind (batchEntries_entitled hchain hcache hborn _) fun r hr => ?_
      cases r with
      | error failure => exact .pure fun checks h => by cases h
      | ok entries =>
        refine (checkNonce_entitled hdecimal).mono fun _ result hresult checks h => ?_
        obtain ⟨hpassed, hnonce⟩ := hresult checks h
        have hdeadline := checkDeadline_passed.mp
          (hpassed _ (List.mem_append_right _ (List.mem_singleton_self _)))
        rw [hchain] at hnonce
        exact ⟨by omega, bookChecks_passed (Bool.eq_false_iff.mpr hgate), hdeadline, hnonce,
          hr entries rfl (fun c hc => hpassed c (List.mem_append_left _ hc)) hdeadline⟩

end Whitelisting

end Runners
end Guardian
