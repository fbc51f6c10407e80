import Guardian.Defaults.Respelled

/-!
# A.2 and A.3 over two spellings

The fund binding and the swap, run side by side with themselves on respelled data.
-/

namespace Guardian
open Effect Text Program

section Runners
variable {ctx : SigningContext}

theorem zero_of_lowered {a a' : Address} (ha' : ADDRESS_RE a' = true)
    (h : toLowerCase a = toLowerCase a') (ha : a = ZERO_ADDRESS) : a' = ZERO_ADDRESS := by
  obtain ⟨cs, hcs⟩ := hex_chars ha'
  have hzeros : ZERO_ADDRESS.toList = '0' :: 'x' :: List.replicate 40 '0' := rfl
  have hlower := congrArg String.toList h
  rw [ha, toList_toLowerCase, toList_toLowerCase, hcs, hzeros, List.map_cons, List.map_cons,
    List.map_cons, List.map_cons] at hlower
  have htail : cs.map Char.toLower = List.replicate 40 '0' :=
    ((List.cons.inj (List.cons.inj hlower).2).2).symm
  have hdigits : cs = List.replicate 40 '0' := by
    refine List.eq_replicate_iff.mpr ⟨by simpa using congrArg List.length htail, fun c hc => ?_⟩
    have hmem : c.toLower ∈ List.replicate 40 '0' := htail ▸ List.mem_map_of_mem hc
    exact toLower_eq_zero (List.eq_of_mem_replicate hmem)
  rw [← String.toList_inj, hcs, hzeros, hdigits]

section Fund
variable {p q : IntentFundBindingPolicy} {body body' : IntentFundBindingBody}
  {reads reads' : FundReads}

theorem pmAssets_same (h : reads.lowered = reads'.lowered) :
    (pmAssets reads).map toLowerCase = (pmAssets reads').map toLowerCase := by
  have hassets : [reads.depositAsset, reads.targetAsset].map IntentAsset.lowered =
      [reads'.depositAsset, reads'.targetAsset].map IntentAsset.lowered := by
    have hdeposit := congrArg FundReads.depositAsset h
    have htarget := congrArg FundReads.targetAsset h
    exact congrArg₂ (fun a b => [a, b]) hdeposit htarget
  have hlowered : ∀ reads : FundReads, (pmAssets reads).map toLowerCase =
      (([reads.depositAsset, reads.targetAsset].map IntentAsset.lowered).filter
        IntentAsset.isPositionManager).map IntentAsset.asset := fun reads => by
    rw [pmAssets, List.filter_map, List.map_map, List.map_map]
    rfl
  rw [hlowered, hlowered, hassets]

theorem checkPositionManager_same (hbody : body.lowered = body'.lowered)
    (h : reads.lowered = reads'.lowered) : (checkPositionManager body reads).judgement =
      (checkPositionManager body' reads').judgement := by
  have hmember : ∀ (b : IntentFundBindingBody) (r : FundReads),
      ((pmAssets r).any fun a => toLowerCase a == toLowerCase b.positionManager) = true ↔
        toLowerCase b.positionManager ∈ (pmAssets r).map toLowerCase := fun b r => by
    simp only [List.any_eq_true, beq_iff_eq, List.mem_map]
  have hpm : toLowerCase body.positionManager = toLowerCase body'.positionManager :=
    congrArg IntentFundBindingBody.positionManager hbody
  have hopen : ∀ (b : IntentFundBindingBody) (r : FundReads),
      Unmarked (if (pmAssets r).length = 0 then
        s!"intent {b.intent.id} declares no position-manager asset"
      else
        s!"intent {b.intent.id} declares position-manager asset(s) " ++
          ", ".intercalate (pmAssets r) ++ s!" but the request proposes {b.positionManager}") := by
    intro b r
    have hlit : Unmarked "intent " := ⟨_, _, _, rfl, by decide⟩
    split
    · exact (hlit.append _).append _
    · exact (((hlit.append _).append _).append _).append _
  refine ite_judgement ?_ (hopen _ _) (hopen _ _)
  rw [hmember, hmember, hpm, pmAssets_same h]

theorem checkNoCurrentFund_same (h : SameFundReads reads reads') :
    (checkNoCurrentFund body reads).judgement = (checkNoCurrentFund body' reads').judgement := by
  have hfund : toLowerCase reads.currentFund = toLowerCase reads'.currentFund :=
    congrArg FundReads.currentFund h.1
  have hlit : Unmarked "intent " := ⟨_, _, _, rfl, by decide⟩
  have hopen : ∀ (b : IntentFundBindingBody) (r : FundReads), Unmarked
      (s!"intent {b.intent.id} is currently bound to {r.currentFund}; " ++
        "unbind (setFund(0,...)) before rebinding to a new fund") := fun b r =>
    ((((hlit.append _).append _).append _).append _).append _
  refine ite_judgement ?_ (hopen _ _) (hopen _ _)
  exact ⟨zero_of_lowered h.2.2 hfund, zero_of_lowered h.2.1 hfund.symm⟩

theorem rollupFundState_same {a b c d e f a' b' c' d' e' f' : CheckEntry}
    (ha : a.judgement = a'.judgement) (hb : b.judgement = b'.judgement)
    (hc : c.judgement = c'.judgement) (hd : d.judgement = d'.judgement)
    (he : e.judgement = e'.judgement) (hf : f.judgement = f'.judgement) :
    SameResult (.ofResult (rollupFundState a b c d e f))
      (.ofResult (rollupFundState a' b' c' d' e' f')) := by
  have hall : [a, b, c, d, e, f].map CheckEntry.judgement =
      [a', b', c', d', e', f'].map CheckEntry.judgement := by
    simp only [List.map_cons, List.map_nil, ha, hb, hc, hd, he, hf]
  have hclass422 : [a, b, c, d, f].map CheckEntry.judgement =
      [a', b', c', d', f'].map CheckEntry.judgement := by
    simp only [List.map_cons, List.map_nil, ha, hb, hc, hd, hf]
  unfold rollupFundState
  dsimp only
  rw [judgements_any hclass422, judgement_passed he]
  split
  · exact rollUp_same hall
  · split
    · exact ⟨rfl, congrArg some hall⟩
    · exact ⟨rfl, congrArg some hall⟩

theorem runA2_alike (hp : SameFundPolicy p q) (hbody : body.lowered = body'.lowered) :
    (runA2 p ctx body).Alike respelling SameResult (runA2 q ctx body') := by
  have hsame := hbody
  injection hsame with hchain hfacility hintent hfund hpm hdeadline
  have hlist := checkMembership_same (d := "fund contract is on the accepted-funds list") hfund
    (hp.acceptedFunds.members body'.chainId)
  unfold runA2
  rw [hchain, hintent, hdeadline, hp.maxDeadlineSecondsAhead]
  cases toBigInt body'.intent.id with
  | error e => exact .pure .rfl
  | ok intentId =>
    dsimp only
    rw [judgement_passed hlist]
    split
    · refine .pure (rollUp_same ?_)
      simp only [List.map_append, List.map_cons, hlist]
    · refine .call_bind ⟨rfl, hfund, hfacility, rfl⟩ fun answer answer' hanswer => ?_
      match answer, answer', hanswer with
      | .ok reads, .ok reads', hanswer =>
        have howner : toLowerCase reads.owner = toLowerCase reads'.owner :=
          congrArg FundReads.owner hanswer.1
        exact .pure (rollupFundState_same rfl hlist
          (checkMembership_same howner (hp.acceptedOwners.members _))
          (checkPositionManager_same hbody hanswer.1) (checkNoCurrentFund_same hanswer) rfl)
      | .error e, .error e', hanswer =>
        obtain rfl : e = e' := hanswer
        dsimp only
        split
        · refine .pure (rollUp_same ?_)
          have hopen : ∀ (b : IntentFundBindingBody) (owner : Bool), Unmarked (if owner then
              s!"fund contract {b.fundContract} did not answer owner() " ++
                "(EOA or non-Ownable contract); owner could not be read deterministically"
            else
              s!"facility {b.facility} did not answer getIntent({b.intent.id}) " ++
                "(EOA or non-facility contract); fund owner could not be read deterministically") :=
            by
            intro b owner
            have hfundLit : Unmarked "fund contract " := ⟨_, _, _, rfl, by decide⟩
            have hfacilityLit : Unmarked "facility " := ⟨_, _, _, rfl, by decide⟩
            split
            · exact ((hfundLit.append _).append _).append _
            · exact ((((hfacilityLit.append _).append _).append _).append _).append _
          simp only [List.map_append, List.map_cons, hlist]
          rw [failed_judgement (hopen _ _), failed_judgement (hopen _ _)]
        · exact .pure .rfl

end Fund

section Swap
variable {p q : IntentSwapPolicy} {body body' : IntentSwapBody} {leg leg' : SwapLeg}
  {reads reads' : PositionManagerReads}

def isOpen : Slot Bool → Bool
  | .failure e => !isDeterministicContractCallFailure e ["isPositionManager"]
  | .success _ => false

theorem deterministicFailures_pos (slots : List (Slot Bool)) :
    (deterministicFailures slots).map (fun failures => decide (failures > 0)) =
      if slots.any isOpen then none else some (slots.any isFailure) := by
  induction slots with
  | nil => rfl
  | cons slot slots ih =>
    cases slot with
    | success result => simpa only [deterministicFailures, List.any_cons, isOpen, isFailure,
        Bool.false_or] using ih
    | failure e =>
      simp only [deterministicFailures, List.any_cons, isOpen, isFailure, Bool.true_or]
      by_cases hdet : isDeterministicContractCallFailure e ["isPositionManager"] = true
      · rw [if_pos hdet, hdet, Bool.not_true, Bool.false_or]
        cases hslots : deterministicFailures slots with
        | none =>
          rw [hslots] at ih
          split at ih
          · rename_i hopen
            rw [if_pos hopen]
            rfl
          · cases ih
        | some failures =>
          rw [hslots] at ih
          split at ih
          · cases ih
          · rename_i hopen
            rw [if_neg hopen]
            simp
      · rw [if_neg hdet, if_pos (by simp [hdet])]
        rfl

theorem resolvePmLeg_same {as bs as' bs' : List (Slot Bool)} (ha : SameMembers as as')
    (hb : SameMembers bs bs') :
    resolvePmLeg as.length (as ++ bs) = resolvePmLeg as'.length (as' ++ bs') := by
  have hall := ha.append hb
  have hfailures := deterministicFailures_pos (as ++ bs)
  rw [hall.any, hall.any, ← deterministicFailures_pos] at hfailures
  unfold resolvePmLeg
  rw [List.take_left, List.drop_left, List.take_left, List.drop_left,
    show hits as = hits as' from ha.any _, show hits bs = hits bs' from hb.any _]
  cases h : deterministicFailures (as ++ bs) with
  | none =>
    cases h' : deterministicFailures (as' ++ bs') with
    | none => rfl
    | some failures' =>
      rw [h, h'] at hfailures
      cases hfailures
  | some failures =>
    cases h' : deterministicFailures (as' ++ bs') with
    | none =>
      rw [h, h'] at hfailures
      cases hfailures
    | some failures' =>
      rw [h, h'] at hfailures
      have hpos : decide (failures > 0) = decide (failures' > 0) := Option.some.inj hfailures
      dsimp only
      rw [hpos]

theorem checkDebtAsset_same (hleg : leg.lowered = leg'.lowered)
    (h : reads.lowered = reads'.lowered) :
    (checkDebtAsset leg reads).judgement = (checkDebtAsset leg' reads').judgement := by
  have hasset : toLowerCase leg.asset = toLowerCase leg'.asset := congrArg SwapLeg.asset hleg
  have hdebt : toLowerCase reads.debtAsset = toLowerCase reads'.debtAsset :=
    congrArg PositionManagerReads.debtAsset h
  have hopen : ∀ (l : SwapLeg) (r : PositionManagerReads), Unmarked
      (s!"non-PM leg asset is {l.asset} but PM debt asset is {r.debtAsset} " ++
        s!"(collateral asset for reference: {r.collateralAsset})") := fun l r =>
    have hlit : Unmarked "non-PM leg asset is " := ⟨_, _, _, rfl, by decide⟩
    ((((hlit.append _).append _).append _).append _).append _
  refine ite_judgement ?_ (hopen _ _) (hopen _ _)
  rw [hasset, hdebt]

theorem sharePriceEntry_same {debt debt' : SwapLeg} {bps : ℤ} (hleg : leg.lowered = leg'.lowered)
    (hdebt : debt.lowered = debt'.lowered) (h : reads.lowered = reads'.lowered) :
    sharePriceEntry leg debt reads bps = sharePriceEntry leg' debt' reads' bps := by
  have hprice : ∀ shares actual, checkSharePrice shares actual reads bps =
      checkSharePrice shares actual reads' bps := by
    injection h with _ _ _ hassets hsupply hmanagement hperformance hoffset
    intro shares actual
    unfold checkSharePrice priceDenominator
    rw [hassets, hsupply, hmanagement, hperformance, hoffset]
  injection hleg with _ _ hshares
  have hamount : debt.amount = debt'.amount := by
    injection hdebt
  unfold sharePriceEntry
  rw [judgement_passed (checkDebtAsset_same hdebt h), hshares, hamount]
  simp only [hprice]

theorem checkPmLeg_alike {chainId : ℕ} {deadlineCheck : CheckEntry} {debt debt' : SwapLeg}
    (hp : SameSwapPolicy p q) (hleg : leg.lowered = leg'.lowered)
    (hdebt : debt.lowered = debt'.lowered) :
    (checkPmLeg p ctx chainId deadlineCheck leg debt).Alike respelling SameResult
      (checkPmLeg q ctx chainId deadlineCheck leg' debt') := by
  have hasset : toLowerCase leg.asset = toLowerCase leg'.asset := congrArg SwapLeg.asset hleg
  refine .call_bind ⟨rfl, hasset⟩ fun answer answer' hanswer => ?_
  match answer, answer', hanswer with
  | .error _, .error _, _ => exact .pure .rfl
  | .ok reads, .ok reads', hanswer =>
    have hreads : reads.lowered = reads'.lowered := hanswer
    refine .pure ?_
    unfold evaluatePositionManager
    rw [hp.swapPriceToleranceBps, sharePriceEntry_same hleg hdebt hreads]
    cases sharePriceEntry leg' debt' reads' q.swapPriceToleranceBps with
    | error e => exact .rfl
    | ok priceCheck =>
      have howner : toLowerCase reads.owner = toLowerCase reads'.owner :=
        congrArg PositionManagerReads.owner hreads
      refine rollUp_same ?_
      simp only [List.map_cons, List.map_nil, checkDebtAsset_same hdebt hreads,
        checkMembership_same howner (hp.acceptedPmOwners.members chainId)]

theorem pmCalls_slots (view : Address × Address → Slot Bool) (factories : List Address)
    (legA legB : SwapLeg) : (pmCalls factories legA legB).map (view ∘ loweredCall) =
      (factories.map toLowerCase).map (fun f => view (f, toLowerCase legA.asset)) ++
        (factories.map toLowerCase).map (fun f => view (f, toLowerCase legB.asset)) := by
  rw [pmCalls, List.map_append, List.map_map, List.map_map, List.map_map, List.map_map]
  rfl

theorem pmCalls_members {factories factories' : List Address} {legA legB legA' legB' : SwapLeg}
    (h : SameMembers (factories.map toLowerCase) (factories'.map toLowerCase))
    (hA : legA.lowered = legA'.lowered) (hB : legB.lowered = legB'.lowered) :
    SameMembers ((pmCalls factories legA legB).map loweredCall)
      ((pmCalls factories' legA' legB').map loweredCall) := by
  have hassetA : toLowerCase legA.asset = toLowerCase legA'.asset := congrArg SwapLeg.asset hA
  have hassetB : toLowerCase legB.asset = toLowerCase legB'.asset := congrArg SwapLeg.asset hB
  have hcalls : ∀ (fs : List Address) (a b : SwapLeg), (pmCalls fs a b).map loweredCall =
      (fs.map toLowerCase).map (fun f => (f, toLowerCase a.asset)) ++
        (fs.map toLowerCase).map (fun f => (f, toLowerCase b.asset)) := fun fs a b => by
    rw [pmCalls, List.map_append, List.map_map, List.map_map, List.map_map, List.map_map]
    rfl
  rw [hcalls, hcalls, hassetA, hassetB]
  exact (h.map _).append (h.map _)

theorem resolveLegs_alike {deadlineCheck : CheckEntry} {legA legB legA' legB' : SwapLeg}
    (hp : SameSwapPolicy p q) (hchain : body.chainId = body'.chainId)
    (hA : legA.lowered = legA'.lowered) (hB : legB.lowered = legB'.lowered) :
    (resolveLegs p ctx body deadlineCheck legA legB).Alike respelling SameResult
      (resolveLegs q ctx body' deadlineCheck legA' legB') := by
  have hassetA : toLowerCase legA.asset = toLowerCase legA'.asset := congrArg SwapLeg.asset hA
  have hassetB : toLowerCase legB.asset = toLowerCase legB'.asset := congrArg SwapLeg.asset hB
  have hfactories := hp.acceptedPmFactories.members body'.chainId
  unfold resolveLegs
  rw [hchain]
  refine .call_bind ⟨rfl, pmCalls_members hfactories hA hB⟩ fun answer answer' hanswer => ?_
  match answer, answer', hanswer with
  | .error _, .error _, _ => exact .pure .rfl
  | .ok slots, .ok slots', hanswer =>
    obtain ⟨view, hslots, hslots'⟩ := hanswer
    dsimp only
    rw [hslots, hslots', pmCalls_slots, pmCalls_slots, hassetA, hassetB]
    have hleg := resolvePmLeg_same
      (hfactories.map fun f => view (f, toLowerCase legA'.asset))
      (hfactories.map fun f => view (f, toLowerCase legB'.asset))
    simp only [List.length_map] at hleg
    rw [hleg]
    generalize resolvePmLeg (q.acceptedPmFactories.on body'.chainId).length _ = decision
    cases decision with
    | upstreamFailed => exact .pure .rfl
    | rejected reason => exact .pure .rfl
    | legA => exact checkPmLeg_alike hp hA hB
    | legB => exact checkPmLeg_alike hp hB hA

theorem SameMembers.eq_nil {α : Type} {l l' : List α} (h : SameMembers l l') :
    l = [] ↔ l' = [] := by
  rw [List.eq_nil_iff_forall_not_mem, List.eq_nil_iff_forall_not_mem]
  simp only [h _]

theorem runA3_alike (hp : SameSwapPolicy p q) (hbody : body.lowered = body'.lowered) :
    (runA3 p ctx body).Alike respelling SameResult (runA3 q ctx body') := by
  have hsame := hbody
  injection hsame with hchain hfacility hlegs hdeadline
  have hlegs' := forall₂_of_map_eq hlegs
  have hempty : p.acceptedPmFactories.on body'.chainId = [] ↔
      q.acceptedPmFactories.on body'.chainId = [] := by
    have hnil := (hp.acceptedPmFactories.members body'.chainId).eq_nil
    simpa only [List.map_eq_nil_iff] using hnil
  unfold runA3
  generalize body.legs = legs at hlegs' ⊢
  generalize body'.legs = legs' at hlegs' ⊢
  cases hlegs' with
  | nil => exact .pure .rfl
  | cons hA hrest =>
    cases hrest with
    | nil => exact .pure .rfl
    | cons hB _ =>
      dsimp only
      rw [hchain, hdeadline, hp.maxDeadlineSecondsAhead]
      simp only [hempty]
      split
      · exact .pure .rfl
      · exact resolveLegs_alike hp hchain hA hB

end Swap
end Runners
end Guardian
