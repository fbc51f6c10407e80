import Guardian.Defaults.IntentFundBinding
import Guardian.Defaults.IntentSwap
import Guardian.Defaults.RequestWhitelisting
import Guardian.Lib.TwoRuns

/-!
# The same addresses in another letter case

Data is the same up to spelling when it is equal once its addresses are lower-cased; a
configured set is the same when its lower-cased members first occur in the same order,
so two spellings of one member may also fall together. `respelling` is the resulting
likeness of requests and answers: a read of the same address is answered with the same
data. What a check decides is its `judgement`, which leaves its texts out but for the
rogue holders they list.
-/

namespace Guardian
open Effect Text

def AddressSets.lowered (sets : AddressSets) (chainId : ℕ) : List Address :=
  ((sets.on chainId).map toLowerCase).eraseDups

def SameSets (sets sets' : AddressSets) : Prop :=
  ∀ chainId, sets.lowered chainId = sets'.lowered chainId

def Log.lowered (l : Log) : Log :=
  { l with
    address := toLowerCase l.address
    user := l.user.map toLowerCase
    request := l.request.map toLowerCase
    flashLoanRequest := l.flashLoanRequest.map toLowerCase }

def A1OnChainData.lowered : A1OnChainData → A1OnChainData
  | .noFactory => .noFactory
  | .tooOld factory owner partialHolders =>
    .tooOld (toLowerCase factory) (toLowerCase owner) partialHolders
  | .resolved factory owner holders => .resolved (toLowerCase factory) (toLowerCase owner) holders

def RetargetterOperation.lowered (operation : RetargetterOperation) : RetargetterOperation :=
  { operation with request := toLowerCase operation.request }

def IntentAsset.lowered (asset : IntentAsset) : IntentAsset :=
  { asset with asset := toLowerCase asset.asset }

def FundReads.lowered (reads : FundReads) : FundReads :=
  ⟨toLowerCase reads.owner, reads.depositAsset.lowered, reads.targetAsset.lowered,
    toLowerCase reads.currentFund⟩

def PositionManagerReads.lowered (reads : PositionManagerReads) : PositionManagerReads :=
  { reads with
    owner := toLowerCase reads.owner
    collateralAsset := toLowerCase reads.collateralAsset
    debtAsset := toLowerCase reads.debtAsset }

structure SameRequestPolicy (p q : IntentRequestBindingPolicy) : Prop where
  trustedRequestContracts : SameSets p.trustedRequestContracts q.trustedRequestContracts
  acceptedRetargetters : SameSets p.acceptedRetargetters q.acceptedRetargetters
  acceptedRequestFactories : SameSets p.acceptedRequestFactories q.acceptedRequestFactories
  acceptedFlashLoanRequestFactories :
    SameSets p.acceptedFlashLoanRequestFactories q.acceptedFlashLoanRequestFactories
  acceptedFlashLoanRequestExecutors :
    SameSets p.acceptedFlashLoanRequestExecutors q.acceptedFlashLoanRequestExecutors
  acceptedOwners : SameSets p.acceptedOwners q.acceptedOwners
  acceptedPullers : SameSets p.acceptedPullers q.acceptedPullers
  acceptedConsumers : SameSets p.acceptedConsumers q.acceptedConsumers
  maxDeadlineSecondsAhead : p.maxDeadlineSecondsAhead = q.maxDeadlineSecondsAhead
  minRetargetterRepaymentBufferSeconds :
    p.minRetargetterRepaymentBufferSeconds = q.minRetargetterRepaymentBufferSeconds
  eventScanBlockRange : p.eventScanBlockRange = q.eventScanBlockRange
  eventScanMaxLookbackBlocks : p.eventScanMaxLookbackBlocks = q.eventScanMaxLookbackBlocks
  eventScanDeadlineMs : p.eventScanDeadlineMs = q.eventScanDeadlineMs
  onLookbackExhausted : p.onLookbackExhausted = q.onLookbackExhausted

structure SameRequestDeps (deps deps' : A1Deps) : Prop where
  policy : SameRequestPolicy deps.policy deps'.policy
  cache : deps.cache = deps'.cache
  cacheTtlMs : deps.cacheTtlMs = deps'.cacheTtlMs

structure SameFundPolicy (p q : IntentFundBindingPolicy) : Prop where
  acceptedFunds : SameSets p.acceptedFunds q.acceptedFunds
  acceptedOwners : SameSets p.acceptedOwners q.acceptedOwners
  maxDeadlineSecondsAhead : p.maxDeadlineSecondsAhead = q.maxDeadlineSecondsAhead

structure SameSwapPolicy (p q : IntentSwapPolicy) : Prop where
  acceptedPmFactories : SameSets p.acceptedPmFactories q.acceptedPmFactories
  acceptedPmOwners : SameSets p.acceptedPmOwners q.acceptedPmOwners
  maxDeadlineSecondsAhead : p.maxDeadlineSecondsAhead = q.maxDeadlineSecondsAhead
  swapPriceToleranceBps : p.swapPriceToleranceBps = q.swapPriceToleranceBps

structure SameWhitelistingDeps (deps deps' : RequestWhitelistingDeps) : Prop where
  a1 : SameRequestDeps deps.a1 deps'.a1
  acceptedWhitelistBooks :
    Option.Rel SameSets deps.policy.acceptedWhitelistBooks deps'.policy.acceptedWhitelistBooks
  maxNonceAboveFloor : deps.policy.maxNonceAboveFloor = deps'.policy.maxNonceAboveFloor
  maxRequestContracts : deps.policy.maxRequestContracts = deps'.policy.maxRequestContracts
  guardianSigner : toLowerCase deps.guardianSigner = toLowerCase deps'.guardianSigner

theorem forall₂_of_map_eq {α κ : Type} {f : α → κ} {l l' : List α} (h : l.map f = l'.map f) :
    List.Forall₂ (fun a a' => f a = f a') l l' := by
  have heq : List.Forall₂ Eq (l.map f) (l'.map f) := h ▸ List.forall₂_refl _
  exact List.forall₂_map_right_iff.mp (List.forall₂_map_left_iff.mp heq)

def FactoryCheck.lowered (check : FactoryCheck) : Address × String :=
  (toLowerCase check.factory, check.functionName)

def loweredCall (call : Address × Address) : Address × Address :=
  (toLowerCase call.1, toLowerCase call.2)

def SameMembers {α : Type} (l l' : List α) : Prop := ∀ x, x ∈ l ↔ x ∈ l'

def RespelledOp : Op → Op → Prop
  | .cacheSet k v ttl, .cacheSet k' v' ttl' => k = k' ∧ v.lowered = v'.lowered ∧ ttl = ttl'
  | .ownerAndProvenance c rc checks, .ownerAndProvenance c' rc' checks' =>
    c = c' ∧ toLowerCase rc = toLowerCase rc' ∧
      SameMembers (checks.map FactoryCheck.lowered) (checks'.map FactoryCheck.lowered)
  | .operation c r, .operation c' r' => c = c' ∧ toLowerCase r = toLowerCase r'
  | .getCode c a n, .getCode c' a' n' => c = c' ∧ toLowerCase a = toLowerCase a' ∧ n = n'
  | .getLogs c as lo hi, .getLogs c' as' lo' hi' =>
    c = c' ∧ as.map toLowerCase = as'.map toLowerCase ∧ lo = lo' ∧ hi = hi'
  | .fundReads c fund facility id, .fundReads c' fund' facility' id' =>
    c = c' ∧ toLowerCase fund = toLowerCase fund' ∧
      toLowerCase facility = toLowerCase facility' ∧ id = id'
  | .isPositionManager c calls, .isPositionManager c' calls' =>
    c = c' ∧ SameMembers (calls.map loweredCall) (calls'.map loweredCall)
  | .positionManagerReads c a, .positionManagerReads c' a' =>
    c = c' ∧ toLowerCase a = toLowerCase a'
  | .nonceReads c book signer n, .nonceReads c' book' signer' n' =>
    c = c' ∧ toLowerCase book = toLowerCase book' ∧
      toLowerCase signer = toLowerCase signer' ∧ n = n'
  | op, op' => op = op'

def SameOutcome {ε α α' : Type} (same : α → α' → Prop) : Except ε α → Except ε α' → Prop
  | .ok a, .ok a' => same a a'
  | .error e, .error e' => e = e'
  | _, _ => False

def Slot.lowered : Slot Address → Slot Address
  | .success a => .success (toLowerCase a)
  | .failure e => .failure e

def isFailure : Slot Bool → Bool
  | .failure _ => true
  | .success _ => false

/-- The slots of two multicalls, answered by one view of the lower-cased calls. -/
def SameSlots {α κ : Type} (lowered : α → κ) (calls calls' : List α)
    (slots slots' : List (Slot Bool)) : Prop :=
  ∃ view : κ → Slot Bool, slots = calls.map (view ∘ lowered) ∧ slots' = calls'.map (view ∘ lowered)

/-- The fund an intent is bound to is decoded by the client, so it is an address. -/
def SameFundReads (reads reads' : FundReads) : Prop :=
  reads.lowered = reads'.lowered ∧ ADDRESS_RE reads.currentFund = true ∧
    ADDRESS_RE reads'.currentFund = true

def RespelledAnswer : (op op' : Op) → op.Answer → op'.Answer → Prop
  | .cacheGet _, .cacheGet _ =>
    SameOutcome (Option.Rel fun v v' : A1OnChainData => v.lowered = v'.lowered)
  | .ownerAndProvenance _ _ checks, .ownerAndProvenance _ _ checks' =>
    SameOutcome fun a a' => a.1.lowered = a'.1.lowered ∧
      SameSlots FactoryCheck.lowered checks checks' a.2.toList a'.2.toList
  | .operation .., .operation .. =>
    SameOutcome fun o o' : RetargetterOperation => o.lowered = o'.lowered
  | .getLogs .., .getLogs .. =>
    SameOutcome fun logs logs' : List Log => logs.map Log.lowered = logs'.map Log.lowered
  | .fundReads .., .fundReads .. => SameOutcome SameFundReads
  | .isPositionManager _ calls, .isPositionManager _ calls' =>
    SameOutcome fun slots slots' => SameSlots loweredCall calls calls' slots.toList slots'.toList
  | .positionManagerReads .., .positionManagerReads .. =>
    SameOutcome fun r r' : PositionManagerReads => r.lowered = r'.lowered
  | _, _ => fun r r' => HEq r r'

def respelling : Likeness env := ⟨RespelledOp, RespelledAnswer⟩

def rogueMarkers : List String :=
  ["rogue role-holder(s): ", "rogue role-holder(s) observed within the lookback window: "]

def listedRogues (reason : String) : Option (List Char) :=
  rogueMarkers.findSome? fun marker => reason.toList.dropPrefix? marker.toList

structure Judgement where
  passed : Bool
  skipped : Bool
  rogue : Option (List Char)
  deriving DecidableEq, Repr

def CheckEntry.judgement (c : CheckEntry) : Judgement :=
  ⟨c.passed, c.skipped, c.reason.bind listedRogues⟩

def CheckEntry.labelled (c : CheckEntry) : String × Judgement := (c.description, c.judgement)

structure SameResult (r r' : Settled (List CheckEntry)) : Prop where
  resultClass : r.resultClass = r'.resultClass
  judgements : r.checks.map (List.map CheckEntry.judgement) =
    r'.checks.map (List.map CheckEntry.judgement)

/-- A reason that opens otherwise than the reports of rogue holders do. -/
def Unmarked (reason : String) : Prop :=
  ∃ a b cs, reason.toList = a :: b :: cs ∧ (a, b) ≠ ('r', 'o')

theorem Unmarked.append {s : String} (h : Unmarked s) (t : String) : Unmarked (s ++ t) := by
  obtain ⟨a, b, cs, hs, hne⟩ := h
  exact ⟨a, b, cs ++ t.toList, by rw [String.toList_append, hs]; rfl, hne⟩

theorem Unmarked.listedRogues {reason : String} (h : Unmarked reason) :
    listedRogues reason = none := by
  obtain ⟨a, b, cs, hs, hne⟩ := h
  have hdrop : ∀ rest, (a :: b :: cs).dropPrefix? ('r' :: 'o' :: rest) = none := by
    intro rest
    simp only [List.dropPrefix?, beq_iff_eq]
    split
    · split
      · rename_i ha hb
        exact absurd (Prod.ext ha hb) hne
      · rfl
    · rfl
  unfold Guardian.listedRogues
  rw [hs]
  exact List.findSome?_eq_none_iff.mpr fun marker hmarker => by
    simp only [rogueMarkers, List.mem_cons, List.not_mem_nil, or_false] at hmarker
    rcases hmarker with rfl | rfl
    · exact hdrop _
    · exact hdrop _

theorem checkSubset_judgement {d : String} {holders accepted : List Address}
    (hrogue : rogueHolders holders accepted ≠ []) : (checkSubset d holders accepted).judgement =
      ⟨false, false, some (", ".intercalate (rogueHolders holders accepted)).toList⟩ := by
  have hlength : (rogueHolders holders accepted).length > 0 := List.length_pos_of_ne_nil hrogue
  have hholders : holders.length ≠ 0 := fun h => hrogue (by
    rw [List.length_eq_zero_iff.mp h]
    rfl)
  have hlisted : ∀ text : String,
      listedRogues ("rogue role-holder(s): " ++ text) = some text.toList := fun text => by
    rw [listedRogues, String.toList_append, rogueMarkers, List.findSome?_cons,
      List.dropPrefix?_append_of_beq _ (by simp)]
  rw [checkSubset, if_neg hholders]
  dsimp only
  rw [if_pos hlength]
  exact congrArg (Judgement.mk false false) (hlisted _)

@[simp] theorem passed_judgement (d : String) : (passed d).judgement = ⟨true, false, none⟩ := rfl

@[simp] theorem skipped_judgement (d : String) : (skipped d).judgement = ⟨true, true, none⟩ := rfl

theorem failed_judgement {d reason : String} (h : Unmarked reason) :
    (failed d reason).judgement = ⟨false, false, none⟩ :=
  congrArg (Judgement.mk false false) h.listedRogues

theorem ite_judgement {p p' : Prop} [Decidable p] [Decidable p'] (h : p ↔ p')
    {d d' reason reason' : String} (hr : Unmarked reason) (hr' : Unmarked reason') :
    (if p then passed d else failed d reason).judgement =
      (if p' then passed d' else failed d' reason').judgement := by
  by_cases hp : p
  · rw [if_pos hp, if_pos (h.mp hp)]
    rfl
  · rw [if_neg hp, if_neg fun hp' => hp (h.mpr hp'), failed_judgement hr, failed_judgement hr']

theorem ite_description {p : Prop} [Decidable p] {d reason : String} :
    (if p then passed d else failed d reason).description = d := by
  split <;> rfl

theorem ite_labelled {p p' : Prop} [Decidable p] [Decidable p'] (h : p ↔ p')
    {d reason reason' : String} (hr : Unmarked reason) (hr' : Unmarked reason') :
    (if p then passed d else failed d reason).labelled =
      (if p' then passed d else failed d reason').labelled :=
  Prod.ext (ite_description.trans ite_description.symm) (ite_judgement h hr hr')

theorem labelled_judgements {cs cs' : List CheckEntry}
    (h : cs.map CheckEntry.labelled = cs'.map CheckEntry.labelled) :
    cs.map CheckEntry.judgement = cs'.map CheckEntry.judgement := by
  have hsnd := congrArg (List.map Prod.snd) h
  rw [List.map_map, List.map_map] at hsnd
  exact hsnd

theorem judgement_passed {c c' : CheckEntry} (h : c.judgement = c'.judgement) :
    c.passed = c'.passed := congrArg Judgement.passed h

theorem judgements_any {cs cs' : List CheckEntry}
    (h : cs.map CheckEntry.judgement = cs'.map CheckEntry.judgement) :
    (cs.any fun c => !c.passed) = cs'.any fun c => !c.passed := by
  have hany : ∀ cs : List CheckEntry, (cs.any fun c => !c.passed) =
      (cs.map CheckEntry.judgement).any fun j => !j.passed := fun cs => by
    rw [List.any_map]
    rfl
  rw [hany, hany, h]

theorem rollUp_same {cs cs' : List CheckEntry} {message : String}
    (h : cs.map CheckEntry.judgement = cs'.map CheckEntry.judgement) :
    SameResult (.ofResult (rollUp cs message)) (.ofResult (rollUp cs' message)) := by
  unfold rollUp
  rw [judgements_any h]
  split
  · exact ⟨rfl, congrArg some h⟩
  · exact ⟨rfl, congrArg some h⟩

theorem SameResult.rfl {r : Settled (List CheckEntry)} : SameResult r r := ⟨Eq.refl _, Eq.refl _⟩

theorem SameSets.members {sets sets' : AddressSets} (h : SameSets sets sets') (chainId : ℕ) :
    SameMembers ((sets.on chainId).map toLowerCase) ((sets'.on chainId).map toLowerCase) :=
  fun _ => OrderedMap.mem_congr_eraseDups (h chainId)

theorem SameMembers.append {α : Type} {l l' m m' : List α} (h : SameMembers l l')
    (hm : SameMembers m m') : SameMembers (l ++ m) (l' ++ m') := fun x => by
  rw [List.mem_append, List.mem_append, h x, hm x]

theorem SameMembers.map {α β : Type} {l l' : List α} (h : SameMembers l l') (f : α → β) :
    SameMembers (l.map f) (l'.map f) := fun y => by
  simp only [List.mem_map, h _]

theorem SameMembers.any {α : Type} {l l' : List α} (h : SameMembers l l') (f : α → Bool) :
    l.any f = l'.any f := by
  refine Bool.eq_iff_iff.mpr ?_
  simp only [List.any_eq_true, h _]

theorem memLower_same {v v' : String} {accepted accepted' : List String}
    (hv : toLowerCase v = toLowerCase v')
    (h : SameMembers (accepted.map toLowerCase) (accepted'.map toLowerCase)) :
    memLower v accepted = memLower v' accepted' := by
  unfold memLower
  rw [hv]
  exact decide_eq_decide.mpr (h _)

theorem checkMembership_labelled {d v v' : String} {accepted accepted' : List String}
    (hv : toLowerCase v = toLowerCase v')
    (h : SameMembers (accepted.map toLowerCase) (accepted'.map toLowerCase)) :
    (checkMembership d v accepted).labelled = (checkMembership d v' accepted').labelled := by
  have hopen : Unmarked "value not on accepted list: " := ⟨_, _, _, Eq.refl _, by decide⟩
  refine ite_labelled ?_ (hopen.append v) (hopen.append v')
  rw [memLower_same hv h]

theorem checkMembership_same {d v v' : String} {accepted accepted' : List String}
    (hv : toLowerCase v = toLowerCase v')
    (h : SameMembers (accepted.map toLowerCase) (accepted'.map toLowerCase)) :
    (checkMembership d v accepted).judgement = (checkMembership d v' accepted').judgement :=
  congrArg Prod.snd (checkMembership_labelled hv h)

theorem isOnChainSet_same {sets sets' : AddressSets} (h : SameSets sets sets') {chainId : ℕ}
    {a a' : Address} (ha : toLowerCase a = toLowerCase a') :
    isOnChainSet sets chainId a = isOnChainSet sets' chainId a' := by
  have hmem : ∀ (s : AddressSets) (x : Address), isOnChainSet s chainId x = true ↔
      toLowerCase x ∈ (s.on chainId).map toLowerCase := fun s x => by
    rw [isOnChainSet_iff, List.mem_map]
  refine Bool.eq_iff_iff.mpr ?_
  rw [hmem, hmem, ha]
  exact h.members chainId _

end Guardian
