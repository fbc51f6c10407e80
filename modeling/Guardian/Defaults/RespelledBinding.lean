import Guardian.Defaults.RespelledScan

/-!
# The A.1 runner over two spellings

Fetch, evaluation and cache flow. The cache key is made of the lower-cased contract, so
both runs use the same key, and what they write differs in spelling only.
-/

namespace Guardian
open Effect Text Program

section Classify
variable {p q : IntentRequestBindingPolicy} {chainId : ℕ}

theorem factoryChecks_lowered (p : IntentRequestBindingPolicy) (chainId : ℕ) :
    (factoryChecks p chainId).map FactoryCheck.lowered =
      ((p.acceptedRequestFactories.on chainId).map toLowerCase).map (fun f => (f, "isRequest")) ++
        ((p.acceptedFlashLoanRequestFactories.on chainId).map toLowerCase).map
          (fun f => (f, "isFlashLoanRequest")) := by
  rw [factoryChecks, List.map_append, List.map_map, List.map_map, List.map_map, List.map_map]
  rfl

theorem factoryChecks_same (h : SameRequestPolicy p q) :
    ((factoryChecks p chainId).map FactoryCheck.lowered).eraseDups =
      ((factoryChecks q chainId).map FactoryCheck.lowered).eraseDups := by
  have hmap : ∀ {as bs : List Address}, as.eraseDups = bs.eraseDups →
      ∀ name : String, (as.map fun f => (f, name)).eraseDups =
        (bs.map fun f => (f, name)).eraseDups := fun hs name => by
    rw [← List.filterMap_eq_map']
    exact OrderedMap.eraseDups_filterMap_congr hs _
  rw [factoryChecks_lowered, factoryChecks_lowered]
  exact OrderedMap.eraseDups_append_congr (hmap (h.acceptedRequestFactories chainId) _)
    (hmap (h.acceptedFlashLoanRequestFactories chainId) _)

theorem classifyFactories_matched (slots : List (FactoryCheck × Slot Bool)) :
    (classifyFactories slots).1.entries.map Prod.fst =
      (slots.filterMap fun s =>
        if s.2 = .success true then some s.1.lowered.1 else none).eraseDups := by
  have hset : ∀ acc : OrderedMap Address Address × List Address,
      (slots.foldl (fun acc s => classifySlot acc s.1 s.2) acc).1 =
        (slots.filterMap fun s =>
          if s.2 = .success true then some (s.1.lowered.1, s.1.factory) else none).foldl
          (fun m w => m.set w.1 w.2) acc.1 := by
    induction slots with
    | nil => exact fun _ => rfl
    | cons s slots ih =>
      intro acc
      obtain ⟨check, slot⟩ := s
      rw [List.foldl_cons, ih]
      match slot with
      | .failure e => rfl
      | .success true => rfl
      | .success false => rfl
  rw [classifyFactories, hset, OrderedMap.keys_foldl_set, List.map_filterMap]
  refine congrArg List.eraseDups (List.filterMap_congr fun s _ => ?_)
  split <;> rfl

theorem classifyFactories_failed (slots : List (FactoryCheck × Slot Bool)) :
    (classifyFactories slots).2 = [] ↔ ∀ s ∈ slots, isFailure s.2 = false := by
  have hfailed : ∀ acc : OrderedMap Address Address × List Address,
      (slots.foldl (fun acc s => classifySlot acc s.1 s.2) acc).2 = [] ↔
        acc.2 = [] ∧ ∀ s ∈ slots, isFailure s.2 = false := by
    induction slots with
    | nil => simp
    | cons s slots ih =>
      intro acc
      obtain ⟨check, slot⟩ := s
      rw [List.foldl_cons, ih, List.forall_mem_cons]
      match slot with
      | .failure e => simp [classifySlot, isFailure]
      | .success true => simp [classifySlot, isFailure]
      | .success false => simp [classifySlot, isFailure]
  rw [classifyFactories, hfailed]
  exact and_iff_right rfl

theorem zip_map_self {α β : Type} (l : List α) (f : α → β) :
    l.zip (l.map f) = l.map fun a => (a, f a) := by
  induction l with
  | nil => rfl
  | cons a l ih => rw [List.map_cons, List.zip_cons_cons, List.map_cons, ih]

theorem classifyFactories_same (h : SameRequestPolicy p q) {slots slots' : List (Slot Bool)}
    (hslots : SameSlots FactoryCheck.lowered (factoryChecks p chainId) (factoryChecks q chainId)
      slots slots') :
    ((classifyFactories ((factoryChecks p chainId).zip slots)).1.entries.map Prod.snd).map
        toLowerCase =
      ((classifyFactories ((factoryChecks q chainId).zip slots')).1.entries.map Prod.snd).map
        toLowerCase ∧
    ((classifyFactories ((factoryChecks p chainId).zip slots)).2 = [] ↔
      (classifyFactories ((factoryChecks q chainId).zip slots')).2 = []) := by
  obtain ⟨view, rfl, rfl⟩ := hslots
  have hsame : ((factoryChecks p chainId).map FactoryCheck.lowered).eraseDups =
      ((factoryChecks q chainId).map FactoryCheck.lowered).eraseDups := factoryChecks_same h
  constructor
  · have hvalues : ∀ checks : List FactoryCheck,
        ((classifyFactories (checks.zip (checks.map (view ∘ FactoryCheck.lowered)))).1.entries.map
          Prod.snd).map toLowerCase =
        ((checks.map FactoryCheck.lowered).filterMap fun k =>
          if view k = .success true then some k.1 else none).eraseDups := by
      intro checks
      have hkeys := classifyFactories_matched
        (checks.zip (checks.map (view ∘ FactoryCheck.lowered)))
      rw [zip_map_self, List.filterMap_map] at hkeys
      rw [zip_map_self, List.filterMap_map, List.map_map]
      refine Eq.trans ?_ hkeys
      exact List.map_congr_left fun e he => (classifyFactories_keys e he).symm
    rw [hvalues, hvalues]
    exact OrderedMap.eraseDups_filterMap_congr hsame _
  · have hfailed : ∀ checks : List FactoryCheck,
        (classifyFactories (checks.zip (checks.map (view ∘ FactoryCheck.lowered)))).2 = [] ↔
          ∀ k ∈ checks.map FactoryCheck.lowered, isFailure (view k) = false := by
      intro checks
      rw [classifyFactories_failed, zip_map_self, List.forall_mem_map, List.forall_mem_map]
      rfl
    rw [hfailed, hfailed]
    simp only [OrderedMap.mem_congr_eraseDups hsame]

end Classify

section Fetch
variable {ctx : SigningContext} {p q : IntentRequestBindingPolicy} {chainId : ℕ}
  {rc rc' : Address}

def FetchedA1.lowered : FetchedA1 → FetchedA1
  | .onChain data => .onChain data.lowered
  | .retargetter data => .retargetter
    ⟨toLowerCase data.retargetter, toLowerCase data.attachedRequest, data.repaymentDeadline⟩

abbrev SameFetched : Except SigningError FetchedA1 → Except SigningError FetchedA1 → Prop :=
  SameOutcome fun f f' => f.lowered = f'.lowered

theorem fetchRetargetterOperation_alike {retargetter retargetter' : Address}
    (h : toLowerCase retargetter = toLowerCase retargetter') :
    (fetchRetargetterOperation ctx retargetter).Alike respelling SameFetched
      (fetchRetargetterOperation ctx retargetter') := by
  refine .call_bind ⟨rfl, h⟩ fun answer answer' hanswer => ?_
  match answer, answer', hanswer with
  | .error _, .error _, _ => exact .pure rfl
  | .ok operation, .ok operation', hanswer =>
    have hoperation : operation.lowered = operation'.lowered := hanswer
    injection hoperation with hrequest hdeadline
    refine .pure ?_
    show FetchedA1.retargetter _ = FetchedA1.retargetter _
    rw [h, hrequest, hdeadline]

theorem predatesWindow_alike (hp : SameRequestPolicy p q) (hrc : toLowerCase rc = toLowerCase rc')
    (latestBlock : ℕ) : (predatesWindow ctx rc p latestBlock).Alike respelling Eq
      (predatesWindow ctx rc' q latestBlock) := by
  unfold predatesWindow
  rw [hp.onLookbackExhausted, hp.eventScanMaxLookbackBlocks]
  split
  · refine .call_bind ⟨rfl, hrc, rfl⟩ fun answer answer' hanswer => ?_
    obtain rfl : answer = answer' := eq_of_heq hanswer
    cases answer with
    | ok code => exact .pure rfl
    | error e => exact .pure rfl
  · exact .pure rfl

section Roles
variable {owner owner' first first' : Address} {matched matched' : List Address}

theorem scanArgs_same (hp : SameRequestPolicy p q) (hrc : toLowerCase rc = toLowerCase rc')
    (hmatched : matched.map toLowerCase = matched'.map toLowerCase) (latestBlock : ℕ) :
    SameArgs (scanArgs ctx rc p matched latestBlock) (scanArgs ctx rc' q matched' latestBlock) :=
  ⟨hmatched, hrc, rfl, rfl, hp.eventScanBlockRange, hp.eventScanMaxLookbackBlocks,
    hp.eventScanDeadlineMs, rfl⟩

theorem scanRoles_alike (hp : SameRequestPolicy p q) (hrc : toLowerCase rc = toLowerCase rc')
    (howner : toLowerCase owner = toLowerCase owner')
    (hfirst : toLowerCase first = toLowerCase first')
    (hmatched : matched.map toLowerCase = matched'.map toLowerCase) (latestBlock : ℕ) :
    (scanRoles ctx rc p owner first matched latestBlock).Alike respelling SameFetched
      (scanRoles ctx rc' q owner' first' matched' latestBlock) := by
  refine (scanRoleHolders_alike (scanArgs_same hp hrc hmatched latestBlock)).bind
    fun r r' hr => ?_
  match r, r', hr with
  | .error _, .error _, _ => exact .pure rfl
  | .ok (.tooOld holders), .ok (.tooOld holders'), hr =>
    obtain rfl : holders = holders' := hr
    refine .pure ?_
    show FetchedA1.onChain (.tooOld _ _ _) = FetchedA1.onChain (.tooOld _ _ _)
    rw [hfirst, howner]
  | .ok (.resolved holders block factory), .ok (.resolved holders' block' factory'), hr =>
    obtain ⟨rfl, -, hfactory⟩ := hr
    have hdeployed : toLowerCase (factory.getD first) = toLowerCase (factory'.getD first') := by
      match factory, factory', hfactory with
      | none, none, _ => exact hfirst
      | some f, some f', hfactory => exact Option.some.inj hfactory
    refine .pure ?_
    show FetchedA1.onChain (.resolved _ _ _) = FetchedA1.onChain (.resolved _ _ _)
    rw [hdeployed, howner]

theorem fetchRoles_alike (hp : SameRequestPolicy p q) (hrc : toLowerCase rc = toLowerCase rc')
    (howner : toLowerCase owner = toLowerCase owner')
    (hfirst : toLowerCase first = toLowerCase first')
    (hmatched : matched.map toLowerCase = matched'.map toLowerCase) :
    (fetchRoles ctx rc p owner first matched).Alike respelling SameFetched
      (fetchRoles ctx rc' q owner' first' matched') := by
  refine .call_bind rfl fun block block' hblock => ?_
  obtain rfl : block = block' := eq_of_heq hblock
  cases block with
  | error e => exact .pure rfl
  | ok latestBlock =>
    refine (predatesWindow_alike hp hrc latestBlock).bind fun predates _ hpredates => ?_
    subst hpredates
    cases predates with
    | true =>
      refine .pure ?_
      show FetchedA1.onChain (.tooOld _ _ _) = FetchedA1.onChain (.tooOld _ _ _)
      rw [hfirst, howner]
    | false => exact scanRoles_alike hp hrc howner hfirst hmatched latestBlock

end Roles

theorem fetchA1OnChain_alike (hp : SameRequestPolicy p q)
    (hrc : toLowerCase rc = toLowerCase rc') :
    (fetchA1OnChain ctx chainId rc p).Alike respelling SameFetched
      (fetchA1OnChain ctx chainId rc' q) := by
  have hmembers : SameMembers ((factoryChecks p chainId).map FactoryCheck.lowered)
      ((factoryChecks q chainId).map FactoryCheck.lowered) :=
    fun _ => OrderedMap.mem_congr_eraseDups (factoryChecks_same hp)
  refine .call_bind ⟨rfl, hrc, hmembers⟩ fun stage1 stage1' hstage1 => ?_
  match stage1, stage1', hstage1 with
  | .error _, .error _, _ => exact .pure rfl
  | .ok (.failure e, _), .ok (.failure e', _), hstage1 =>
    obtain rfl : e = e' := by
      have hslot := hstage1.1
      injection hslot
    dsimp only
    split
    · exact .pure rfl
    · exact .pure rfl
  | .ok (.success owner, slots), .ok (.success owner', slots'), hstage1 =>
    have howner : toLowerCase owner = toLowerCase owner' := by
      have hslot := hstage1.1
      injection hslot
    obtain ⟨hmatched, hfailed⟩ := classifyFactories_same hp hstage1.2
    dsimp only
    rw [show isAcceptedRetargetter owner chainId p = isAcceptedRetargetter owner' chainId q from
      isOnChainSet_same hp.acceptedRetargetters howner]
    split
    · exact fetchRetargetterOperation_alike howner
    · revert hmatched
      generalize (classifyFactories ((factoryChecks p chainId).zip slots.toList)).1.entries.map
        Prod.snd = matched
      generalize (classifyFactories ((factoryChecks q chainId).zip slots'.toList)).1.entries.map
        Prod.snd = matched'
      intro hmatched
      match matched, matched', hmatched with
      | [], [], _ =>
        simp only [ne_eq, hfailed]
        split
        · exact .pure rfl
        · exact .pure rfl
      | first :: rest, first' :: rest', hmatched =>
        exact fetchRoles_alike hp hrc howner (List.cons.inj hmatched).1 hmatched

end Fetch
section Evaluation
variable {p q : IntentRequestBindingPolicy} {chainId : ℕ} {deadlineCheck : CheckEntry}

theorem rogueHolders_same {holders accepted accepted' : List Address}
    (h : SameMembers (accepted.map toLowerCase) (accepted'.map toLowerCase)) :
    rogueHolders holders accepted = rogueHolders holders accepted' :=
  List.filter_congr fun holder _ => by rw [memLower_same rfl h]

theorem roleCheck_same (hp : SameRequestPolicy p q) {data : RoleMap ⊕ RoleMap} {d : String}
    {roleMask : ℕ} {accepted accepted' : List Address}
    (h : SameMembers (accepted.map toLowerCase) (accepted'.map toLowerCase)) :
    roleCheck data p d roleMask accepted = roleCheck data q d roleMask accepted' := by
  cases data with
  | inl holders => simp only [roleCheck, checkSubset, rogueHolders_same h]
  | inr partialHolders =>
    simp only [roleCheck, checkPartialHolders, rogueHolders_same h, hp.onLookbackExhausted]

theorem evaluateRoles_same (hp : SameRequestPolicy p q) {factory factory' owner owner' : Address}
    (hfactory : toLowerCase factory = toLowerCase factory')
    (howner : toLowerCase owner = toLowerCase owner') (data : RoleMap ⊕ RoleMap) :
    (evaluateRoles factory owner data chainId p deadlineCheck).map CheckEntry.labelled =
      (evaluateRoles factory' owner' data chainId q deadlineCheck).map CheckEntry.labelled := by
  have hflash := hp.acceptedFlashLoanRequestFactories.members chainId
  have hall := (hp.acceptedRequestFactories.members chainId).append hflash
  rw [← List.map_append, ← List.map_append] at hall
  have howners := checkMembership_labelled (d := ownerDescription) howner
    (hp.acceptedOwners.members chainId)
  unfold evaluateRoles
  dsimp only
  rw [memLower_same hfactory hall, memLower_same hfactory hflash]
  split
  · have hopen : ∀ f : Address, (failed factoryDescription
        s!"previously-matched factory {f} is no longer in the accepted-factories list").labelled =
        (factoryDescription, ⟨false, false, none⟩) := fun f => by
      have hlit : Unmarked "previously-matched factory " := ⟨_, _, _, rfl, by decide⟩
      exact Prod.ext rfl (failed_judgement ((hlit.append _).append _))
    simp only [provenanceFailed, List.map_cons, hopen]
  · split
    · simp only [List.map_cons, howners, roleCheck_same hp
        (hp.acceptedFlashLoanRequestExecutors.members chainId)]
    · simp only [List.map_cons, howners, roleCheck_same hp (hp.acceptedPullers.members chainId),
        roleCheck_same hp (hp.acceptedConsumers.members chainId)]

theorem evaluateA1_same (hp : SameRequestPolicy p q) {data data' : A1OnChainData}
    (h : data.lowered = data'.lowered) :
    (evaluateA1 data chainId p deadlineCheck).map CheckEntry.labelled =
      (evaluateA1 data' chainId q deadlineCheck).map CheckEntry.labelled := by
  match data, data', h with
  | .noFactory, .noFactory, _ => rfl
  | .tooOld factory owner holders, .tooOld factory' owner' holders', h =>
    injection h with hfactory howner hholders
    rw [evaluateA1, evaluateA1, hholders]
    exact evaluateRoles_same hp hfactory howner _
  | .resolved factory owner holders, .resolved factory' owner' holders', h =>
    injection h with hfactory howner hholders
    rw [evaluateA1, evaluateA1, hholders]
    exact evaluateRoles_same hp hfactory howner _

theorem evaluateRetargetter_same (hp : SameRequestPolicy p q)
    {data data' : RetargetterOnChainData}
    (h : (FetchedA1.retargetter data).lowered = (FetchedA1.retargetter data').lowered)
    {rc rc' : Address} (hrc : toLowerCase rc = toLowerCase rc') (now : ℤ) :
    (evaluateRetargetter data rc now p deadlineCheck).map CheckEntry.labelled =
      (evaluateRetargetter data' rc' now q deadlineCheck).map CheckEntry.labelled := by
  injection h with hdata
  injection hdata with _ hattached hdeadline
  have hopen : ∀ d : RetargetterOnChainData, Unmarked (if d.attachedRequest = ZERO_ADDRESS then
      s!"retargetter {d.retargetter} has no active operation"
    else
      s!"retargetter {d.retargetter} is attached to {d.attachedRequest}, not this contract") := by
    intro d
    have hlit : Unmarked "retargetter " := ⟨_, _, _, rfl, by decide⟩
    split
    · exact (hlit.append _).append _
    · exact (((hlit.append _).append _).append _).append _
  have hiff : toLowerCase data.attachedRequest = toLowerCase rc ↔
      toLowerCase data'.attachedRequest = toLowerCase rc' := by rw [hattached, hrc]
  have hentry := ite_labelled (d := attachedDescription) hiff (hopen data) (hopen data')
  unfold evaluateRetargetter
  rw [hp.minRetargetterRepaymentBufferSeconds, hdeadline]
  simp only [List.map_cons, hentry]

/-- The results of one A.1 call: entry by entry the same, under the same descriptions. -/
inductive SameCheckResult : CheckResult → CheckResult → Prop where
  | ok {cs cs' : List CheckEntry} (h : cs.map CheckEntry.labelled = cs'.map CheckEntry.labelled) :
      SameCheckResult (.ok cs) (.ok cs')
  | rejected {message : String} {cs cs' : List CheckEntry}
      (h : cs.map CheckEntry.labelled = cs'.map CheckEntry.labelled) :
      SameCheckResult (.error (.validationFailed message cs))
        (.error (.validationFailed message cs'))
  | failed (e : SigningError) : SameCheckResult (.error e) (.error e)

theorem rollupA1_same {cs cs' : List CheckEntry}
    (h : cs.map CheckEntry.labelled = cs'.map CheckEntry.labelled) :
    SameCheckResult (rollupA1 cs) (rollupA1 cs') := by
  unfold rollupA1 rollUp
  rw [judgements_any (labelled_judgements h)]
  split
  · exact .rejected h
  · exact .ok h

theorem SameCheckResult.settled {r r' : CheckResult} (h : SameCheckResult r r') :
    SameResult (.ofResult r) (.ofResult r') := by
  cases h with
  | ok h => exact ⟨rfl, congrArg some (labelled_judgements h)⟩
  | rejected h => exact ⟨rfl, congrArg some (labelled_judgements h)⟩
  | failed e => exact .rfl

end Evaluation

section Runner
variable {ctx : SigningContext} {deps deps' : A1Deps} {body body' : A1Request}

def A1Request.lowered (body : A1Request) : A1Request :=
  { body with requestContract := toLowerCase body.requestContract }

theorem cacheKey_same (h : body.lowered = body'.lowered) : body.cacheKey = body'.cacheKey := by
  injection h with hchain hrc
  rw [A1Request.cacheKey, A1Request.cacheKey, hchain, hrc]

theorem usableEntry_same {p q : IntentRequestBindingPolicy} (hp : SameRequestPolicy p q)
    (chainId : ℕ) {data data' : A1OnChainData} (h : data.lowered = data'.lowered) :
    Option.Rel (fun v v' : A1OnChainData => v.lowered = v'.lowered)
      (usableEntry chainId p data) (usableEntry chainId q data') := by
  have hlisted : ∀ {owner owner' : Address}, toLowerCase owner = toLowerCase owner' →
      isAcceptedRetargetter owner chainId p = isAcceptedRetargetter owner' chainId q :=
    fun howner => isOnChainSet_same hp.acceptedRetargetters howner
  match data, data', h with
  | .noFactory, .noFactory, _ => exact .some rfl
  | .tooOld _ owner _, .tooOld _ owner' _, h =>
    have howner : toLowerCase owner = toLowerCase owner' := by
      injection h
    rw [usableEntry, usableEntry, hlisted howner]
    split
    · exact .none
    · exact .some h
  | .resolved _ owner _, .resolved _ owner' _, h =>
    have howner : toLowerCase owner = toLowerCase owner' := by
      injection h
    rw [usableEntry, usableEntry, hlisted howner]
    split
    · exact .none
    · exact .some h

theorem readCache_alike (hdeps : SameRequestDeps deps deps')
    (hbody : body.lowered = body'.lowered) :
    (readCache body deps).Alike respelling
      (Option.Rel fun v v' : A1OnChainData => v.lowered = v'.lowered) (readCache body' deps') := by
  have hchain : body.chainId = body'.chainId := by
    injection hbody
  unfold readCache
  rw [hdeps.cache, cacheKey_same hbody, hchain]
  split
  · refine .call_bind rfl fun hit hit' hhit => ?_
    match hit, hit', hhit with
    | .error _, .error _, _ => exact .pure .none
    | .ok none, .ok none, _ => exact .pure .none
    | .ok (some data), .ok (some data'), .some hdata =>
      exact .pure (usableEntry_same hdeps.policy _ hdata)
  · exact .pure .none

theorem writeCache_alike (hdeps : SameRequestDeps deps deps') (hbody : body.lowered = body'.lowered)
    {data data' : A1OnChainData} (h : data.lowered = data'.lowered) :
    (writeCache body deps data).Alike respelling Eq (writeCache body' deps' data') := by
  have hprobe : isProbeOnly data = isProbeOnly data' := by
    match data, data', h with
    | .noFactory, .noFactory, _ => rfl
    | .tooOld _ _ holders, .tooOld _ _ holders', h =>
      injection h with _ _ hholders
      rw [hholders]
      cases holders' <;> rfl
    | .resolved .., .resolved .., _ => rfl
  unfold writeCache
  rw [hdeps.cache, hdeps.cacheTtlMs, cacheKey_same hbody, hprobe]
  split
  · exact .call_bind ⟨rfl, h, rfl⟩ fun _ _ _ => .pure rfl
  · exact .pure rfl

theorem runA1_alike (hdeps : SameRequestDeps deps deps') (hbody : body.lowered = body'.lowered) :
    (runA1 ctx body deps).Alike respelling SameCheckResult (runA1 ctx body' deps') := by
  have hsame := hbody
  injection hsame with hchain hrc hdeadline
  have hp := hdeps.policy
  unfold runA1
  dsimp only
  rw [hdeadline, hp.maxDeadlineSecondsAhead, hchain,
    show isTrustedRequestContract body.requestContract body'.chainId deps.policy =
      isTrustedRequestContract body'.requestContract body'.chainId deps'.policy from
      isOnChainSet_same hp.trustedRequestContracts hrc]
  split
  · exact .pure (rollupA1_same rfl)
  · refine (readCache_alike hdeps hbody).bind fun hit hit' hhit => ?_
    cases hhit with
    | some hdata => exact .pure (rollupA1_same (evaluateA1_same hp hdata))
    | none =>
      refine (fetchA1OnChain_alike hp hrc).bind fun r r' hr => ?_
      match r, r', hr with
      | .error e, .error e', hr =>
        obtain rfl : e = e' := hr
        exact .pure (.failed e)
      | .ok (.retargetter data), .ok (.retargetter data'), hr =>
        exact .pure (rollupA1_same (evaluateRetargetter_same hp hr hrc _))
      | .ok (.onChain data), .ok (.onChain data'), hr =>
        have hdata : data.lowered = data'.lowered := by
          injection hr
        refine (writeCache_alike hdeps hbody hdata).bind fun _ _ _ => ?_
        exact .pure (rollupA1_same (evaluateA1_same hp hdata))

end Runner
end Guardian
