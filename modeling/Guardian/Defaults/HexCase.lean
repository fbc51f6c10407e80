import Guardian.Defaults.RespelledBinding
import Guardian.Defaults.RespelledSwap

/-!
# Letter case decides nothing

The batch over two spellings, and the law for all four check runners.
-/

namespace Guardian
open Effect Text Program

section Batch
variable {ctx : SigningContext} {deps deps' : A1Deps} {contract contract' : Address}
  {cs cs' : List CheckEntry}

theorem suffixed_judgement (c : CheckEntry) (contract : Address) :
    (suffixed c contract).judgement =
      if c.judgement.skipped then ⟨true, true, none⟩
      else if c.judgement.passed then ⟨true, false, none⟩
      else ⟨false, false, c.judgement.rogue⟩ := by
  rw [suffixed]
  show _ = if c.skipped then _ else if c.passed then _ else _
  split
  · rfl
  · split
    · rfl
    · refine congrArg (Judgement.mk false false) ?_
      cases hreason : c.reason with
      | some reason => rw [CheckEntry.judgement, hreason]; rfl
      | none =>
        have hopen : Unmarked "check failed" := ⟨_, _, _, rfl, by decide⟩
        rw [CheckEntry.judgement, hreason]
        exact hopen.listedRogues

theorem suffixedA1_same (h : cs.map CheckEntry.labelled = cs'.map CheckEntry.labelled) :
    (suffixedA1 cs contract).map CheckEntry.judgement =
      (suffixedA1 cs' contract').map CheckEntry.judgement := by
  have hpairs := forall₂_of_map_eq h
  clear h
  induction hpairs with
  | nil => rfl
  | @cons c c' cs cs' hc _ ih =>
    have hdescription : c.description = c'.description := congrArg Prod.fst hc
    have hjudgement : c.judgement = c'.judgement := congrArg Prod.snd hc
    have hdeadline : isA1DeadlineEntry c = isA1DeadlineEntry c' := by
      rw [isA1DeadlineEntry, isA1DeadlineEntry, hdescription]
    unfold suffixedA1 at ih ⊢
    rw [List.filter_cons, List.filter_cons, hdeadline]
    split
    · rw [List.map_cons, List.map_cons, List.map_cons, List.map_cons, ih, suffixed_judgement,
        suffixed_judgement, hjudgement]
    · exact ih

/-- Both add the same entries to the batch, or end it in the same way. -/
abbrev SameEntries : Settled (List CheckEntry) → Settled (List CheckEntry) → Prop :=
  SameOutcome fun cs cs' => cs.map CheckEntry.judgement = cs'.map CheckEntry.judgement

theorem nestedEntries_same {r r' : CheckResult} (h : SameCheckResult r r') :
    SameEntries (nestedEntries contract r) (nestedEntries contract' r') := by
  cases h with
  | ok h => exact suffixedA1_same h
  | rejected h => exact suffixedA1_same h
  | failed e =>
    cases e with
    | validationFailed message cs => exact suffixedA1_same rfl
    | stateConflict message cs => exact suffixedA1_same rfl
    | notFound => exact rfl
    | upstreamUnavailable => exact rfl
    | internalError => exact rfl

theorem runA1Batch_alike (hdeps : SameRequestDeps deps deps') (chainId deadline : ℕ)
    {contracts contracts' : List Address}
    (hcontracts : contracts.map toLowerCase = contracts'.map toLowerCase)
    (h : cs.map CheckEntry.judgement = cs'.map CheckEntry.judgement) :
    (runA1Batch ctx chainId deadline deps cs contracts).Alike respelling SameEntries
      (runA1Batch ctx chainId deadline deps' cs' contracts') := by
  have hpairs := forall₂_of_map_eq hcontracts
  clear hcontracts
  induction hpairs generalizing cs cs' with
  | nil => exact .pure h
  | @cons contract contract' _ _ hcontract _ ih =>
    have hbody : (⟨chainId, contract, deadline⟩ : A1Request).lowered =
        (⟨chainId, contract', deadline⟩ : A1Request).lowered :=
      congrArg (A1Request.mk chainId · deadline) hcontract
    refine (runA1_alike hdeps hbody).bind fun r r' hr => ?_
    have hnested : SameEntries (nestedEntries contract r) (nestedEntries contract' r') :=
      nestedEntries_same hr
    revert hnested
    generalize nestedEntries contract r = entries
    generalize nestedEntries contract' r' = entries'
    intro hnested
    match entries, entries', hnested with
    | .error _, .error _, hnested => exact .pure hnested
    | .ok entries, .ok entries', hnested =>
      refine ih ?_
      rw [List.map_append, List.map_append, h, show entries.map _ = entries'.map _ from hnested]

end Batch

section Whitelisting
variable {ctx : SigningContext} {deps deps' : RequestWhitelistingDeps}
  {body body' : RequestWhitelistingBody} {cs cs' : List CheckEntry}

theorem bookChecks_same (hdeps : SameWhitelistingDeps deps deps')
    (hbody : body.lowered = body'.lowered) :
    (bookChecks deps.policy body).map CheckEntry.judgement =
      (bookChecks deps'.policy body').map CheckEntry.judgement := by
  injection hbody with hchain hbook
  have hbooks := hdeps.acceptedWhitelistBooks
  unfold bookChecks
  rw [hchain]
  match deps.policy.acceptedWhitelistBooks, deps'.policy.acceptedWhitelistBooks, hbooks with
  | none, none, _ => rfl
  | some books, some books', .some hsets =>
    exact congrArg (fun j => [j]) (checkMembership_same hbook (hsets.members _))

theorem checkNonce_alike (hdeps : SameWhitelistingDeps deps deps')
    (hbody : body.lowered = body'.lowered)
    (h : cs.map CheckEntry.judgement = cs'.map CheckEntry.judgement) :
    (checkNonce deps ctx body cs).Alike respelling SameResult (checkNonce deps' ctx body' cs') := by
  injection hbody with _ hbook _ _ hnonce
  unfold checkNonce
  rw [hnonce, hdeps.maxNonceAboveFloor]
  cases toBigInt body'.nonce with
  | error e => exact .pure .rfl
  | ok nonce =>
    refine .call_bind ⟨rfl, hbook, hdeps.guardianSigner, rfl⟩ fun answer answer' hanswer => ?_
    obtain rfl : answer = answer' := eq_of_heq hanswer
    match answer with
    | .ok (floor, consumed) =>
      refine .pure (rollUp_same ?_)
      rw [List.map_append, List.map_append, h]
    | .error e =>
      dsimp only
      split
      · have hopen : ∀ book : Address, Unmarked (s!"whitelist book {book} did not answer " ++
            "validatorNonceFloor/isNonceConsumed (EOA or non-book contract)") := fun book =>
          have hlit : Unmarked "whitelist book " := ⟨_, _, _, rfl, by decide⟩
          ((hlit.append _).append _).append _
        refine .pure (rollUp_same ?_)
        rw [List.map_append, List.map_append, h, List.map_cons, List.map_cons,
          failed_judgement (hopen _), failed_judgement (hopen _)]
      · exact .pure .rfl

theorem runA4_alike (hdeps : SameWhitelistingDeps deps deps')
    (hbody : body.lowered = body'.lowered) (maxRequestContracts : ℤ) :
    (runA4 maxRequestContracts deps ctx body).Alike respelling SameResult
      (runA4 maxRequestContracts deps' ctx body') := by
  have hsame := hbody
  injection hsame with hchain hbook hoperation hcontracts hnonce hdeadline
  have hlength : body.requestContracts.length = body'.requestContracts.length := by
    simpa only [List.length_map] using congrArg List.length hcontracts
  have hahead : deps.policy.maxDeadlineSecondsAhead = deps'.policy.maxDeadlineSecondsAhead :=
    hdeps.a1.policy.maxDeadlineSecondsAhead
  have hgate := bookChecks_same hdeps hbody
  unfold runA4
  dsimp only
  rw [hlength, hdeadline, hahead, judgements_any hgate]
  split
  · exact .pure .rfl
  · split
    · refine .pure (rollUp_same ?_)
      rw [List.map_append, List.map_append, hgate]
    · have hbatch : (batchEntries deps ctx body (bookChecks deps.policy body)).Alike respelling
          SameEntries (batchEntries deps' ctx body' (bookChecks deps'.policy body')) := by
        unfold batchEntries
        rw [hoperation, hchain, hdeadline]
        cases body'.operation with
        | whitelist => exact runA1Batch_alike hdeps.a1 _ _ hcontracts hgate
        | unwhitelist => exact .pure hgate
      refine hbatch.bind fun r r' hr => ?_
      match r, r', hr with
      | .error _, .error _, hr =>
        obtain rfl := (show _ = _ from hr)
        exact .pure .rfl
      | .ok entries, .ok entries', hr =>
        exact checkNonce_alike hdeps hbody (by rw [List.map_append, List.map_append, hr])

end Whitelisting

/-- Over two spellings of one body, answered alike: the same requests in the same order up to
spelling, under the same cache keys, the same class, and entry by entry the same judgement. -/
def CaseBlind {Body : Type} (same : Body → Body → Prop)
    (runner runner' : CheckRunner Body) : Prop :=
  ∀ ctx body body' tr tr' r r', same body body' → Executes (runner ctx body) tr r →
    Executes (runner' ctx body') tr' r' → respelling.Agree tr tr' →
    List.Forall₂ respelling.Request tr tr' ∧ SameResult r r'

theorem caseBlind_of_alike {Body : Type} {same : Body → Body → Prop}
    {runner runner' : CheckRunner Body} (h : ∀ ctx body body', same body body' →
      (runner ctx body).Alike respelling SameResult (runner' ctx body')) :
    CaseBlind same runner runner' :=
  fun ctx body body' _ _ _ _ hbody hrun hrun' hagree =>
    (h ctx body body' hbody).executes hrun hrun' hagree

/-- Each runner is built from both policies or from neither, and decides alike. -/
theorem hex_case_never_decides :
    (∀ deps deps', SameRequestDeps deps deps' →
      SameOutcome (CaseBlind fun body body' => body.lowered = body'.lowered)
        (buildIntentRequestBindingChecks deps) (buildIntentRequestBindingChecks deps')) ∧
    (∀ policy policy', SameFundPolicy policy policy' →
      CaseBlind (fun body body' => body.lowered = body'.lowered)
        (buildIntentFundBindingChecks policy) (buildIntentFundBindingChecks policy')) ∧
    (∀ policy policy', SameSwapPolicy policy policy' →
      SameOutcome (CaseBlind fun body body' => body.lowered = body'.lowered)
        (buildIntentSwapChecks policy) (buildIntentSwapChecks policy')) ∧
    (∀ deps deps', SameWhitelistingDeps deps deps' →
      SameOutcome (CaseBlind fun body body' => body.lowered = body'.lowered)
        (buildRequestWhitelistingChecks deps) (buildRequestWhitelistingChecks deps')) ∧
    ∀ body body' : IntentRequestBindingBody, body.lowered = body'.lowered →
      body.a1.cacheKey = body'.a1.cacheKey := by
  have hassert : ∀ {p q : IntentRequestBindingPolicy} (builder : String), SameRequestPolicy p q →
      assertRetargetterPolicy builder p = assertRetargetterPolicy builder q := fun builder h => by
    rw [assertRetargetterPolicy, h.minRetargetterRepaymentBufferSeconds]
    rfl
  have ha1 : ∀ {body body' : IntentRequestBindingBody}, body.lowered = body'.lowered →
      body.a1.lowered = body'.a1.lowered := fun hbody => by
    have hrequest := congrArg IntentRequestBindingBody.a1 hbody
    exact hrequest
  refine ⟨fun deps deps' hdeps => ?_, fun policy policy' hp => ?_, fun policy policy' hp => ?_,
    fun deps deps' hdeps => ?_, fun body body' hbody => cacheKey_same (ha1 hbody)⟩
  · rw [buildIntentRequestBindingChecks, buildIntentRequestBindingChecks, hassert _ hdeps.policy]
    cases assertRetargetterPolicy "buildIntentRequestBindingChecks" deps'.policy with
    | error e => exact rfl
    | ok _ => exact caseBlind_of_alike fun ctx body body' hbody =>
        (runA1_alike hdeps (ha1 hbody)).map fun _ _ h => h.settled
  · exact caseBlind_of_alike fun ctx body body' hbody => runA2_alike hp hbody
  · rw [buildIntentSwapChecks, buildIntentSwapChecks, hp.swapPriceToleranceBps]
    split
    · exact rfl
    · exact caseBlind_of_alike fun ctx body body' hbody => runA3_alike hp hbody
  · rw [buildRequestWhitelistingChecks, buildRequestWhitelistingChecks, hdeps.maxRequestContracts]
    split
    · exact rfl
    · have hpolicy : SameRequestPolicy deps.policy.toIntentRequestBindingPolicy
          deps'.policy.toIntentRequestBindingPolicy := hdeps.a1.policy
      rw [hassert _ hpolicy]
      cases assertRetargetterPolicy "buildRequestWhitelistingChecks"
          deps'.policy.toIntentRequestBindingPolicy with
      | error e => exact rfl
      | ok _ => exact caseBlind_of_alike fun ctx body body' hbody => runA4_alike hdeps hbody _

namespace Sample

def fundPolicy (fund owner : Address) : IntentFundBindingPolicy :=
  ⟨100, fun _ => some [fund], fun _ => some [owner]⟩

def fundBody (fund : Address) : IntentFundBindingBody :=
  ⟨1, ZERO_ADDRESS, ⟨"7"⟩, fund, "0xbe", 1050⟩

def fundAnswer (fund owner : Address) : SigningEvent :=
  ⟨.fundReads 1 fund ZERO_ADDRESS 7,
    .ok ⟨owner, ⟨"0xBE", true⟩, ⟨"0xde", false⟩, ZERO_ADDRESS⟩⟩

def fundChecks : List CheckEntry :=
  [passed DEADLINE_CHECK_DESCRIPTION, passed "fund contract is on the accepted-funds list",
    passed fundOwnerDescription, passed pmDescription, passed noCurrentFundDescription,
    skipped depositorRoleDescription]

end Sample

theorem hex_case_never_decides_fund : ∃ tr tr' r r',
    Executes (buildIntentFundBindingChecks (Sample.fundPolicy "0xFA" "0xAC") Sample.ctx
      (Sample.fundBody "0xfa")) tr r ∧
    Executes (buildIntentFundBindingChecks (Sample.fundPolicy "0xfa" "0xaC") Sample.ctx
      (Sample.fundBody "0xFa")) tr' r' ∧
    List.Forall₂ respelling.Request tr tr' ∧ SameResult r r' := by
  have hupper : Executes (buildIntentFundBindingChecks (Sample.fundPolicy "0xFA" "0xAC")
      Sample.ctx (Sample.fundBody "0xfa")) [Sample.fundAnswer "0xfa" "0xac"]
      (.ok Sample.fundChecks) := executes_perform.mpr ⟨_, [], rfl, .refl _⟩
  have hlower : Executes (buildIntentFundBindingChecks (Sample.fundPolicy "0xfa" "0xaC")
      Sample.ctx (Sample.fundBody "0xFa")) [Sample.fundAnswer "0xFa" "0xAc"]
      (.ok Sample.fundChecks) := executes_perform.mpr ⟨_, [], rfl, .refl _⟩
  have hsets : ∀ {a a' : Address}, toLowerCase a = toLowerCase a' →
      SameSets (fun _ => some [a]) (fun _ => some [a']) := fun h _ =>
    congrArg (fun x => [x].eraseDups) h
  have hpolicy : SameFundPolicy (Sample.fundPolicy "0xFA" "0xAC")
    (Sample.fundPolicy "0xfa" "0xaC") :=
    ⟨hsets (by decide), hsets (by decide), rfl⟩
  have hagree : respelling.Agree [Sample.fundAnswer "0xfa" "0xac"]
    [Sample.fundAnswer "0xFa" "0xAc"] := by
    intro e he _
    obtain rfl := List.mem_singleton.mp he
    exact ⟨by decide, by decide, by decide⟩
  exact ⟨_, _, _, _, hupper, hlower, hex_case_never_decides.2.1 _ _ hpolicy Sample.ctx _ _ _ _ _ _
    (by decide) hupper hlower hagree⟩

end Guardian
