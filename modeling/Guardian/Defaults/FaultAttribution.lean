import Guardian.Defaults.NoFalseRejection
import Guardian.Defaults.RespelledBinding

/-!
# Whose fault a failed first stage is

One multicall answers for the client's contract and for the operator's factories. What it
says about each decides between the rejection that is cached, an upstream error that never
is, and going on.
-/

namespace Guardian
open Effect Text Program

section Attribution
variable (ctx : SigningContext) (body : A1Request) (deps : A1Deps) (owner : Slot Address)
  (slots : List (Slot Bool)) (tail : List SigningEvent) (r : CheckResult)

def A1Request.deadlineCheck : CheckEntry :=
  checkDeadline ctx.nowUnixSeconds body.deadline deps.policy.maxDeadlineSecondsAhead

def noFactoryRejection : CheckResult :=
  rollupA1 (provenanceFailed
    "no accepted factory recognises this contract as one of its deployments"
    (body.deadlineCheck ctx deps))

def IsUpstreamError : Prop := ∃ message status, r = .error (.upstreamUnavailable message status)

def EndsAtStageOne : Prop :=
  tail = [] ∨ ∃ retargetter answer, tail = [⟨.operation ctx.chainId retargetter, answer⟩]

def ClientBlamed : Prop :=
  (∃ e, owner = .failure e ∧ isDeterministicContractCallFailure e ["owner"] = true) ∨
    ∃ a, owner = .success a ∧ isAcceptedRetargetter a body.chainId deps.policy = false ∧
      ∀ slot ∈ slots, slot = .success false

def UpstreamBlamed : Prop :=
  (∃ e, owner = .failure e ∧ isDeterministicContractCallFailure e ["owner"] = false) ∨
    (∃ a, owner = .success a ∧ isAcceptedRetargetter a body.chainId deps.policy = false ∧
      .success true ∉ slots ∧ ∃ e, .failure e ∈ slots) ∨
    ∃ a e, owner = .success a ∧ isAcceptedRetargetter a body.chainId deps.policy = true ∧
      tail = [⟨.operation ctx.chainId a, (.error e : Except RpcError RetargetterOperation)⟩]

def judgeFetched : Except SigningError FetchedA1 → CheckResult
  | .error e => .error e
  | .ok (.retargetter data) => rollupA1 (evaluateRetargetter data body.requestContract
      ctx.nowUnixSeconds deps.policy (body.deadlineCheck ctx deps))
  | .ok (.onChain data) =>
    rollupA1 (evaluateA1 data body.chainId deps.policy (body.deadlineCheck ctx deps))

/-- The matched factories are those that answered `true`, whatever the others did. -/
def Matches (checks : List FactoryCheck) (matched : List Address) : Prop :=
  (∀ s ∈ checks.zip slots, s.2 = .success true →
    ∃ f ∈ matched, toLowerCase f = toLowerCase s.1.factory) ∧
  ∀ f ∈ matched, ∃ s ∈ checks.zip slots, s.2 = .success true ∧ s.1.factory = f

/-- Evaluation goes on with the retargetter's operation, or with the matched factories. -/
def Proceeds : Prop :=
  ∃ a, owner = .success a ∧
    ((isAcceptedRetargetter a body.chainId deps.policy = true ∧ ∃ operation,
      tail = [⟨.operation ctx.chainId a, .ok operation⟩] ∧
      r = judgeFetched ctx body deps
        (.ok (.retargetter ⟨a, operation.request, operation.repaymentDeadline⟩))) ∨
    isAcceptedRetargetter a body.chainId deps.policy = false ∧ ∃ first rest fetched,
      Matches slots (factoryChecks deps.policy body.chainId) (first :: rest) ∧
      Executes (fetchRoles ctx body.requestContract deps.policy a first (first :: rest))
        tail fetched ∧
      r = judgeFetched ctx body deps fetched)

structure StageOneOfA1 : Prop where
  client : r = noFactoryRejection ctx body deps ↔ ClientBlamed body deps owner slots
  upstream : IsUpstreamError r ∧ EndsAtStageOne ctx tail ↔
    UpstreamBlamed ctx body deps owner slots tail
  proceeds : ¬ClientBlamed body deps owner slots →
    ¬UpstreamBlamed ctx body deps owner slots tail → Proceeds ctx body deps owner slots tail r

end Attribution

section Factories
variable {checks : List FactoryCheck} {slots : List (Slot Bool)}

theorem mem_zip_slots (hlength : slots.length = checks.length) {slot : Slot Bool} :
    slot ∈ slots ↔ ∃ s ∈ checks.zip slots, s.2 = slot := by
  conv_lhs => rw [← List.map_snd_zip (hlength.le : slots.length ≤ checks.length)]
  exact List.mem_map

theorem matched_of_entries {first : Address} {rest : List Address}
    (h : (classifyFactories (checks.zip slots)).1.entries.map Prod.snd = first :: rest) :
    Matches slots checks (first :: rest) := by
  rw [← h]
  constructor
  · intro s hs htrue
    obtain ⟨f, hf⟩ := classifyFactories_covers hs htrue
    exact ⟨f, List.mem_map_of_mem hf, (classifyFactories_keys _ hf).symm⟩
  · intro f hf
    obtain ⟨entry, hentry, rfl⟩ := List.mem_map.mp hf
    exact classifyFactories_entries hentry

theorem unmatched_of_entries (hlength : slots.length = checks.length)
    (h : (classifyFactories (checks.zip slots)).1.entries.map Prod.snd = []) :
    .success true ∉ slots := by
  intro hmem
  obtain ⟨s, hs, htrue⟩ := (mem_zip_slots hlength).mp hmem
  obtain ⟨f, hf⟩ := classifyFactories_covers hs htrue
  rw [List.map_eq_nil_iff.mp h] at hf
  cases hf

theorem failed_iff (hlength : slots.length = checks.length) :
    (classifyFactories (checks.zip slots)).2 ≠ [] ↔ ∃ e, .failure e ∈ slots := by
  rw [ne_eq, classifyFactories_failed]
  push Not
  constructor
  · intro h
    obtain ⟨⟨check, slot⟩, hs, hfailed⟩ := h
    match slot, hfailed with
    | .failure e, _ => exact ⟨e, (mem_zip_slots hlength).mpr ⟨_, hs, rfl⟩⟩
  · intro h
    obtain ⟨e, he⟩ := h
    obtain ⟨s, hs, hslot⟩ := (mem_zip_slots hlength).mp he
    exact ⟨s, hs, by rw [hslot]; simp [isFailure]⟩

theorem eq_false_of_unmatched (htrue : .success true ∉ slots) (hfailed : ¬∃ e, .failure e ∈ slots) :
    ∀ slot ∈ slots, slot = .success false := by
  intro slot hslot
  match slot, hslot with
  | .success true, hslot => exact absurd hslot htrue
  | .success false, _ => rfl
  | .failure e, hslot => exact absurd ⟨e, hslot⟩ hfailed

end Factories

section Results
variable {ctx : SigningContext} {body : A1Request} {deps : A1Deps} {owner : Slot Address}
  {slots : List (Slot Bool)} {tr tail : List SigningEvent} {r : CheckResult}

theorem rollupA1_not_upstream {checks : List CheckEntry} : ¬IsUpstreamError (rollupA1 checks) := by
  intro h
  obtain ⟨message, status, h⟩ := h
  cases (rollUp_error.mp h).1

theorem rollupA1_injective {checks checks' : List CheckEntry}
    (h : rollupA1 checks = rollupA1 checks') : checks = checks' := by
  have hchecks := congrArg (fun r => (Settled.ofResult r).checks) h
  simp only [rollupA1, rollUp_checks] at hchecks
  exact Option.some.inj hchecks

theorem error_not_noFactory {m : String} {status : ℕ} :
    (.error (.upstreamUnavailable m status) : CheckResult) ≠ noFactoryRejection ctx body deps :=
  fun h => rollupA1_not_upstream ⟨m, status, h.symm⟩

theorem retargetter_not_noFactory {data : RetargetterOnChainData} :
    judgeFetched ctx body deps (.ok (.retargetter data)) ≠ noFactoryRejection ctx body deps := by
  intro h
  have hlength := congrArg List.length (rollupA1_injective h)
  simp [evaluateRetargetter, provenanceFailed] at hlength

theorem evaluateRoles_not_noFactory {factory a : Address} {data : RoleMap ⊕ RoleMap} :
    rollupA1 (evaluateRoles factory a data body.chainId deps.policy (body.deadlineCheck ctx deps)) ≠
      noFactoryRejection ctx body deps := by
  intro h
  have hhead := congrArg List.head? (rollupA1_injective h)
  unfold evaluateRoles provenanceFailed at hhead
  dsimp only at hhead
  split at hhead
  · injection hhead with hentry
    injection hentry with _ _ _ hreason
    have hchar := congrArg (fun s : Option String => s.bind fun s => s.toList.head?) hreason
    simp only [Option.bind_some, String.toList_append, List.head?_append] at hchar
    exact absurd hchar (by simp [toString])
  · split at hhead
    · cases hhead
    · cases hhead

theorem executes_fetchRoles_result {rc first a : Address} {matched : List Address}
    {policy : IntentRequestBindingPolicy} {fetched : Except SigningError FetchedA1}
    (h : Executes (fetchRoles ctx rc policy a first matched) tail fetched) :
    (∃ message, fetched = .error (upstream message)) ∨
      ∃ factory data, (fetched = .ok (.onChain (.tooOld factory a data))) ∨
        ∃ holders, fetched = .ok (.onChain (.resolved factory a holders)) := by
  obtain ⟨block, tail', rfl, hrest⟩ := executes_perform.mp h
  rw [bind_done] at hrest
  match block, hrest with
  | .error e, hrest =>
    cases (runs_done.mp hrest).2
    exact .inl ⟨_, rfl⟩
  | .ok latestBlock, hrest =>
    obtain ⟨_, _, predates, rfl, _, hrest⟩ := executes_bind.mp hrest
    cases predates with
    | true =>
      cases (runs_done.mp hrest).2
      exact .inr ⟨_, _, .inl rfl⟩
    | false =>
      obtain ⟨_, _, outcome, rfl, _, hrest⟩ := executes_bind.mp hrest
      match outcome, hrest with
      | .error e, hrest =>
        cases (runs_done.mp hrest).2
        exact .inl ⟨_, rfl⟩
      | .ok (.tooOld partialHolders), hrest =>
        cases (runs_done.mp hrest).2
        exact .inr ⟨_, _, .inl rfl⟩
      | .ok (.resolved holders block factory), hrest =>
        cases (runs_done.mp hrest).2
        exact .inr ⟨_, none, .inr ⟨_, rfl⟩⟩

theorem fetchRoles_not_noFactory {rc first a : Address} {matched : List Address}
    {policy : IntentRequestBindingPolicy} {fetched : Except SigningError FetchedA1}
    (h : Executes (fetchRoles ctx rc policy a first matched) tail fetched) :
    judgeFetched ctx body deps fetched ≠ noFactoryRejection ctx body deps := by
  rcases executes_fetchRoles_result h with ⟨m, rfl⟩ | ⟨factory, data, rfl | ⟨holders, rfl⟩⟩
  · exact error_not_noFactory
  · exact evaluateRoles_not_noFactory
  · exact evaluateRoles_not_noFactory

theorem fetchRoles_goes_on {rc first a : Address} {matched : List Address}
    {policy : IntentRequestBindingPolicy} {fetched : Except SigningError FetchedA1}
    (h : Executes (fetchRoles ctx rc policy a first matched) tail fetched) :
    ¬EndsAtStageOne ctx tail := by
  obtain ⟨block, tail', rfl, _⟩ := executes_perform.mp h
  intro hends
  rcases hends with hends | ⟨_, _, hends⟩
  · cases hends
  · cases hends

theorem stageOne_owner_failed {e : RpcError}
    (h : r = judgeFetched ctx body deps (if isDeterministicContractCallFailure e ["owner"] then
      .ok (.onChain .noFactory) else .error (upstream "request-contract read failed upstream"))) :
    StageOneOfA1 ctx body deps (.failure e) slots [] r := by
  subst h
  by_cases hdeterministic : isDeterministicContractCallFailure e ["owner"] = true
  · rw [if_pos hdeterministic]
    have hclient : ClientBlamed body deps (.failure e) slots := .inl ⟨e, rfl, hdeterministic⟩
    refine ⟨iff_of_true rfl hclient, iff_of_false (fun h => rollupA1_not_upstream h.1) fun h => ?_,
      fun hnot => absurd hclient hnot⟩
    rcases h with ⟨e', he, hother⟩ | ⟨_, ha, _⟩ | ⟨_, _, ha, _⟩
    · cases he
      rw [hdeterministic] at hother
      cases hother
    · cases ha
    · cases ha
  · rw [if_neg hdeterministic]
    have hblamed : UpstreamBlamed ctx body deps (.failure e) slots [] :=
      .inl ⟨e, rfl, Bool.eq_false_iff.mpr hdeterministic⟩
    refine ⟨iff_of_false error_not_noFactory fun h => ?_,
      iff_of_true ⟨⟨_, _, rfl⟩, .inl rfl⟩ hblamed, fun _ hnot => absurd hblamed hnot⟩
    rcases h with ⟨e', he, hdet⟩ | ⟨_, ha, _⟩
    · cases he
      exact hdeterministic hdet
    · cases ha

theorem stageOne_retargetter {a : Address} {fetched : Except SigningError FetchedA1}
    (ha : isAcceptedRetargetter a body.chainId deps.policy = true)
    (h : Executes (fetchRetargetterOperation ctx a) tail fetched) :
    StageOneOfA1 ctx body deps (.success a) slots tail (judgeFetched ctx body deps fetched) := by
  have hclient : ¬ClientBlamed body deps (.success a) slots := by
    intro hclient
    rcases hclient with ⟨_, he, _⟩ | ⟨_, hown, hother, _⟩
    · cases he
    · cases hown
      rw [ha] at hother
      cases hother
  have hupstream : UpstreamBlamed ctx body deps (.success a) slots tail ↔
      ∃ e, tail = [⟨.operation ctx.chainId a,
        (.error e : Except RpcError RetargetterOperation)⟩] := by
    constructor
    · intro hblamed
      rcases hblamed with ⟨_, he, _⟩ | ⟨a', hown, hother, _⟩ | ⟨a', e, hown, _, htail⟩
      · cases he
      · cases hown
        rw [ha] at hother
        cases hother
      · cases hown
        exact ⟨e, htail⟩
    · exact fun ⟨e, htail⟩ => .inr (.inr ⟨a, e, rfl, ha, htail⟩)
  obtain ⟨answer, tail', rfl, hrest⟩ := executes_perform.mp h
  match answer, hrest with
  | .error e, hrest =>
    obtain ⟨rfl, hfetched⟩ := runs_done.mp hrest
    cases hfetched
    exact ⟨iff_of_false error_not_noFactory hclient,
      iff_of_true ⟨⟨_, _, rfl⟩, .inr ⟨_, _, rfl⟩⟩ (hupstream.mpr ⟨e, rfl⟩),
      fun _ hnot => absurd (hupstream.mpr ⟨e, rfl⟩) hnot⟩
  | .ok operation, hrest =>
    obtain ⟨rfl, hfetched⟩ := runs_done.mp hrest
    cases hfetched
    refine ⟨iff_of_false retargetter_not_noFactory hclient,
      iff_of_false (fun h => rollupA1_not_upstream h.1) fun hblamed => ?_,
      fun _ _ => ⟨a, rfl, .inl ⟨ha, operation, rfl, rfl⟩⟩⟩
    obtain ⟨e, htail⟩ := hupstream.mp hblamed
    cases htail

theorem stageOne_factories {a : Address} {fetched : Except SigningError FetchedA1}
    (ha : isAcceptedRetargetter a body.chainId deps.policy = false)
    (hlength : slots.length = (factoryChecks deps.policy body.chainId).length)
    (h : Executes (match (classifyFactories ((factoryChecks deps.policy body.chainId).zip
        slots)).1.entries.map Prod.snd with
      | [] =>
        if (classifyFactories ((factoryChecks deps.policy body.chainId).zip slots)).2 ≠ [] then
          pure (.error (upstream "accepted-factory read failed upstream"))
        else pure (.ok (.onChain .noFactory))
      | first :: rest => fetchRoles ctx body.requestContract deps.policy a first (first :: rest) :
      Signing (Except SigningError FetchedA1)) tail fetched) :
    StageOneOfA1 ctx body deps (.success a) slots tail (judgeFetched ctx body deps fetched) := by
  have hclient : ClientBlamed body deps (.success a) slots ↔
      ∀ slot ∈ slots, slot = .success false := by
    constructor
    · intro hclient
      rcases hclient with ⟨_, he, _⟩ | ⟨_, _, _, hall⟩
      · cases he
      · exact hall
    · exact fun hall => .inr ⟨a, rfl, ha, hall⟩
  have hupstream : UpstreamBlamed ctx body deps (.success a) slots tail ↔
      .success true ∉ slots ∧ ∃ e, .failure e ∈ slots := by
    constructor
    · intro hblamed
      rcases hblamed with ⟨_, he, _⟩ | ⟨_, _, _, hslots⟩ | ⟨a', _, hown, hother, _⟩
      · cases he
      · exact hslots
      · cases hown
        rw [ha] at hother
        cases hother
    · exact fun hslots => .inr (.inl ⟨a, rfl, ha, hslots⟩)
  split at h
  · rename_i hnone
    have hunmatched := unmatched_of_entries hlength hnone
    split at h
    · rename_i hfailed
      have hsome := (failed_iff hlength).mp hfailed
      obtain ⟨rfl, hfetched⟩ := runs_done.mp h
      cases hfetched
      refine ⟨iff_of_false error_not_noFactory fun hblamed => ?_,
        iff_of_true ⟨⟨_, _, rfl⟩, .inl rfl⟩ (hupstream.mpr ⟨hunmatched, hsome⟩),
        fun _ hnot => absurd (hupstream.mpr ⟨hunmatched, hsome⟩) hnot⟩
      obtain ⟨e, he⟩ := hsome
      cases hclient.mp hblamed _ he
    · rename_i hfailed
      have hnofailure := mt (failed_iff hlength).mpr hfailed
      have hblamed := hclient.mpr (eq_false_of_unmatched hunmatched hnofailure)
      obtain ⟨rfl, hfetched⟩ := runs_done.mp h
      cases hfetched
      exact ⟨iff_of_true rfl hblamed, iff_of_false (fun h => rollupA1_not_upstream h.1)
        fun h => hnofailure (hupstream.mp h).2, fun hnot => absurd hblamed hnot⟩
  · rename_i first rest hentries
    have hmatches := matched_of_entries hentries
    have htrue : .success true ∈ slots := by
      obtain ⟨s, hs, hslot, _⟩ := hmatches.2 first (.head _)
      exact (mem_zip_slots hlength).mpr ⟨s, hs, hslot⟩
    refine ⟨iff_of_false (fetchRoles_not_noFactory h) fun hblamed => ?_,
      iff_of_false (fun hends => fetchRoles_goes_on h hends.2) fun hblamed => ?_,
      fun _ _ => ⟨a, rfl, .inr ⟨ha, first, rest, fetched, hmatches, h, rfl⟩⟩⟩
    · cases hclient.mp hblamed _ htrue
    · exact (hupstream.mp hblamed).1 htrue

theorem executes_runA1_uncached (hcache : deps.cache = false)
    (htrusted : isTrustedRequestContract body.requestContract body.chainId deps.policy = false)
    (h : Executes (runA1 ctx body deps) tr r) :
    ∃ fetched, Executes (fetchA1OnChain ctx body.chainId body.requestContract deps.policy) tr
      fetched ∧ r = judgeFetched ctx body deps fetched := by
  rw [runA1, htrusted, if_neg (by decide),
    show readCache body deps = pure none by simp [readCache, hcache], pure_bind] at h
  obtain ⟨fetch, rest, fetched, rfl, hfetch, hrest⟩ := executes_bind.mp h
  rcases fetched with e | (data | data)
  · obtain ⟨rfl, hr⟩ := runs_done.mp hrest
    cases hr
    exact ⟨_, by rwa [List.append_nil], rfl⟩
  · have hwrite : writeCache body deps data = .done () := by
      rw [writeCache, hcache]
      rfl
    dsimp only at hrest
    rw [hwrite] at hrest
    obtain ⟨rfl, hr⟩ := runs_done.mp hrest
    cases hr
    exact ⟨_, by rwa [List.append_nil], rfl⟩
  · obtain ⟨rfl, hr⟩ := runs_done.mp hrest
    cases hr
    exact ⟨_, by rwa [List.append_nil], rfl⟩

theorem upstream_writes_nothing (hupstream : IsUpstreamError r)
    (h : Executes (runA1 ctx body deps) tr r) : ∀ e ∈ tr, ∀ k v ttl, e.op ≠ .cacheSet k v ttl := by
  rw [runA1] at h
  split at h
  · cases (runs_done.mp h).2
    exact absurd hupstream rollupA1_not_upstream
  · obtain ⟨read, rest, hit, rfl, hread, hrest⟩ := executes_bind.mp h
    cases hit with
    | some data =>
      cases (runs_done.mp hrest).2
      exact absurd hupstream rollupA1_not_upstream
    | none =>
      obtain ⟨fetch, rest', fetched, rfl, hfetch, hrest⟩ := executes_bind.mp hrest
      rcases fetched with e | (data | data)
      · -- a failed fetch ends the run, and neither the read nor the fetch writes
        obtain ⟨rfl, _⟩ := runs_done.mp hrest
        intro e' he k v ttl hop
        rcases List.mem_append.mp he with he | he
        · obtain ⟨key, hkey⟩ := (readCache_performs body deps).runs hread e' he
          rw [hop] at hkey
          cases hkey
        · rw [List.append_nil] at he
          have hfetched :=
            (fetchA1OnChain_performs body.chainId body.requestContract).runs hfetch e' he
          rw [hop] at hfetched
          exact hfetched.elim
      · obtain ⟨_, _, _, rfl, _, hrest⟩ := executes_bind.mp hrest
        cases (runs_done.mp hrest).2
        exact absurd hupstream rollupA1_not_upstream
      · cases (runs_done.mp hrest).2
        exact absurd hupstream rollupA1_not_upstream

end Results

/-- Stage 1 of A.1 for every mixture of slots: the rejection that blames the client, the
upstream error, and going on exclude one another, and no upstream error is cached. -/
theorem a1_fault_attribution (ctx : SigningContext) (body : A1Request) (deps : A1Deps) :
    (deps.cache = false →
      isTrustedRequestContract body.requestContract body.chainId deps.policy = false →
      ∀ tr r, Executes (runA1 ctx body deps) tr r →
        ∃ (answer : Except RpcError (Slot Address ×
            List.Vector (Slot Bool) (factoryChecks deps.policy body.chainId).length))
          (tail : List SigningEvent),
          tr = ⟨.ownerAndProvenance ctx.chainId body.requestContract
            (factoryChecks deps.policy body.chainId), answer⟩ :: tail ∧
          (∀ e, answer = .error e → tail = [] ∧ IsUpstreamError r) ∧
          ∀ owner slots, answer = .ok (owner, slots) →
            StageOneOfA1 ctx body deps owner slots.toList tail r) ∧
    ∀ tr r, IsUpstreamError r → Executes (runA1 ctx body deps) tr r →
      ∀ e ∈ tr, ∀ k v ttl, e.op ≠ .cacheSet k v ttl := by
  refine ⟨fun hcache htrusted tr r hrun => ?_, fun tr r hupstream hrun =>
    upstream_writes_nothing hupstream hrun⟩
  obtain ⟨fetched, hfetch, rfl⟩ := executes_runA1_uncached hcache htrusted hrun
  obtain ⟨answer, tail, rfl, hrest⟩ := executes_perform.mp hfetch
  refine ⟨answer, tail, rfl, ?_, ?_⟩
  · intro e he
    subst he
    obtain ⟨rfl, hfetched⟩ := runs_done.mp hrest
    cases hfetched
    exact ⟨rfl, _, _, rfl⟩
  · intro owner slots hanswer
    subst hanswer
    rw [bind_done] at hrest
    dsimp only at hrest
    match owner, hrest with
    | .failure e, hrest =>
      dsimp only at hrest
      split at hrest
      · rename_i hdeterministic
        obtain ⟨rfl, hfetched⟩ := runs_done.mp hrest
        cases hfetched
        exact stageOne_owner_failed (by rw [if_pos hdeterministic])
      · rename_i hother
        obtain ⟨rfl, hfetched⟩ := runs_done.mp hrest
        cases hfetched
        exact stageOne_owner_failed (by rw [if_neg hother])
    | .success a, hrest =>
      dsimp only at hrest
      split at hrest
      · exact stageOne_retargetter ‹_› hrest
      · rename_i hother
        exact stageOne_factories (Bool.eq_false_iff.mpr hother) slots.toList_length hrest

namespace Sample

def revertingClient : (op : Op) → op.Answer
  | .ownerAndProvenance _ _ checks => .ok (.failure (revertError "owner"),
      List.Vector.replicate checks.length (.failure (revertError "isRequest")))
  | op => serve (fun _ => chain) op

end Sample

/-- A contract without an owner is the client's fault, whatever the factories do. -/
theorem a1_fault_attribution_owner_reverts :
    (runA1 Sample.ctx Sample.body ⟨Sample.policy, false, none⟩).eval Sample.revertingClient =
      noFactoryRejection Sample.ctx Sample.body ⟨Sample.policy, false, none⟩ := by
  have hrun := executes_trace Sample.revertingClient
    (runA1 Sample.ctx Sample.body ⟨Sample.policy, false, none⟩)
  obtain ⟨answer, tail, htrace, _, hslots⟩ :=
    (a1_fault_attribution Sample.ctx Sample.body ⟨Sample.policy, false, none⟩).1 rfl
      (by decide +kernel) _ _ hrun
  have hanswered := trace_answered Sample.revertingClient
    (runA1 Sample.ctx Sample.body ⟨Sample.policy, false, none⟩)
  rw [htrace] at hanswered
  exact (hslots _ _ (hanswered _ (.head _))).client.mpr (.inl ⟨_, rfl, by decide⟩)

end Guardian
