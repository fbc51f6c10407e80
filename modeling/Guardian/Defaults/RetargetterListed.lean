import Guardian.Defaults.IntentRequestBindingCache

/-!
# A newly listed retargetter and the cache

The bypass of `runA1` reads the owner out of the cached entry. It therefore finds a
listed retargetter exactly when the entry records one: an entry that records no owner,
or a former one, keeps the contract on the classic path.
-/

namespace Guardian
open Effect Text Program

def beside (content : String → Option A1OnChainData) (rpc : (op : Op) → op.Answer) :
    (op : Op) → op.Answer
  | .cacheGet k => .ok (content k)
  | op => rpc op

def contentAfter (tr : List SigningEvent) : String → Option A1OnChainData :=
  tr.foldl (fun content e =>
    match e with
    | ⟨.cacheSet k data _, .ok ()⟩ => Function.update content k (some data)
    | _ => content) fun _ => none

def RecordsRetargetter (chainId : ℕ) (policy : IntentRequestBindingPolicy) :
    A1OnChainData → Prop
  | .noFactory => False
  | .tooOld _ owner _ => isAcceptedRetargetter owner chainId policy = true
  | .resolved _ owner _ => isAcceptedRetargetter owner chainId policy = true

theorem usableEntry_none {chainId : ℕ} {policy : IntentRequestBindingPolicy}
    {data : A1OnChainData} :
    usableEntry chainId policy data = none ↔ RecordsRetargetter chainId policy data := by
  cases data <;> simp [usableEntry, RecordsRetargetter]

/-- The entry of the call's key, if there is one, records a listed retargetter. -/
def Bypassed (content : String → Option A1OnChainData) (call : A1Call) : Prop :=
  call.deps.cache = true → ∀ data, content call.body.cacheKey = some data →
    RecordsRetargetter call.body.chainId call.deps.policy data

/-- The call reads `operation()` and decides on it, as it would with nothing cached. -/
structure DecidedAfresh (rpc : (op : Op) → op.Answer) (content : String → Option A1OnChainData)
    (call : A1Call) (owner : Address) : Prop where
  read : ⟨.operation call.ctx.chainId owner, rpc (.operation call.ctx.chainId owner)⟩ ∈
    call.run.trace (beside content rpc)
  decided : call.run.eval (beside content rpc) =
    call.decide ((fetchRetargetterOperation call.ctx owner).eval rpc)
  uncached : call.run.eval (beside content rpc) = call.run.eval (beside (fun _ => none) rpc)

section Run
variable {rpc : (op : Op) → op.Answer} {content : String → Option A1OnChainData} {call : A1Call}
  {owner : Address}

def A1Call.hit (call : A1Call) (content : String → Option A1OnChainData) : Option A1OnChainData :=
  if call.deps.cache then
    (content call.body.cacheKey).bind (usableEntry call.body.chainId call.deps.policy)
  else none

theorem hit_none : call.hit content = none ↔ Bypassed content call := by
  unfold A1Call.hit Bypassed
  split
  · rename_i hcache
    simp only [hcache, Option.bind_eq_none_iff, usableEntry_none, true_implies]
  · rename_i hcache
    simp [hcache]

theorem readCache_eval :
    (readCache call.body call.deps).eval (beside content rpc) = call.hit content := by
  unfold readCache A1Call.hit
  split
  · rw [eval_bind_def, show eval (beside content rpc) (ask (.cacheGet call.body.cacheKey)) =
      .ok (content call.body.cacheKey) from rfl]
    cases content call.body.cacheKey <;> rfl
  · rfl

theorem fetchA1OnChain_retargetter {answer : (op : Op) → op.Answer} {ctx : SigningContext}
    {chainId : ℕ} {rc : Address} {policy : IntentRequestBindingPolicy}
    {slots : List.Vector (Slot Bool) (factoryChecks policy chainId).length}
    (howner : answer (.ownerAndProvenance ctx.chainId rc (factoryChecks policy chainId)) =
      .ok (.success owner, slots))
    (hlisted : isAcceptedRetargetter owner chainId policy = true) :
    (fetchA1OnChain ctx chainId rc policy).eval answer =
        (fetchRetargetterOperation ctx owner).eval answer ∧
      ⟨.operation ctx.chainId owner, answer (.operation ctx.chainId owner)⟩ ∈
        (fetchA1OnChain ctx chainId rc policy).trace answer := by
  unfold fetchA1OnChain
  dsimp only
  have hstage : eval answer (ask (.ownerAndProvenance ctx.chainId rc
    (factoryChecks policy chainId))) = .ok (.success owner, slots) := howner
  constructor
  · rw [eval_bind_def, hstage]
    dsimp only
    rw [if_pos hlisted]
  · rw [bind_def, trace_bind, hstage]
    dsimp only
    rw [if_pos hlisted]
    refine List.mem_append_right _ ?_
    rw [fetchRetargetterOperation, bind_def, trace_bind]
    exact List.mem_append_left _ (.head _)

section Untrusted
variable (htrusted : isTrustedRequestContract call.body.requestContract call.body.chainId
  call.deps.policy = false)
include htrusted

theorem run_hit {data : A1OnChainData} (hhit : call.hit content = some data) :
    ∀ e ∈ call.run.trace (beside content rpc), ∃ k, e.op = .cacheGet k := by
  rw [A1Call.run, runA1]
  dsimp only
  rw [htrusted, if_neg (by decide), bind_def, trace_bind, readCache_eval, hhit]
  intro e he
  rcases List.mem_append.mp he with he | he
  · exact (readCache_performs _ _).runs (executes_trace _ _) e he
  · cases he

theorem run_miss (hhit : call.hit content = none)
    {slots : List.Vector (Slot Bool) (factoryChecks call.deps.policy call.body.chainId).length}
    (howner : rpc (.ownerAndProvenance call.ctx.chainId call.body.requestContract
      (factoryChecks call.deps.policy call.body.chainId)) = .ok (.success owner, slots))
    (hlisted : isAcceptedRetargetter owner call.body.chainId call.deps.policy = true) :
    call.run.eval (beside content rpc) =
        call.decide ((fetchRetargetterOperation call.ctx owner).eval rpc) ∧
      ⟨.operation call.ctx.chainId owner, rpc (.operation call.ctx.chainId owner)⟩ ∈
        call.run.trace (beside content rpc) := by
  have howner' : beside content rpc (.ownerAndProvenance call.ctx.chainId
      call.body.requestContract (factoryChecks call.deps.policy call.body.chainId)) =
    .ok (.success owner, slots) := howner
  obtain ⟨heval, htrace⟩ := fetchA1OnChain_retargetter howner' hlisted
  have hsame : (fetchRetargetterOperation call.ctx owner).eval (beside content rpc) =
      (fetchRetargetterOperation call.ctx owner).eval rpc := by
    rw [fetchRetargetterOperation, eval_bind_def, eval_bind_def,
      show eval (beside content rpc) (ask (.operation call.ctx.chainId owner)) =
        eval rpc (ask (.operation call.ctx.chainId owner)) from rfl]
    cases eval rpc (ask (.operation call.ctx.chainId owner)) <;> rfl
  rw [A1Call.run, runA1, htrusted, if_neg (by decide)]
  constructor
  · rw [eval_bind_def, readCache_eval, hhit]
    dsimp only
    rw [eval_bind_def, heval, hsame, fetchRetargetterOperation, eval_bind_def]
    cases eval rpc (ask (.operation call.ctx.chainId owner)) <;> rfl
  · rw [bind_def, trace_bind, readCache_eval, hhit]
    refine List.mem_append_right _ ?_
    dsimp only
    rw [bind_def, trace_bind]
    exact List.mem_append_left _ htrace

/-- The call decides afresh exactly when its cached entry records a listed retargetter. -/
theorem listed_retargetter_decides
    {slots : List.Vector (Slot Bool) (factoryChecks call.deps.policy call.body.chainId).length}
    (howner : rpc (.ownerAndProvenance call.ctx.chainId call.body.requestContract
      (factoryChecks call.deps.policy call.body.chainId)) = .ok (.success owner, slots))
    (hlisted : isAcceptedRetargetter owner call.body.chainId call.deps.policy = true) :
    DecidedAfresh rpc content call owner ↔ Bypassed content call := by
  rw [← hit_none]
  constructor
  · intro h
    cases hhit : call.hit content with
    | none => rfl
    | some data =>
      obtain ⟨k, hk⟩ := run_hit htrusted hhit _ h.read
      cases hk
  · intro hhit
    have hempty : call.hit (fun _ => none) = none := by
      rw [A1Call.hit]
      split <;> rfl
    obtain ⟨hdecided, hread⟩ := run_miss htrusted hhit howner hlisted
    obtain ⟨huncached, -⟩ := run_miss htrusted hempty howner hlisted
    exact ⟨hread, hdecided, hdecided.trans huncached.symm⟩

end Untrusted

end Run

namespace Sample

def retargetterChain : Chain where
  head := 100
  logs := []
  owner := fun _ => some "0xRET"
  provenance := fun _ _ => some false
  operation := fun _ => some ⟨"0xREQ", 10000000⟩
  code := fun _ _ => none
  logs_le_head := noLogs_le
  logs_positioned := noLogs_positioned

def retargetterRpc : (op : Op) → op.Answer := serve fun _ => retargetterChain

def listing (listed : Bool) : A1Call where
  ctx := ctx
  body := body
  deps := ⟨if listed then { policy with acceptedRetargetters := fun _ => some ["0xret"] }
    else policy, true, none⟩
  chain := sameChain

def leftover : String → Option A1OnChainData :=
  contentAfter ((listing false).run.trace retargetterRpc)

end Sample

theorem listed_retargetter_decides_resolved :
    DecidedAfresh Sample.retargetterRpc (fun _ => some (.resolved "0xfac" "0xRET" .empty))
      (Sample.listing true) "0xRET" :=
  (listed_retargetter_decides rfl rfl rfl).mpr fun _ data h => by
    obtain rfl := Option.some.inj h
    exact rfl

/-- The entry of the earlier call keeps the contract on the classic path. -/
theorem listed_retargetter_ignored :
    isTrustedRequestContract (Sample.listing true).body.requestContract 1
        (Sample.listing true).deps.policy = false ∧
      Sample.retargetterChain.owner "0xreq" = some "0xRET" ∧
      isAcceptedRetargetter "0xRET" 1 (Sample.listing true).deps.policy = true ∧
      (∃ message checks, (Sample.listing true).run.eval
        (beside Sample.leftover Sample.retargetterRpc) =
          .error (.validationFailed message checks)) ∧
      (∃ checks, (Sample.listing true).run.eval
        (beside (fun _ => none) Sample.retargetterRpc) = .ok checks) ∧
      ¬ DecidedAfresh Sample.retargetterRpc Sample.leftover (Sample.listing true) "0xRET" := by
  refine ⟨rfl, rfl, rfl, ⟨_, _, rfl⟩, ⟨_, rfl⟩, fun h => ?_⟩
  cases h.uncached

end Guardian
