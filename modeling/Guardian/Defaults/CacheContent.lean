import Guardian.Defaults.FetchOutcome
import Guardian.Defaults.IntentRequestBindingCache
import Guardian.Defaults.RequestWhitelisting

/-!
# The content of a shared cache

Any number of A.1 and A.4 calls, each under its own policy, share one cache while the
chains grow. A request to write is reached along one path of `runA1` only, right after
a classic-path fetch; what the fetch read then says what the entry holds.
-/

namespace Guardian
open Effect Text

structure A4Call where
  ctx : SigningContext
  body : RequestWhitelistingBody
  deps : RequestWhitelistingDeps
  maxRequestContracts : ℤ
  chain : ctx.chainId = body.chainId

inductive CacheCall where
  | a1 (call : A1Call)
  | a4 (call : A4Call)

def CacheCall.program : CacheCall → Signing (Settled (List CheckEntry))
  | .a1 call => Settled.ofResult <$> call.run
  | .a4 call => runA4 call.maxRequestContracts call.deps call.ctx call.body

def A4Call.nested (call : A4Call) (contract : Address) : A1Call :=
  ⟨call.ctx, ⟨call.body.chainId, contract, call.body.deadline⟩, call.deps.a1, call.chain⟩

def CacheCall.nested : CacheCall → List A1Call
  | .a1 call => [call]
  | .a4 call => call.body.requestContracts.map call.nested

section Writes
variable {tr : List SigningEvent} {k : String} {data : A1OnChainData} {ttl : Option ℤ}

/-- A write of an A.1 call: after its own classic-path fetch, and before its decision. -/
structure WritesEntry (call : A1Call) (fetch : List SigningEvent) (k : String)
    (data : A1OnChainData) (next : Except Unit Unit → Signing CheckResult) : Prop where
  key : k = call.body.cacheKey
  untrusted : isTrustedRequestContract call.body.requestContract call.body.chainId
    call.deps.policy = false
  scanned : isProbeOnly data = false
  fetched : Executes call.fetch fetch (.ok (.onChain data))
  decides : ∀ r, next r = .done (call.decide (.ok (.onChain data)))

theorem not_perform_of_done {α : Type} {a : α} {op : Op} {next : op.Answer → Signing α}
    (h : Runs (.done a) tr (.perform op next)) : False := by
  cases (runs_done.mp h).2

theorem run_writes {call : A1Call} {next : Except Unit Unit → Signing CheckResult}
    (h : Runs call.run tr (.perform (.cacheSet k data ttl) next)) :
    ∃ read fetch, tr = read ++ fetch ∧ WritesEntry call fetch k data next := by
  rw [A1Call.run, runA1] at h
  split at h
  · exact (not_perform_of_done h).elim
  · rename_i htrusted
    rcases runs_bind_perform h with ⟨next', hread⟩ | ⟨read, tr, hit, rfl, -, h⟩
    · obtain ⟨⟨k, hk⟩, -⟩ := (readCache_performs _ _).rest hread
      cases hk
    cases hit with
    | some data => exact (not_perform_of_done h).elim
    | none =>
      rcases runs_bind_perform h with ⟨next', hfetch⟩ | ⟨fetch, tr, r, rfl, hfetch, h⟩
      · exact ((fetchA1OnChain_performs _ _).rest hfetch).1.elim
      rcases r with e | (data' | _)
      · exact (not_perform_of_done h).elim
      · dsimp only at h
        rw [writeCache] at h
        split at h
        · rename_i hcond
          rcases runs_perform.mp h with ⟨rfl, hissued⟩ | ⟨r, tr', rfl, hdone⟩
          · cases hissued
            simp only [Bool.and_eq_true, Bool.not_eq_true'] at hcond
            exact ⟨read, fetch, by rw [List.append_nil], rfl, by simpa using htrusted, hcond.2,
              hfetch, fun r => rfl⟩
          · exact (not_perform_of_done hdone).elim
        · exact (not_perform_of_done h).elim
      · exact (not_perform_of_done h).elim

theorem runA1Batch_writes {ctx : SigningContext} {chainId deadline : ℕ} {deps : A1Deps}
    {checks : List CheckEntry} {contracts : List Address}
    {next : Except Unit Unit → Signing (Settled (List CheckEntry))}
    (h : Runs (runA1Batch ctx chainId deadline deps checks contracts) tr
      (.perform (.cacheSet k data ttl) next)) :
    ∃ contract ∈ contracts, ∃ before own next', tr = before ++ own ∧
      Runs (runA1 ctx ⟨chainId, contract, deadline⟩ deps) own
        (.perform (.cacheSet k data ttl) next') := by
  induction contracts generalizing checks tr with
  | nil => exact (not_perform_of_done h).elim
  | cons contract contracts ih =>
    rcases runs_bind_perform h with ⟨next', hown⟩ | ⟨before, rest, r, rfl, -, hrest⟩
    · exact ⟨contract, .head _, [], tr, next', rfl, hown⟩
    · revert hrest
      match nestedEntries contract r with
      | .error failure => exact fun hrest => (not_perform_of_done hrest).elim
      | .ok entries =>
        intro hrest
        obtain ⟨c, hc, before', own, next', rfl, hown⟩ := ih hrest
        exact ⟨c, .tail _ hc, before ++ before', own, next', by rw [List.append_assoc], hown⟩

theorem checkNonce_performs {deps : RequestWhitelistingDeps} {ctx : SigningContext}
    {body : RequestWhitelistingBody} {checks : List CheckEntry} :
    (checkNonce deps ctx body checks).Performs fun op : Op =>
      ∃ c book signer n, op = .nonceReads c book signer n := by
  rw [checkNonce]
  split
  · trivial
  · refine .call_bind ⟨_, _, _, _, rfl⟩ fun answer => ?_
    match answer with
    | .ok (floor, consumed) => trivial
    | .error e =>
      dsimp only
      split <;> trivial

theorem program_writes {call : CacheCall} {next : Except Unit Unit →
    Signing (Settled (List CheckEntry))}
    (h : Runs call.program tr (.perform (.cacheSet k data ttl) next)) :
    ∃ nested ∈ call.nested, ∃ before own next', tr = before ++ own ∧
      Runs nested.run own (.perform (.cacheSet k data ttl) next') := by
  cases call with
  | a1 call =>
    rw [CacheCall.program, map_eq_pure_bind] at h
    rcases runs_bind_perform h with ⟨next', hown⟩ | ⟨before, rest, r, rfl, -, hrest⟩
    · exact ⟨call, .head _, [], tr, next', rfl, hown⟩
    · exact (not_perform_of_done hrest).elim
  | a4 call =>
    rw [CacheCall.program, runA4] at h
    split at h
    · exact (not_perform_of_done h).elim
    split at h
    · exact (not_perform_of_done h).elim
    rcases runs_bind_perform h with ⟨next', hbatch⟩ | ⟨before, rest, r, rfl, -, hrest⟩
    · rw [batchEntries] at hbatch
      split at hbatch
      · obtain ⟨contract, hc, before, own, next', rfl, hown⟩ := runA1Batch_writes hbatch
        exact ⟨call.nested contract, List.mem_map_of_mem hc, before, own, next', rfl, hown⟩
      · exact (not_perform_of_done hbatch).elim
    · match r, hrest with
      | .error failure, hrest => exact (not_perform_of_done hrest).elim
      | .ok checks, hrest =>
        obtain ⟨⟨_, _, _, _, hop⟩, -⟩ := checkNonce_performs.rest hrest
        cases hop

end Writes

/-- A client answers from its chains as they are; owners and factories may change at will. -/
def AnswersAt (final : ℕ → Chain) (heads : ℕ → ℕ) : SigningEvent → Prop
  | ⟨.getBlockNumber c, answer⟩ => ∀ n, answer = .ok n → n = heads c
  | ⟨.getLogs c addresses fromBlock toBlock, answer⟩ => ∀ logs, answer = .ok logs → ∀ l,
      l ∈ logs ↔ l ∈ ((final c).upTo (heads c)).logs ∧
        Chain.Matches addresses fromBlock toBlock l
  | _ => True

structure SharedState where
  heads : ℕ → ℕ
  writes : List (String × A1OnChainData)

/-- Chains that grow beside one cache; what a read of the cache returns was written to it. -/
def growingWorld (ι : Type) (final : ℕ → Chain) : World env ι SharedState where
  serves _ s e s' := AnswersAt final s.heads e ∧ s'.heads = s.heads ∧
    match e with
    | ⟨.cacheGet k, answer⟩ =>
      s'.writes = s.writes ∧ ∀ data, answer = .ok (some data) → (k, data) ∈ s.writes
    | ⟨.cacheSet k data _, _⟩ => s'.writes = s.writes ∨ s'.writes = s.writes ++ [(k, data)]
    | _ => s'.writes = s.writes
  evolves s s' := s'.writes = s.writes ∧ ∀ c, s.heads c ≤ s'.heads c

structure SharedInv {ι : Type} [DecidableEq ι] (final : ℕ → Chain) (s : SharedState)
    (log : List (ι × SigningEvent)) : Prop where
  heads : ∀ (i : ι) c (n : ℕ), (i, ⟨.getBlockNumber c, .ok n⟩) ∈ log → n ≤ s.heads c
  follows : ∀ i, (watching final).Follows [] (Config.eventsOf i log)
  written : ∀ k data, (k, data) ∈ s.writes → ∃ (i : ι) (ttl : Option ℤ) (r : Except Unit Unit),
    (i, ⟨.cacheSet k data ttl, r⟩) ∈ log

section World
variable {ι : Type} [DecidableEq ι] {final : ℕ → Chain} {s s' : SharedState}
  {log : List (ι × SigningEvent)}

theorem settles_of_answersAt {g : List SigningEvent} {e : SigningEvent}
    (hheads : ∀ c (n : ℕ), ⟨.getBlockNumber c, .ok n⟩ ∈ g → n ≤ s.heads c)
    (h : AnswersAt final s.heads e) : Settles final g e := by
  obtain ⟨op, answer⟩ := e
  cases op with
  | getLogs c addresses fromBlock toBlock =>
    intro head hhead hto logs hlogs l
    have hle := hheads c head hhead
    rw [h logs hlogs l, mem_logs_upTo, Chain.Matches]
    constructor
    · rintro ⟨⟨hl, -⟩, hm⟩
      exact ⟨hl, hm⟩
    · rintro ⟨hl, hm⟩
      exact ⟨⟨hl, by omega⟩, hm⟩
  | _ => trivial

theorem SharedInv.serve (h : SharedInv final s log) {i : ι} {e : SigningEvent}
    (hserves : (growingWorld ι final).serves i s e s') :
    SharedInv final s' (log ++ [(i, e)]) := by
  obtain ⟨hanswers, hheads, hcache⟩ := hserves
  refine ⟨fun j c n hmem => ?_, fun j => ?_, fun k data hmem => ?_⟩
  · rw [hheads]
    rcases List.mem_append.mp hmem with hmem | hmem
    · exact h.heads j c n hmem
    · obtain ⟨rfl, rfl⟩ := Prod.mk.inj (List.mem_singleton.mp hmem)
      exact (hanswers n rfl).le
  · by_cases hij : i = j
    · subst j
      rw [Config.eventsOf_snoc_self, Protocol.follows_append, watching_state, List.nil_append]
      exact ⟨h.follows i, settles_of_answersAt
        (fun c n hmem => h.heads i c n (Config.mem_eventsOf.mp hmem)) hanswers, trivial⟩
    · rw [Config.eventsOf_snoc_other hij]
      exact h.follows j
  · have hold : (k, data) ∈ s.writes → ∃ (j : ι) (ttl : Option ℤ) (r : Except Unit Unit),
        (j, ⟨.cacheSet k data ttl, r⟩) ∈ log ++ [(i, e)] := by
      intro hmem
      obtain ⟨j, ttl, r, hlog⟩ := h.written k data hmem
      exact ⟨j, ttl, r, List.mem_append_left _ hlog⟩
    obtain ⟨op, answer⟩ := e
    cases op with
    | cacheGet k' => exact hold (hcache.1 ▸ hmem)
    | cacheSet k' data' ttl =>
      rcases hcache with hcache | hcache
      · exact hold (hcache ▸ hmem)
      · rw [hcache] at hmem
        rcases List.mem_append.mp hmem with hmem | hmem
        · exact hold hmem
        · obtain ⟨rfl, rfl⟩ := Prod.mk.inj (List.mem_singleton.mp hmem)
          exact ⟨i, ttl, answer, List.mem_append_right _ (.head _)⟩
    | _ => exact hold (hcache ▸ hmem)

theorem SharedInv.evolve (h : SharedInv final s log)
    (hevolves : (growingWorld ι final).evolves s s') : SharedInv final s' log :=
  ⟨fun i c n hmem => (h.heads i c n hmem).trans (hevolves.2 c), h.follows,
    fun k data hmem => h.written k data (hevolves.1 ▸ hmem)⟩

end World

/-- An entry is the complete result of a fetch of its own contract, for an A.1 call that
did not trust the contract and goes on to decide. -/
structure Derived (final : ℕ → Chain) (call : A1Call) (read fetch : List SigningEvent) (k : String)
    (data : A1OnChainData) (ttl : Option ℤ) : Prop where
  key : k = key call.body.chainId (toLowerCase call.body.requestContract)
  untrusted : isTrustedRequestContract call.body.requestContract call.body.chainId
    call.deps.policy = false
  fetched : Executes call.fetch fetch (.ok (.onChain data))
  noOperation : ∀ e ∈ fetch, ∀ c retargetter, e.op ≠ .operation c retargetter
  sound : FetchSound final call.ctx call.body.chainId call.body.requestContract
    call.deps.policy fetch data
  decides : ∃ (next : Except Unit Unit → Signing CheckResult) (result : CheckResult),
    Runs call.run (read ++ fetch) (.perform (.cacheSet k data ttl) next) ∧
      (∀ r, next r = .done result) ∧
      (Settled.ofResult result).resultClass ≠ .upstreamUnavailable

theorem decide_available (call : A1Call) (data : A1OnChainData) :
    (Settled.ofResult (call.decide (.ok (.onChain data)))).resultClass ≠
      .upstreamUnavailable := by
  rw [A1Call.decide, rollupA1]
  unfold rollUp
  split <;> exact fun h => by cases h

/-- Every entry that any calls, in any interleaving, ever write to a shared cache. -/
theorem cache_content {ι : Type} [DecidableEq ι] (final : ℕ → Chain) (calls : ι → CacheCall)
    (heads : ℕ → ℕ)
    (hborn : ∀ i, ∀ call ∈ (calls i).nested, (final call.ctx.chainId).DeployedFirst
      call.body.requestContract
      ((factoryChecks call.deps.policy call.body.chainId).map FactoryCheck.factory))
    (c : Config env ι SharedState (Settled (List CheckEntry)))
    (hreach : Config.Reachable (growingWorld ι final) ⟨heads, []⟩ (fun i => (calls i).program) c)
    (k : String) (data : A1OnChainData) (hmem : (k, data) ∈ c.world.writes) :
    ∃ i, ∃ call ∈ (calls i).nested, ∃ pre post before read fetch ttl r,
      c.log = pre ++ (i, ⟨.cacheSet k data ttl, r⟩) :: post ∧
        Config.eventsOf i pre = before ++ (read ++ fetch) ∧
        Derived final call read fetch k data ttl := by
  have hinv : SharedInv final c.world c.log := Config.reachable_invariant
    ⟨by simp, fun _ => trivial, by simp⟩ (fun i s log e s' h => h.serve)
    (fun s log s' h => h.evolve) hreach
  obtain ⟨i, ttl, r, hlog⟩ := hinv.written k data hmem
  obtain ⟨pre, post, hsplit⟩ := List.append_of_mem hlog
  obtain ⟨next, hissued⟩ := Config.reachable_issued hreach hsplit
  obtain ⟨call, hcall, before, own, next', hpre, hown⟩ := program_writes hissued
  obtain ⟨read, fetch, rfl, hwrites⟩ := run_writes hown
  have hfollows := hinv.follows i
  rw [hsplit, Config.eventsOf_split, hpre, Protocol.follows_append, Protocol.follows_append,
    Protocol.follows_append] at hfollows
  have hfetch := watching_follows_subset hfollows.1.2.2 (List.nil_subset _)
  exact ⟨i, call, hcall, pre, post, before, read, fetch, ttl, r, hsplit, hpre, hwrites.key,
    hwrites.untrusted, hwrites.fetched, fetch_no_operation hwrites.fetched hwrites.scanned,
    fetch_sound hwrites.fetched hwrites.scanned hfetch (hborn i call hcall),
    ⟨next', _, hown, hwrites.decides, decide_available call data⟩⟩

theorem answersAt_serve (chains : ℕ → Chain) (op : Op) :
    AnswersAt chains (fun c => (chains c).head) ⟨op, serve chains op⟩ := by
  cases op with
  | getBlockNumber c => exact fun n h => (Except.ok.inj h).symm
  | getLogs c addresses fromBlock toBlock =>
    intro logs h l
    rw [serve_answers chains (.getLogs c addresses fromBlock toBlock) logs h l, mem_logs_upTo]
    exact and_congr_left fun _ => ⟨fun hl => ⟨hl, (chains c).logs_le_head l hl⟩, And.left⟩
  | _ => trivial

def writesOf : List SigningEvent → List (String × A1OnChainData)
  | [] => []
  | ⟨.cacheSet k data _, _⟩ :: tr => (k, data) :: writesOf tr
  | _ :: tr => writesOf tr

theorem served_writes {ι : Type} (chains : ℕ → Chain) (i : ι) {tr : List SigningEvent}
    (h : ∀ e ∈ tr, e.answer = serve chains e.op) (writes : List (String × A1OnChainData)) :
    Config.Served (growingWorld ι chains) i ⟨fun c => (chains c).head, writes⟩ tr
      ⟨fun c => (chains c).head, writes ++ writesOf tr⟩ := by
  induction tr generalizing writes with
  | nil =>
    rw [writesOf, List.append_nil]
    exact .nil _
  | cons e tr ih =>
    have hrest := fun e he => h e (.tail _ he)
    have hanswers : AnswersAt chains (fun c => (chains c).head) e := by
      obtain ⟨op, answer⟩ := e
      obtain rfl : answer = serve chains op := h _ (.head _)
      exact answersAt_serve chains op
    obtain ⟨op, answer⟩ := e
    obtain rfl : answer = serve chains op := h _ (.head _)
    cases op with
    | cacheSet k data ttl =>
      rw [writesOf, List.append_cons]
      have hset : (growingWorld ι chains).serves i ⟨fun c => (chains c).head, writes⟩ _
        ⟨fun c => (chains c).head, writes ++ [(k, data)]⟩ := ⟨hanswers, rfl, .inr rfl⟩
      exact .cons hset (ih hrest _)
    | cacheGet k => exact .cons ⟨hanswers, rfl, rfl, fun data hd => by cases hd⟩ (ih hrest _)
    | _ => exact .cons ⟨hanswers, rfl, rfl⟩ (ih hrest _)

namespace Sample

def caching : CacheCall := .a4
  ⟨ctx, ⟨1, "0xbook", .whitelist, ["0xreq"], "7", 1050⟩,
    ⟨⟨policy, 10, none, none⟩, "0xguardian", true, none⟩, 50, sameChain⟩

theorem caching_reachable : ∃ c : Config env Unit SharedState (Settled (List CheckEntry)),
    Config.Reachable (growingWorld Unit fun _ => chain) ⟨fun _ => chain.head, []⟩
      (fun _ => caching.program) c ∧
      ∃ data, ("1:0xreq", data) ∈ c.world.writes := by
  have hserved : Config.Served (growingWorld Unit fun _ => chain) ()
    ⟨fun _ => chain.head, []⟩ _ _ :=
    served_writes (fun _ => chain) ()
      (Program.trace_answered (serve fun _ => chain) caching.program) []
  exact ⟨_, Config.Reachable.run .refl
    (Program.executes_trace (serve fun _ => chain) caching.program) hserved, _, .head _⟩

end Sample

theorem cache_content_resolved : ∃ (call : A1Call) (read fetch : List SigningEvent)
    (data : A1OnChainData) (ttl : Option ℤ),
    Derived (fun _ => Sample.chain) call read fetch "1:0xreq" data ttl := by
  obtain ⟨c, hreach, data, hmem⟩ := Sample.caching_reachable
  obtain ⟨_, call, _, _, _, _, read, fetch, ttl, _, _, _, hderived⟩ :=
    cache_content (fun _ => Sample.chain) (fun _ => Sample.caching) (fun _ => Sample.chain.head)
      (fun _ call hcall => by
        obtain rfl := List.mem_singleton.mp hcall
        exact Sample.deployedFirst) c hreach "1:0xreq" data hmem
  exact ⟨call, read, fetch, data, ttl, hderived⟩

end Guardian
