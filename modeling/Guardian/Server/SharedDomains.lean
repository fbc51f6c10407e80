import Guardian.Defaults.CacheContent
import Guardian.Server.SigningHost

/-!
# Domains from a shared cache

Any number of signing calls, each under its own policies, share one cache of EIP-712 domains.
The cache may lose what it was given at any time, but it answers with nothing else. What is then
signed carries a domain that some call has read from the very contract and chain of the request.
-/

namespace Guardian
open Effect Text Program

def LeavesDomains : Op → Prop
  | .domainCacheGet _ => False
  | .domainCacheSet .. => False
  | _ => True

section Checks

theorem runA1_leavesDomains (ctx : SigningContext) (body : A1Request) (deps : A1Deps) :
    (runA1 ctx body deps).Performs LeavesDomains := by
  have hread : (readCache body deps).Performs LeavesDomains :=
    (readCache_performs body deps).mono fun op hop => by
      obtain ⟨k, rfl⟩ := hop
      trivial
  have hfetch : (fetchA1OnChain ctx body.chainId body.requestContract deps.policy).Performs
      LeavesDomains :=
    (fetchA1OnChain_performs _ _).mono fun op hop => by
      cases op with
      | domainCacheGet => exact hop
      | domainCacheSet => exact hop
      | _ => trivial
  rw [runA1]
  split
  · trivial
  · refine .bind hread fun hit => ?_
    cases hit with
    | some data => trivial
    | none =>
      refine .bind hfetch fun r => ?_
      rcases r with e | (data | data)
      · trivial
      · refine .bind ((writeCache_performs body deps data).mono fun op hop => ?_) fun _ => trivial
        obtain ⟨k, v, ttl, rfl⟩ := hop
        trivial
      · trivial

theorem runA2_leavesDomains (policy : IntentFundBindingPolicy) (ctx : SigningContext)
    (body : IntentFundBindingBody) : (runA2 policy ctx body).Performs LeavesDomains := by
  rw [runA2]
  split
  · trivial
  · dsimp only
    split
    · trivial
    · refine .call_bind trivial fun answer => ?_
      cases answer with
      | ok reads => trivial
      | error e =>
        dsimp only
        split <;> trivial

theorem checkPmLeg_leavesDomains {policy : IntentSwapPolicy} {ctx : SigningContext} {chainId : ℕ}
    {deadlineCheck : CheckEntry} {pmLeg debtLeg : SwapLeg} :
    (checkPmLeg policy ctx chainId deadlineCheck pmLeg debtLeg).Performs LeavesDomains := by
  refine .call_bind trivial fun answer => ?_
  cases answer <;> trivial

theorem runA3_leavesDomains (policy : IntentSwapPolicy) (ctx : SigningContext)
    (body : IntentSwapBody) : (runA3 policy ctx body).Performs LeavesDomains := by
  rw [runA3]
  split
  · dsimp only
    split
    · trivial
    · refine .call_bind trivial fun answer => ?_
      cases answer with
      | error e => trivial
      | ok slots =>
        dsimp only
        split
        · trivial
        · trivial
        · exact checkPmLeg_leavesDomains
        · exact checkPmLeg_leavesDomains
  · trivial

theorem runA1Batch_leavesDomains (ctx : SigningContext) (chainId deadline : ℕ) (deps : A1Deps)
    (checks : List CheckEntry) (contracts : List Address) :
    (runA1Batch ctx chainId deadline deps checks contracts).Performs LeavesDomains := by
  induction contracts generalizing checks with
  | nil => trivial
  | cons contract contracts ih =>
    refine .bind (runA1_leavesDomains ctx _ deps) fun r => ?_
    cases nestedEntries contract r with
    | error failure => trivial
    | ok entries => exact ih _

theorem runA4_leavesDomains (maxRequestContracts : ℤ) (deps : RequestWhitelistingDeps)
    (ctx : SigningContext) (body : RequestWhitelistingBody) :
    (runA4 maxRequestContracts deps ctx body).Performs LeavesDomains := by
  have hbatch : ∀ checks, (batchEntries deps ctx body checks).Performs LeavesDomains := by
    intro checks
    rw [batchEntries]
    split
    · exact runA1Batch_leavesDomains ..
    · trivial
  rw [runA4]
  split
  · trivial
  · split
    · trivial
    · refine .bind (hbatch _) fun r => ?_
      cases r with
      | error failure => trivial
      | ok checks =>
        refine checkNonce_performs.mono fun op hop => ?_
        obtain ⟨c, book, signer, n, rfl⟩ := hop
        trivial

end Checks

section Fetch
variable {chainId : ℕ} {contract : Address} {deps : Eip712DomainCacheDeps}
  {tr : List SigningEvent} {domain : Eip712DomainNameVersion} {k : String}

theorem readDomainCache_performs (k : String) (cache : Bool) :
    (readDomainCache k cache).Performs fun op : Op => op = .domainCacheGet k := by
  unfold readDomainCache
  split
  · refine .call_bind rfl fun hit => ?_
    cases hit <;> trivial
  · trivial

theorem readDomainCache_hit {cache : Bool}
    (h : Executes (readDomainCache k cache) tr (some domain)) :
    (⟨.domainCacheGet k, .ok (some domain)⟩ : SigningEvent) ∈ tr := by
  unfold readDomainCache at h
  split at h
  · obtain ⟨hit, tr', rfl, hrest⟩ := executes_perform.mp h
    cases hit with
    | ok found =>
      obtain ⟨rfl, hfound⟩ := runs_done.mp hrest
      cases hfound
      exact .head _
    | error e => cases (runs_done.mp hrest).2
  · cases (runs_done.mp h).2

theorem fetch_resolved
    (h : Executes (fetchEip712DomainNameVersion chainId contract deps) tr (.ok domain)) :
    (⟨.domainCacheGet (eip712DomainCacheKey chainId contract), .ok (some domain)⟩ :
      SigningEvent) ∈ tr ∨ (⟨.eip712Domain chainId contract, .ok domain⟩ : SigningEvent) ∈ tr := by
  obtain ⟨tr₁, tr₂, hit, rfl, hread, hrest⟩ := executes_bind.mp h
  cases hit with
  | some found =>
    obtain ⟨rfl, hfound⟩ := runs_done.mp hrest
    cases hfound
    rw [List.append_nil]
    exact .inl (readDomainCache_hit hread)
  | none =>
    obtain ⟨answer, tr', rfl, hanswer⟩ := executes_perform.mp hrest
    rw [bind_done] at hanswer
    cases answer with
    | ok result =>
      dsimp only at hanswer
      obtain ⟨tr₃, tr₄, u, rfl, -, hdone⟩ := executes_bind.mp hanswer
      obtain ⟨rfl, hresult⟩ := runs_done.mp hdone
      cases hresult
      exact .inr (List.mem_append_right _ (.head _))
    | error e =>
      dsimp only at hanswer
      split at hanswer
      · cases (runs_done.mp hanswer).2
      · cases (runs_done.mp hanswer).2

theorem fetch_writes {ttl : Option ℤ}
    {next : Except Unit Unit → Signing (Except SigningError Eip712DomainNameVersion)}
    (h : Runs (fetchEip712DomainNameVersion chainId contract deps) tr
      (.perform (.domainCacheSet k domain ttl) next)) :
    k = eip712DomainCacheKey chainId contract ∧
      (⟨.eip712Domain chainId contract, .ok domain⟩ : SigningEvent) ∈ tr := by
  rcases runs_bind_perform h with ⟨next', hread⟩ | ⟨tr₁, tr₂, hit, rfl, -, hrest⟩
  · cases ((readDomainCache_performs _ _).rest hread).1
  cases hit with
  | some found => cases (runs_done.mp hrest).2
  | none =>
    rcases runs_perform.mp hrest with ⟨-, heq⟩ | ⟨answer, tr', rfl, hanswer⟩
    · cases heq
    rw [bind_done] at hanswer
    cases answer with
    | ok result =>
      dsimp only at hanswer
      rcases runs_bind_perform hanswer with ⟨next', hwrite⟩ | ⟨tr₃, tr₄, u, -, -, hdone⟩
      · rw [writeDomainCache] at hwrite
        split at hwrite
        · rcases runs_perform.mp hwrite with ⟨rfl, heq⟩ | ⟨r, tr₃, -, hdone⟩
          · cases heq
            exact ⟨rfl, List.mem_append_right _ (.head _)⟩
          · cases (runs_done.mp hdone).2
        · cases (runs_done.mp hwrite).2
      · cases (runs_done.mp hdone).2
    | error e =>
      dsimp only at hanswer
      split at hanswer
      · cases (runs_done.mp hanswer).2
      · cases (runs_done.mp hanswer).2

end Fetch

section Runner
variable {α : Type} {deps : SignDeps} {ctx : SigningContext}
  {checks : Signing (Settled (List CheckEntry))} {chainId : ℕ} {contract : Address}
  {build : Eip712Domain → Except Thrown TypedData} {respond : SigningSuccess → α}
  {toJson : α → Json} {walk : List SigningEvent} {k : String} {domain : Eip712DomainNameVersion}
  {ttl : Option ℤ}

theorem signPayload_performs (entries : List CheckEntry) (built : Except Thrown TypedData) :
    (signPayload deps ctx entries built).Performs fun op : Op => ∃ td, op = .signTypedData td := by
  unfold signPayload
  split
  · trivial
  · split
    · trivial
    · refine .call_bind ⟨_, rfl⟩ fun answer => ?_
      cases answer <;> trivial

theorem runSigner_writes (hchecks : checks.Performs LeavesDomains)
    {next : Except Unit Unit → Signing (Settled Json)}
    (h : Runs (Except.map toJson <$> runSigner deps ctx checks chainId contract build respond)
      walk (.perform (.domainCacheSet k domain ttl) next)) :
    k = eip712DomainCacheKey ctx.chainId contract ∧
      (⟨.eip712Domain ctx.chainId contract, .ok domain⟩ : SigningEvent) ∈ walk := by
  rw [map_eq_pure_bind] at h
  rcases runs_bind_perform h with ⟨next', hrun⟩ | ⟨tr₁, tr₂, r, -, -, hdone⟩
  swap
  · cases (runs_done.mp hdone).2
  rcases runs_bind_perform hrun with ⟨next', hreads⟩ | ⟨reads, tr₂, r, rfl, -, hrest⟩
  · exact (hchecks.rest hreads).1.elim
  cases r with
  | error failure => cases (runs_done.mp hrest).2
  | ok entries =>
    rcases runs_bind_perform hrest with
      ⟨next', hresolve⟩ | ⟨resolution, tr₃, r, rfl, -, hsign⟩
    · obtain ⟨hkey, hread⟩ := fetch_writes hresolve
      exact ⟨hkey, List.mem_append_right _ hread⟩
    cases r with
    | error e => cases (runs_done.mp hsign).2
    | ok resolved =>
      rcases runs_bind_perform hsign with ⟨next', hsign⟩ | ⟨tr₄, tr₅, settled, -, -, hdone⟩
      · obtain ⟨td, heq⟩ := ((signPayload_performs _ _).rest hsign).1
        cases heq
      · cases (runs_done.mp hdone).2

end Runner

section Sign
variable {policies : GuardianPolicies} {setup : GuardianSetup} {deps : SignDeps}
  {ctx : SigningContext} {body : ParsedSigningBody} {tr : List SigningEvent}

theorem checks_leavesDomains (hbuilds : policies.Builds deps.guardianSigner setup)
    (ctx : SigningContext) (body : ParsedSigningBody) :
    (setup.checks ctx body).Performs LeavesDomains := by
  cases body with
  | setRequest body =>
    rw [GuardianSetup.checks, buildIntentRequestBindingChecks_ok hbuilds.requestBinding]
    exact .bind (runA1_leavesDomains ..) fun _ => trivial
  | setFund body =>
    rw [GuardianSetup.checks, hbuilds.fundBinding]
    exact runA2_leavesDomains ..
  | swap body =>
    rw [GuardianSetup.checks, (buildIntentSwapChecks_ok hbuilds.swap).2]
    exact runA3_leavesDomains ..
  | requestWhitelisting body =>
    rw [GuardianSetup.checks, (buildRequestWhitelistingChecks_ok hbuilds.requestWhitelisting).2]
    exact runA4_leavesDomains ..

theorem sign_writes (hbuilds : policies.Builds deps.guardianSigner setup) {k : String}
    {domain : Eip712DomainNameVersion} {ttl : Option ℤ}
    {next : Except Unit Unit → Signing (Settled Json)}
    (h : Runs (setup.sign deps ctx body) tr (.perform (.domainCacheSet k domain ttl) next)) :
    k = eip712DomainCacheKey ctx.chainId body.target.2 ∧
      (⟨.eip712Domain ctx.chainId body.target.2, .ok domain⟩ : SigningEvent) ∈ tr := by
  have hchecks := checks_leavesDomains hbuilds ctx body
  cases body with
  | setRequest body => exact runSigner_writes hchecks h
  | setFund body => exact runSigner_writes hchecks h
  | swap body => exact runSigner_writes hchecks h
  | requestWhitelisting body => exact runSigner_writes hchecks h

end Sign

section Calls
variable {ι σ : Type} [DecidableEq ι] {policies : ι → GuardianPolicies}
  {setups : ι → GuardianSetup} {deps : ι → SignDeps} {ctx : ι → SigningContext}
  {bodies : ι → ParsedSigningBody} {W : World env ι σ} {s : σ}
  {c : Config env ι σ (Settled Json)} {before after : List (ι × SigningEvent)} {i : ι}

theorem signed_domain_resolved
    (hbuilds : ∀ i, (policies i).Builds (deps i).guardianSigner (setups i))
    (hchain : ∀ i, (ctx i).chainId = (bodies i).chainId)
    (h : Config.Reachable W s (fun i => (setups i).sign (deps i) (ctx i) (bodies i)) c)
    {td : TypedData} {r : Except SignTypedDataError String}
    (hlog : c.log = before ++ (i, ⟨.signTypedData td, r⟩) :: after) :
    ∃ domain, (bodies i).typedData domain (deps i).guardianSigner = .ok td ∧
      ((i, (⟨.domainCacheGet (eip712DomainCacheKey (bodies i).chainId (bodies i).target.2),
          .ok (some domain)⟩ : SigningEvent)) ∈ before ∨
        (i, (⟨.eip712Domain (bodies i).chainId (bodies i).target.2, .ok domain⟩ :
          SigningEvent)) ∈ before) := by
  obtain ⟨next, hissued⟩ := Config.reachable_issued h hlog
  obtain ⟨reads, hdue⟩ := sign_issued (hbuilds i) hissued
  generalize hevents : Config.eventsOf i before = walk at hdue
  cases hdue with
  | @intro resolution _ resolved _ hresolve hbuilt =>
    have hmem : ∀ e ∈ resolution, (i, e) ∈ before := by
      intro e he
      refine Config.mem_eventsOf.mp ?_
      rw [hevents]
      exact List.mem_append_right _ he
    rw [← hchain i]
    exact ⟨resolved, hbuilt, (fetch_resolved hresolve).imp (hmem _) (hmem _)⟩

theorem stored_domain_read
    (hbuilds : ∀ i, (policies i).Builds (deps i).guardianSigner (setups i))
    (hchain : ∀ i, (ctx i).chainId = (bodies i).chainId)
    (h : Config.Reachable W s (fun i => (setups i).sign (deps i) (ctx i) (bodies i)) c)
    {k : String} {domain : Eip712DomainNameVersion} {ttl : Option ℤ} {r : Except Unit Unit}
    (hlog : c.log = before ++ (i, ⟨.domainCacheSet k domain ttl, r⟩) :: after) :
    k = eip712DomainCacheKey (bodies i).chainId (bodies i).target.2 ∧
      (i, (⟨.eip712Domain (bodies i).chainId (bodies i).target.2, .ok domain⟩ :
        SigningEvent)) ∈ before := by
  obtain ⟨next, hwrites⟩ := Config.reachable_issued h hlog
  obtain ⟨hkey, hread⟩ := sign_writes (hbuilds i) hwrites
  rw [← hchain i]
  exact ⟨hkey, Config.mem_eventsOf.mp hread⟩

end Calls

abbrev DomainEntries := List (String × Eip712DomainNameVersion)

def domainCacheServes (s : DomainEntries) : SigningEvent → DomainEntries → Prop
  | ⟨.domainCacheGet k, answer⟩, s' => s' = s ∧
      ∀ domain, (answer : Except Unit (Option Eip712DomainNameVersion)) = .ok (some domain) →
        (k, domain) ∈ s
  | ⟨.domainCacheSet k domain _, _⟩, s' => s' = s ∨ s' = s ++ [(k, domain)]
  | _, s' => s' = s

/-- A cache that answers with what it was given, or with nothing. -/
def domainCacheWorld (ι : Type) : World env ι DomainEntries where
  serves _ := domainCacheServes
  evolves s s' := ∀ entry ∈ s', entry ∈ s

section Shared
variable {ι : Type} [DecidableEq ι] {s s' : DomainEntries} {log : List (ι × SigningEvent)}

structure Traced (s : DomainEntries) (log : List (ι × SigningEvent)) : Prop where
  written : ∀ k domain, (k, domain) ∈ s → ∃ i ttl r,
    (i, (⟨.domainCacheSet k domain ttl, r⟩ : SigningEvent)) ∈ log
  hits : ∀ before after i k domain,
    log = before ++ (i, ⟨.domainCacheGet k, .ok (some domain)⟩) :: after → ∃ j ttl r,
      (j, (⟨.domainCacheSet k domain ttl, r⟩ : SigningEvent)) ∈ before

omit [DecidableEq ι] in
theorem Traced.serve (h : Traced s log) {i : ι} {e : SigningEvent}
    (hserves : domainCacheServes s e s') : Traced s' (log ++ [(i, e)]) := by
  have hold : ∀ k domain, (k, domain) ∈ s → ∃ j ttl r,
      (j, (⟨.domainCacheSet k domain ttl, r⟩ : SigningEvent)) ∈ log ++ [(i, e)] := by
    intro k domain hmem
    obtain ⟨j, ttl, r, hset⟩ := h.written k domain hmem
    exact ⟨j, ttl, r, List.mem_append_left _ hset⟩
  have hlast : ∀ k domain, e = ⟨.domainCacheGet k, .ok (some domain)⟩ → (k, domain) ∈ s := by
    rintro k domain rfl
    exact hserves.2 domain rfl
  refine ⟨fun k domain hmem => ?_, fun before after j k domain hsplit => ?_⟩
  · obtain ⟨op, answer⟩ := e
    cases op with
    | domainCacheGet k' =>
      obtain ⟨rfl, -⟩ := hserves
      exact hold k domain hmem
    | domainCacheSet k' domain' ttl =>
      rcases hserves with rfl | rfl
      · exact hold k domain hmem
      · rcases List.mem_append.mp hmem with hmem | hnew
        · exact hold k domain hmem
        · cases List.mem_singleton.mp hnew
          exact ⟨i, ttl, answer, List.mem_append_right _ (.head _)⟩
    | _ =>
      have hsame : s' = s := hserves
      exact hold k domain (hsame ▸ hmem)
  · rcases List.eq_nil_or_concat after with rfl | ⟨after, x, rfl⟩
    · obtain ⟨rfl, hx⟩ := List.append_inj' hsplit rfl
      have heq := congrArg Prod.snd (List.singleton_injective hx)
      obtain ⟨j', ttl, r, hset⟩ := h.written k domain (hlast k domain heq)
      exact ⟨j', ttl, r, hset⟩
    · rw [List.concat_eq_append, ← List.cons_append, ← List.append_assoc] at hsplit
      exact h.hits before after j k domain (List.append_inj' hsplit rfl).1

theorem traced_reachable {α : Type} {procs : ι → Program env α} {c : Config env ι DomainEntries α}
    (h : Config.Reachable (domainCacheWorld ι) [] procs c) : Traced c.world c.log := by
  have hstart : Traced [] ([] : List (ι × SigningEvent)) := by
    refine ⟨fun k domain hmem => ?_, fun before after i k domain heq => ?_⟩
    · cases hmem
    · cases before <;> cases heq
  exact Config.reachable_invariant hstart
    (fun i s log e s' htraced hserves => htraced.serve hserves)
    (fun s log s' htraced (hevolves : ∀ entry ∈ s', entry ∈ s) =>
      ⟨fun k domain hmem => htraced.written k domain (hevolves _ hmem), htraced.hits⟩) h

end Shared

/-- What is signed carries a domain that was read before, by this call or by another, from the
contract of the request on the chain of the request. -/
theorem signed_domain_was_read {ι : Type} [DecidableEq ι] (policies : ι → GuardianPolicies)
    (setups : ι → GuardianSetup) (deps : ι → SignDeps) (ctx : ι → SigningContext)
    (bodies : ι → ParsedSigningBody)
    (hbuilds : ∀ i, (policies i).Builds (deps i).guardianSigner (setups i))
    (hchain : ∀ i, (ctx i).chainId = (bodies i).chainId)
    (c : Config env ι DomainEntries (Settled Json))
    (h : Config.Reachable (domainCacheWorld ι) []
      (fun i => (setups i).sign (deps i) (ctx i) (bodies i)) c)
    (i : ι) (td : TypedData) (r : Except SignTypedDataError String)
    (before after : List (ι × SigningEvent))
    (hlog : c.log = before ++ (i, ⟨.signTypedData td, r⟩) :: after) :
    ∃ domain, (bodies i).typedData domain (deps i).guardianSigner = .ok td ∧
      ∃ j contract, toLowerCase contract = toLowerCase (bodies i).target.2 ∧
        (j, (⟨.eip712Domain (bodies i).chainId contract, .ok domain⟩ : SigningEvent)) ∈ before := by
  obtain ⟨domain, hbuilt, hresolved⟩ := signed_domain_resolved hbuilds hchain h hlog
  refine ⟨domain, hbuilt, ?_⟩
  rcases hresolved with hhit | hread
  · obtain ⟨looked, rest, rfl⟩ := List.append_of_mem hhit
    rw [List.append_assoc, List.cons_append] at hlog
    obtain ⟨j, ttl, r', hset⟩ := (traced_reachable h).hits looked _ i _ domain hlog
    obtain ⟨first, middle, rfl⟩ := List.append_of_mem hset
    rw [List.append_assoc, List.cons_append] at hlog
    obtain ⟨hkey, hread⟩ := stored_domain_read hbuilds hchain h hlog
    obtain ⟨hid, hcontract⟩ := key_injective hkey
    rw [hid]
    exact ⟨j, (bodies j).target.2, hcontract.symm,
      List.mem_append_left _ (List.mem_append_left _ hread)⟩
  · exact ⟨i, (bodies i).target.2, rfl, hread⟩

namespace Sample

def cachedAnswers (s : DomainEntries) : ∀ op : Op, op.Answer
  | .domainCacheGet k => .ok ((s.find? fun entry => decide (entry.1 = k)).map Prod.snd)
  | .domainCacheSet .. => .ok ()
  | .eip712Domain .. => .ok ⟨"Facility", "1"⟩
  | .signTypedData _ => .ok (hex 130)
  | op => boundClient op

def cachedNext (s : DomainEntries) : Op → DomainEntries
  | .domainCacheSet k domain _ => s ++ [(k, domain)]
  | _ => s

theorem cached_serves (i : Bool) (s : DomainEntries) (op : Op) :
    (domainCacheWorld Bool).serves i s ⟨op, cachedAnswers s op⟩ (cachedNext s op) := by
  cases op with
  | domainCacheGet k =>
    refine ⟨rfl, fun domain hfound => ?_⟩
    obtain ⟨entry, hentry, rfl⟩ := Option.map_eq_some_iff.mp (Except.ok.inj hfound)
    have hkey : entry.1 = k := by simpa using List.find?_some hentry
    rw [← hkey]
    exact List.mem_of_find?_eq_some hentry
  | domainCacheSet k domain ttl => exact .inr rfl
  | _ => exact rfl

def cachingDeps : SignDeps := { signerDeps crypto kmsSigner with domainCache := ⟨true, none⟩ }

def sharedBody (upper : Bool) : ParsedSigningBody :=
  .setRequest { kmsBody with
    facility := "0x111111111111111111111111111111111111111" ++ (if upper then "A" else "a")
    requestContract := hex 40 }

def cachingCall (upper : Bool) : Signing (Settled Json) :=
  guardianSetup.sign cachingDeps ⟨1, 1000000, true⟩ (sharedBody upper)

def isSignature : Op → Bool
  | .signTypedData _ => true
  | _ => false

def readsDomain : Op → Bool
  | .eip712Domain .. => true
  | _ => false

theorem calls_sign {σ : Type} {W : World Guardian.env Bool σ} (answer : σ → ∀ op : Op, op.Answer)
    (next : σ → Op → σ) (s : σ)
    (hserves : ∀ i s op, W.serves i s ⟨op, answer s op⟩ (next s op))
    (hsecond : ((Config.alone answer next (Config.alone answer next s (cachingCall true)).2
      (cachingCall false)).1.map fun e => (isSignature e.op, readsDomain e.op)) =
        [(false, false), (true, false)]) :
    ∃ (c : Config Guardian.env Bool σ (Settled Json)) (td : TypedData)
      (r : Except SignTypedDataError String) (before after : List (Bool × SigningEvent)),
      Config.Reachable W s (fun i => cachingCall i) c ∧
        c.log = before ++ (false, ⟨.signTypedData td, r⟩) :: after ∧
        ∀ e, (false, e) ∈ before → readsDomain e.op = false := by
  obtain ⟨c, hreach, hworld, hlog, hother, -⟩ := Config.Reachable.alone answer next
    (.refl : Config.Reachable W s (fun i => cachingCall i) _) true (hserves true)
  obtain ⟨c', hreach', -, hlog', -⟩ :=
    Config.Reachable.alone answer next hreach false (hserves false)
  have hprogram : c.procs false = cachingCall false := hother false (by decide)
  have hfirst : c.world = (Config.alone answer next s (cachingCall true)).2 := hworld
  obtain ⟨lookup, rest, htrace, hlookup, hrest⟩ := List.map_eq_cons_iff.mp hsecond
  obtain ⟨⟨op, r⟩, rest, rfl, hsigner, hnil⟩ := List.map_eq_cons_iff.mp hrest
  obtain rfl := List.map_eq_nil_iff.mp hnil
  cases op
  case signTypedData td =>
    refine ⟨c', td, r, c.log ++ [(false, lookup)], [], hreach', ?_, fun e he => ?_⟩
    · rw [hlog', hprogram, hfirst, htrace]
      simp
    · rcases List.mem_append.mp he with he | he
      · rw [hlog, List.mem_append, List.mem_map] at he
        rcases he with he | ⟨_, -, heq⟩
        · cases he
        · cases heq
      · cases List.mem_singleton.mp he
        exact congrArg Prod.snd hlookup
  all_goals cases hsigner

end Sample

/-- The second call signs under the domain that the first has read. -/
theorem signed_domain_was_read_shared : ∃ domain td, ∃ before : List (Bool × SigningEvent),
    (Sample.sharedBody false).typedData domain Sample.kmsAddress = .ok td ∧
      ∃ contract, toLowerCase contract = toLowerCase (Sample.sharedBody false).target.2 ∧
        (true, (⟨.eip712Domain 1 contract, .ok domain⟩ : SigningEvent)) ∈ before := by
  obtain ⟨c, td, r, before, after, hreach, hlog, hreads⟩ :=
    Sample.calls_sign Sample.cachedAnswers Sample.cachedNext [] Sample.cached_serves
      (by decide +kernel)
  obtain ⟨domain, hbuilt, j, contract, hcontract, hread⟩ := signed_domain_was_read
    (fun _ => Sample.guardianPolicies) (fun _ => Sample.guardianSetup)
    (fun _ => Sample.cachingDeps) (fun _ => ⟨1, 1000000, true⟩) Sample.sharedBody
    (fun _ => Sample.guardianSetup_builds) (fun _ => rfl) c hreach false td r before after hlog
  cases j with
  | false => cases hreads _ hread
  | true => exact ⟨domain, td, before, hbuilt, contract, hcontract, hread⟩

end Guardian
