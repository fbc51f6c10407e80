import Guardian.Defaults.CacheReference
import Guardian.Server.SharedDomains

/-!
# Domains from the bundled cache

Any number of signing calls share one cache in memory. It serves each operation in one turn, by
whatever clock the host has given it, and the host may delete a key at any time. A call that finds
a domain finds the one that was stored last, so that a domain which has been read again and
stored is not signed in its former state.
-/

namespace Guardian
open Effect Text Program Double

/-- The schema lets a stored value through as it is, or rejects it. -/
def Schema.Keeps {Issues V : Type} (schema : Schema Issues V) : Prop :=
  ∀ raw v, schema.validate raw = .ok (some v) → v = raw

namespace InMemoryCache
variable {Issues V : Type} {cache : InMemoryCache (Option V)} {written : List (String × Option V)}

theorem HoldsLast.delete (h : cache.HoldsLast written) (key : String) :
    (cache.delete key).HoldsLast written :=
  fun key' entry hget => h key' entry (OrderedMap.get?_of_filter hget)

theorem HoldsLast.get (h : cache.HoldsLast written) (schema : Schema Issues V) (now : ℚ)
    (key : String) : (cache.get schema now key).2.HoldsLast written := by
  have hraw := h.rawGet now key
  unfold InMemoryCache.get
  generalize cache.rawGet now key = answer at hraw ⊢
  obtain ⟨found, cache'⟩ := answer
  rcases found with _ | (_ | raw)
  · exact hraw
  · exact hraw
  · dsimp only
    split
    · exact hraw
    · exact hraw.delete key

theorem get_last {schema : Schema Issues V} (hschema : schema.Keeps) (h : cache.HoldsLast written)
    {now : ℚ} {key : String} {v : V} (hget : (cache.get schema now key).1 = some v) :
    lastWritten written key = some (some v) := by
  have hlast : ∀ value, (cache.rawGet now key).1 = some value →
      lastWritten written key = some value := fun value => rawGet_last h
  unfold InMemoryCache.get at hget
  generalize cache.rawGet now key = answer at hget hlast
  obtain ⟨found, cache'⟩ := answer
  rcases found with _ | (_ | raw)
  · cases hget
  · cases hget
  · dsimp only at hget
    split at hget
    · rename_i value hvalid
      cases hget
      rw [hschema raw v hvalid]
      exact hlast (some raw) rfl
    · cases hget

theorem holdsLast_make {defaultTtlMs maxEntries : Option JsNumber}
    (h : make defaultTtlMs maxEntries = .ok cache) : cache.HoldsLast [] := by
  intro key entry hget
  rw [(make_ttl h).1] at hget
  cases hget

end InMemoryCache

abbrev DomainCache := InMemoryCache (Option Eip712DomainNameVersion)

section World
variable {Issues : Type} (schema : Schema Issues Eip712DomainNameVersion)

def bundledServes (s : DomainCache) : SigningEvent → DomainCache → Prop
  | ⟨.domainCacheGet k, answer⟩, s' => ∃ now,
      (answer : Except Unit (Option Eip712DomainNameVersion)) = .ok (s.get schema now k).1 ∧
        s' = (s.get schema now k).2
  | ⟨.domainCacheSet k domain ttl, answer⟩, s' => ∃ now sweptAt,
      match s.set now sweptAt k (some domain) (ttl.map fun ms => .finite ms) with
      | .ok stored => (answer : Except Unit Unit) = .ok () ∧ s' = stored
      | .error _ => (answer : Except Unit Unit) = .error () ∧ s' = s
  | _, s' => s' = s

/-- The cache serves by its clock. A key may be deleted at any time: by the host, or late by a read
that rejected its value. -/
def bundledDomainWorld (ι : Type) : World env ι DomainCache where
  serves _ := bundledServes schema
  evolves s s' := ∃ k, s' = s.delete k

end World

def storedBy : SigningEvent → Option (String × Option Eip712DomainNameVersion)
  | ⟨.domainCacheSet k domain _, answer⟩ =>
    match (answer : Except Unit Unit) with
    | .ok _ => some (k, some domain)
    | .error _ => none
  | _ => none

theorem storedBy_eq_some {e : SigningEvent} {k : String} {value : Option Eip712DomainNameVersion} :
    storedBy e = some (k, value) ↔
      ∃ domain ttl, value = some domain ∧ e = ⟨.domainCacheSet k domain ttl, .ok ()⟩ := by
  constructor
  · intro h
    obtain ⟨op, answer⟩ := e
    cases op with
    | domainCacheSet k' domain ttl =>
      rcases answer with _ | ⟨⟩
      · cases h
      · cases h
        exact ⟨domain, ttl, rfl, rfl⟩
    | _ => cases h
  · rintro ⟨domain, ttl, rfl, rfl⟩
    rfl

section Shared
variable {ι Issues : Type} {schema : Schema Issues Eip712DomainNameVersion}
  {log : List (ι × SigningEvent)} {s s' : DomainCache}

def storesIn (log : List (ι × SigningEvent)) : List (String × Option Eip712DomainNameVersion) :=
  log.filterMap fun e => storedBy e.2

theorem storesIn_snoc (i : ι) (e : SigningEvent) :
    storesIn (log ++ [(i, e)]) = storesIn log ++ (storedBy e).toList := by
  rw [storesIn, List.filterMap_append]
  cases h : storedBy e <;> simp [storesIn, h]

/-- The cache holds what was stored last, and so did every hit. -/
structure LastStored (s : DomainCache) (log : List (ι × SigningEvent)) : Prop where
  holds : s.HoldsLast (storesIn log)
  hits : ∀ before after i k domain,
    log = before ++ (i, ⟨.domainCacheGet k, .ok (some domain)⟩) :: after →
      InMemoryCache.lastWritten (storesIn before) k = some (some domain)

theorem bundledServes_holds {e : SigningEvent} (h : s.HoldsLast (storesIn log)) (i : ι)
    (hserves : bundledServes schema s e s') : s'.HoldsLast (storesIn (log ++ [(i, e)])) := by
  rw [storesIn_snoc]
  obtain ⟨op, answer⟩ := e
  cases op with
  | domainCacheGet k =>
    obtain ⟨now, -, rfl⟩ := hserves
    have hnone : storedBy ⟨.domainCacheGet k, answer⟩ = none := rfl
    rw [hnone, Option.toList_none, List.append_nil]
    exact h.get schema now k
  | domainCacheSet k domain ttl =>
    obtain ⟨now, sweptAt, hset⟩ := hserves
    split at hset
    · rename_i stored hstored
      obtain ⟨rfl, rfl⟩ := hset
      exact h.set hstored
    · obtain ⟨rfl, rfl⟩ := hset
      simpa [storedBy] using h
  | _ =>
    obtain rfl : s' = s := hserves
    simpa [storedBy] using h

theorem LastStored.serve (hschema : schema.Keeps) (h : LastStored s log) {i : ι} {e : SigningEvent}
    (hserves : bundledServes schema s e s') : LastStored s' (log ++ [(i, e)]) := by
  refine ⟨bundledServes_holds h.holds i hserves, fun before after j k domain hsplit => ?_⟩
  rcases List.eq_nil_or_concat after with rfl | ⟨after, x, rfl⟩
  · obtain ⟨rfl, hx⟩ := List.append_inj' hsplit rfl
    cases List.singleton_injective hx
    obtain ⟨now, hanswer, -⟩ := hserves
    exact InMemoryCache.get_last hschema h.holds (Except.ok.inj hanswer).symm
  · rw [List.concat_eq_append, ← List.cons_append, ← List.append_assoc] at hsplit
    exact h.hits before after j k domain (List.append_inj' hsplit rfl).1

theorem lastStored_reachable [DecidableEq ι] (hschema : schema.Keeps) {α : Type}
    {defaultTtlMs maxEntries : Option JsNumber}
    (hmake : InMemoryCache.make defaultTtlMs maxEntries = .ok s)
    {procs : ι → Program env α} {c : Config env ι DomainCache α}
    (h : Config.Reachable (bundledDomainWorld schema ι) s procs c) : LastStored c.world c.log := by
  have hstart : LastStored s ([] : List (ι × SigningEvent)) := by
    refine ⟨InMemoryCache.holdsLast_make hmake, fun before after i k domain heq => ?_⟩
    cases before <;> cases heq
  refine Config.reachable_invariant hstart
    (fun i s log e s' hlast hserves => hlast.serve hschema hserves)
    (fun s log s' hlast hdeleted => ?_) h
  obtain ⟨k, rfl⟩ := hdeleted
  exact ⟨hlast.holds.delete k, hlast.hits⟩

theorem storesIn_last {k : String} {domain : Eip712DomainNameVersion}
    (h : InMemoryCache.lastWritten (storesIn log) k = some (some domain)) :
    ∃ first j ttl middle, log = first ++ (j, ⟨.domainCacheSet k domain ttl, .ok ()⟩) :: middle ∧
      ∀ e ∈ middle, ∀ later ttl', e.2 ≠ ⟨.domainCacheSet k later ttl', .ok ()⟩ := by
  obtain ⟨before, after, hsplit, hafter⟩ := InMemoryCache.lastWritten_split h
  obtain ⟨first, last, rfl, -, hlast⟩ := List.filterMap_eq_append_iff.mp hsplit
  obtain ⟨quiet, ⟨j, e⟩, middle, rfl, -, hstored, hmiddle⟩ := List.filterMap_eq_cons_iff.mp hlast
  obtain ⟨stored, ttl, hdomain, rfl⟩ := storedBy_eq_some.mp hstored
  cases hdomain
  refine ⟨first ++ quiet, j, ttl, middle, (List.append_assoc _ _ _).symm, ?_⟩
  intro e he later ttl' heq
  have hmem : (k, some later) ∈ after := by
    rw [← hmiddle]
    exact List.mem_filterMap.mpr ⟨e, he, storedBy_eq_some.mpr ⟨later, ttl', rfl, heq⟩⟩
  exact hafter _ hmem rfl

end Shared

/-- A call was given the domain that was stored last for its contract, by a call that had read it
from there. -/
inductive GivenLast {ι : Type} (i : ι) (chainId : ℕ) (contract : Address)
    (domain : Eip712DomainNameVersion) : List (ι × SigningEvent) → Prop
  | intro {first middle rest : List (ι × SigningEvent)} {j : ι} {ttl : Option ℤ}
      {spelling : Address}
      (spelled : toLowerCase spelling = toLowerCase contract)
      (read : (j, (⟨.eip712Domain chainId spelling, .ok domain⟩ : SigningEvent)) ∈ first)
      (unchanged : ∀ e ∈ middle, ∀ later ttl',
        e.2 ≠ ⟨.domainCacheSet (eip712DomainCacheKey chainId contract) later ttl', .ok ()⟩) :
      GivenLast i chainId contract domain
        (first ++ (j, ⟨.domainCacheSet (eip712DomainCacheKey chainId contract) domain ttl,
          .ok ()⟩) :: (middle ++ (i, ⟨.domainCacheGet (eip712DomainCacheKey chainId contract),
            .ok (some domain)⟩) :: rest))

/-- With the bundled cache between them, a call signs under a domain that it has read itself or
that was the last one stored when it looked. -/
theorem signed_domain_last_stored {ι Issues : Type} [DecidableEq ι]
    (schema : Schema Issues Eip712DomainNameVersion) (hschema : schema.Keeps)
    (defaultTtlMs maxEntries : Option JsNumber) (cache : DomainCache)
    (hmake : InMemoryCache.make defaultTtlMs maxEntries = .ok cache)
    (policies : ι → GuardianPolicies) (setups : ι → GuardianSetup) (deps : ι → SignDeps)
    (ctx : ι → SigningContext) (bodies : ι → ParsedSigningBody)
    (hbuilds : ∀ i, (policies i).Builds (deps i).guardianSigner (setups i))
    (hchain : ∀ i, (ctx i).chainId = (bodies i).chainId)
    (c : Config env ι DomainCache (Settled Json))
    (h : Config.Reachable (bundledDomainWorld schema ι) cache
      (fun i => (setups i).sign (deps i) (ctx i) (bodies i)) c)
    (i : ι) (td : TypedData) (r : Except SignTypedDataError String)
    (before after : List (ι × SigningEvent))
    (hlog : c.log = before ++ (i, ⟨.signTypedData td, r⟩) :: after) :
    ∃ domain, (bodies i).typedData domain (deps i).guardianSigner = .ok td ∧
      ((i, (⟨.eip712Domain (bodies i).chainId (bodies i).target.2, .ok domain⟩ :
          SigningEvent)) ∈ before ∨
        GivenLast i (bodies i).chainId (bodies i).target.2 domain before) := by
  obtain ⟨domain, hbuilt, hresolved⟩ := signed_domain_resolved hbuilds hchain h hlog
  refine ⟨domain, hbuilt, ?_⟩
  rcases hresolved with hhit | hread
  · obtain ⟨looked, rest, rfl⟩ := List.append_of_mem hhit
    rw [List.append_assoc, List.cons_append] at hlog
    have hlast := (lastStored_reachable hschema hmake h).hits looked _ i _ domain hlog
    obtain ⟨first, j, ttl, middle, rfl, hunchanged⟩ := storesIn_last hlast
    rw [List.append_assoc, List.cons_append] at hlog
    obtain ⟨hkey, hread⟩ := stored_domain_read hbuilds hchain h hlog
    obtain ⟨hid, hcontract⟩ := key_injective hkey
    rw [← hid] at hread
    rw [List.append_assoc, List.cons_append]
    exact .inr (.intro hcontract.symm hread hunchanged)
  · exact .inl hread

namespace Sample

def keepingSchema : Schema Unit Eip712DomainNameVersion := ⟨fun raw => .ok (some raw)⟩

def emptyDomains : DomainCache := ⟨none, DEFAULT_MAX_ENTRIES, .empty⟩

def bundledAnswers (s : DomainCache) : ∀ op : Op, op.Answer
  | .domainCacheGet k => .ok (s.get keepingSchema 0 k).1
  | .domainCacheSet k domain ttl =>
    match s.set 0 0 k (some domain) (ttl.map fun ms => .finite ms) with
    | .ok _ => .ok ()
    | .error _ => .error ()
  | op => cachedAnswers [] op

def bundledNext (s : DomainCache) : Op → DomainCache
  | .domainCacheGet k => (s.get keepingSchema 0 k).2
  | .domainCacheSet k domain ttl =>
    match s.set 0 0 k (some domain) (ttl.map fun ms => .finite ms) with
    | .ok stored => stored
    | .error _ => s
  | _ => s

theorem bundled_serves (i : Bool) (s : DomainCache) (op : Op) :
    (bundledDomainWorld keepingSchema Bool).serves i s ⟨op, bundledAnswers s op⟩
      (bundledNext s op) := by
  cases op with
  | domainCacheGet k => exact ⟨0, rfl, rfl⟩
  | domainCacheSet k domain ttl =>
    refine ⟨0, 0, ?_⟩
    unfold bundledAnswers bundledNext
    dsimp only
    split
    · exact ⟨rfl, rfl⟩
    · exact ⟨rfl, rfl⟩
  | _ => exact rfl

end Sample

/-- The second call signs under what the first has stored. -/
theorem signed_domain_last_stored_shared : ∃ before domain td,
    (Sample.sharedBody false).typedData domain Sample.kmsAddress = .ok td ∧
      GivenLast false 1 (Sample.sharedBody false).target.2 domain before := by
  obtain ⟨c, td, r, before, after, hreach, hlog, hreads⟩ :=
    Sample.calls_sign Sample.bundledAnswers Sample.bundledNext Sample.emptyDomains
      Sample.bundled_serves (by decide +kernel)
  have hkeeps : Sample.keepingSchema.Keeps := fun raw v hvalid =>
    (Option.some.inj (Except.ok.inj hvalid)).symm
  obtain ⟨domain, hbuilt, hresolved⟩ := signed_domain_last_stored Sample.keepingSchema hkeeps
    none none Sample.emptyDomains rfl (fun _ => Sample.guardianPolicies)
    (fun _ => Sample.guardianSetup) (fun _ => Sample.cachingDeps) (fun _ => ⟨1, 1000000, true⟩)
    Sample.sharedBody (fun _ => Sample.guardianSetup_builds) (fun _ => rfl) c hreach false td r
    before after hlog
  rcases hresolved with hread | hgiven
  · cases hreads _ hread
  · exact ⟨before, domain, td, hbuilt, hgiven⟩

end Guardian
