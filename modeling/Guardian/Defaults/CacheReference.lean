import Guardian.Defaults.InMemoryCache
import Guardian.Lib.Machine
import Guardian.Lib.Recency

/-!
# The cache against a reference store

The reference keeps its entries in the order they were written. A write drops what has
expired and then the oldest entries beyond the bound; nothing else expires an entry.
-/

namespace Guardian
open Double Recency

/-- A value is `none` where the source has undefined, which a read takes for a miss. -/
structure Schema (Issues V : Type) where
  validate : V → Except Issues (Option V)

def Schema.IdempotentOnOutput {Issues V : Type} (schema : Schema Issues V) : Prop :=
  ∀ raw v, schema.validate raw = .ok (some v) → schema.validate v = .ok (some v)

/-- Each clock reading of an operation is given with it. -/
inductive CacheOp (V : Type) where
  | get (now : ℚ) (key : String)
  | set (now sweptAt : ℚ) (key : String) (value : Option V) (ttlMs : Option JsNumber)
  | delete (key : String)

def CacheOp.readings {V : Type} : CacheOp V → List ℚ
  | .get now _ => [now]
  | .set now sweptAt _ _ _ => [now, sweptAt]
  | .delete _ => []

def ClockedOps {V : Type} (ops : List (CacheOp V)) : Prop :=
  (ops.flatMap CacheOp.readings).Pairwise (· ≤ ·)

namespace InMemoryCache
variable {Issues V : Type}

/-- The hook for a validation failure only observes. -/
def get (schema : Schema Issues V) (cache : InMemoryCache (Option V)) (now : ℚ) (key : String) :
    Option V × InMemoryCache (Option V) :=
  match cache.rawGet now key with
  | (some (some raw), cache) =>
    match schema.validate raw with
    | .ok value => (value, cache)
    | .error _ => (none, cache.delete key)
  | (_, cache) => (none, cache)

def perform (schema : Schema Issues V) (cache : InMemoryCache (Option V)) :
    CacheOp V → Except Thrown (Option V) × InMemoryCache (Option V)
  | .get now key =>
    let (value, cache) := cache.get schema now key
    (.ok value, cache)
  | .set now sweptAt key value ttlMs =>
    match cache.set now sweptAt key value ttlMs with
    | .ok cache => (.ok none, cache)
    | .error thrown => (.error thrown, cache)
  | .delete key => (.ok none, cache.delete key)

end InMemoryCache

abbrev Entries (V : Type) := List (String × StoredEntry V)

def live {V : Type} (now : ℚ) (entries : Entries V) : Entries V :=
  entries.filter fun e => !e.2.expired now

structure ReferenceCache (V : Type) where
  defaultTtlMs : Option ℚ
  maxEntries : ℕ
  entries : Entries (Option V)

namespace ReferenceCache
variable {Issues V : Type}

def delete (ref : ReferenceCache V) (key : String) : ReferenceCache V :=
  { ref with entries := ref.entries.filter fun e => decide (e.1 ≠ key) }

def get (schema : Schema Issues V) (ref : ReferenceCache V) (now : ℚ) (key : String) :
    Option V × ReferenceCache V :=
  match (live now ref.entries).find? fun e => decide (e.1 = key) with
  | some (_, ⟨some raw, _⟩) =>
    match schema.validate raw with
    | .ok value => (value, ref)
    | .error _ => (none, ref.delete key)
  | _ => (none, ref)

def write (ref : ReferenceCache V) (sweptAt : ℚ) (key : String) (entry : StoredEntry (Option V)) :
    ReferenceCache V :=
  { ref with entries := recent ref.maxEntries (live sweptAt (rewrite ref.entries key entry)) }

def perform (schema : Schema Issues V) (ref : ReferenceCache V) :
    CacheOp V → Except Thrown (Option V) × ReferenceCache V
  | .get now key =>
    let (value, ref) := ref.get schema now key
    (.ok value, ref)
  | .set now sweptAt key value ttlMs =>
    match InMemoryCache.checkTtl "ttlMs" (ttlMs.or (ref.defaultTtlMs.map .finite)) with
    | .ok ttl => (.ok none, ref.write sweptAt key ⟨value, ttl.map (Double.sum now)⟩)
    | .error thrown => (.error thrown, ref)
  | .delete key => (.ok none, ref.delete key)

end ReferenceCache

section Live
variable {V : Type} {now later : ℚ} {entries entries' : Entries V}

theorem StoredEntry.expired_mono {entry : StoredEntry V} (h : entry.expired now = true)
    (hle : now ≤ later) : entry.expired later = true := by
  obtain ⟨value, expiresAt⟩ := entry
  cases expiresAt with
  | none => cases h
  | some expiresAt =>
    have hpast : expiresAt ≤ now := of_decide_eq_true h
    exact decide_eq_true (hpast.trans hle)

theorem mem_live {e : String × StoredEntry V} :
    e ∈ live now entries ↔ e ∈ entries ∧ e.2.expired now = false := by
  simp [live]

theorem live_live (hle : now ≤ later) : live later (live now entries) = live later entries := by
  unfold live
  rw [List.filter_filter]
  refine List.filter_congr fun e _ => ?_
  cases hnow : e.2.expired now with
  | false => simp
  | true => simp [StoredEntry.expired_mono hnow hle]

theorem live_eq_later (h : live now entries = live now entries') (hle : now ≤ later) :
    live later entries = live later entries' := by
  rw [← live_live hle, h, live_live hle]

theorem live_rewrite (h : live now entries = live now entries') (key : String)
    (entry : StoredEntry V) :
    live now (rewrite entries key entry) = live now (rewrite entries' key entry) := by
  unfold live at *
  rw [filter_rewrite, h, ← filter_rewrite]

theorem live_recent (n : ℕ) : live now (recent n (live now entries)) =
    recent n (live now entries) := by
  refine List.filter_eq_self.mpr fun e he => ?_
  exact (List.mem_filter.mp ((recent_suffix n _).subset he)).2

theorem live_delete (key : String) :
    live now (entries.filter fun e => decide (e.1 ≠ key)) =
      (live now entries).filter fun e => decide (e.1 ≠ key) := List.filter_comm _ _ _

end Live

namespace InMemoryCache
variable {Issues V : Type} {schema : Schema Issues V} {cache : InMemoryCache V} {now : ℚ}

theorem find_live (cache : InMemoryCache V) (now : ℚ) (key : String) :
    ((live now cache.map.entries).find? fun e => decide (e.1 = key)).map Prod.snd =
      (cache.map.get? key).filter fun entry => !entry.expired now :=
  OrderedMap.get?_filter cache.map (fun e => !e.2.expired now) key

theorem rawGet_value (cache : InMemoryCache V) (now : ℚ) (key : String) :
    (cache.rawGet now key).1 =
      ((cache.map.get? key).filter fun entry => !entry.expired now).map StoredEntry.value := by
  unfold rawGet
  cases cache.map.get? key with
  | none => rfl
  | some entry =>
    dsimp only
    rw [Option.filter_some]
    cases entry.expired now <;> rfl

theorem of_rawGet {cache : InMemoryCache V} {key : String} {value : V}
    (h : (cache.rawGet now key).1 = some value) : ∃ expiresAt,
      cache.map.get? key = some ⟨value, expiresAt⟩ ∧
        (StoredEntry.mk value expiresAt).expired now = false := by
  rw [rawGet_value] at h
  obtain ⟨entry, hfound, rfl⟩ := Option.map_eq_some_iff.mp h
  obtain ⟨hentry, hlive⟩ := Option.filter_eq_some_iff.mp hfound
  exact ⟨entry.expiresAt, hentry, by simpa using hlive⟩

theorem rawGet_live (cache : InMemoryCache V) (now : ℚ) (key : String) :
    live now (cache.rawGet now key).2.map.entries = live now cache.map.entries := by
  unfold rawGet
  cases hentry : cache.map.get? key with
  | none => rfl
  | some entry =>
    dsimp only
    split
    · rename_i hexpired
      refine (live_delete key).trans (List.filter_eq_self.mpr fun e he => decide_eq_true ?_)
      rintro rfl
      obtain ⟨hmem, hlive⟩ := mem_live.mp he
      rw [OrderedMap.get?_eq_some.mpr hmem] at hentry
      rw [Option.some.inj hentry, hexpired] at hlive
      cases hlive
    · rfl

theorem insert_live (cache : InMemoryCache V) (sweptAt : ℚ) (key : String)
    (entry : StoredEntry V) :
    live sweptAt (cache.insert sweptAt key entry).map.entries =
      recent cache.maxEntries (live sweptAt (rewrite cache.map.entries key entry)) := by
  rw [← entries_set_delete]
  generalize hmap : (cache.map.delete key).set key entry = map
  unfold insert
  rw [hmap]
  dsimp only
  split
  · rename_i hover
    unfold trimToBound sweepExpired
    dsimp only
    split
    · rename_i hfits
      have hshort : (live sweptAt map.entries).length ≤ cache.maxEntries :=
        hfits.resolve_left (Nat.ne_of_gt hover.1)
      rw [recent_of_le hshort]
      exact live_live le_rfl
    · rename_i hlong
      have hzero : cache.maxEntries ≠ 0 := Nat.ne_of_gt hover.1
      refine Eq.trans ?_ (live_recent cache.maxEntries)
      rw [recent, if_neg hzero]
      rfl
  · rename_i hfits
    rcases Nat.eq_zero_or_pos cache.maxEntries with hzero | hpos
    · rw [hzero, recent_zero]
    · have hsize : map.entries.length ≤ cache.maxEntries :=
        Nat.le_of_not_lt fun hlt => hfits ⟨hpos, hlt⟩
      exact (recent_of_le ((List.length_filter_le _ _).trans hsize)).symm

theorem trimToBound_size (cache : InMemoryCache V) (hpos : 0 < cache.maxEntries) :
    cache.trimToBound.map.size ≤ cache.maxEntries := by
  unfold trimToBound
  split
  · rename_i hfits
    exact hfits.resolve_left (Nat.ne_of_gt hpos)
  · show (List.drop _ _).length ≤ _
    rw [List.length_drop]
    unfold OrderedMap.size
    omega

theorem insert_size (cache : InMemoryCache V) (sweptAt : ℚ) (key : String)
    (entry : StoredEntry V) (hpos : 0 < cache.maxEntries) :
    (cache.insert sweptAt key entry).map.size ≤ cache.maxEntries := by
  unfold insert
  dsimp only
  split
  · exact trimToBound_size (sweepExpired _ sweptAt) hpos
  · rename_i hfits
    exact Nat.le_of_not_lt fun hlt => hfits ⟨hpos, hlt⟩

theorem get_live {cache : InMemoryCache (Option V)} {key : String} {raw : V}
    {expiresAt : Option ℚ} (schema : Schema Issues V)
    (hentry : cache.map.get? key = some ⟨some raw, expiresAt⟩)
    (hlive : (StoredEntry.mk (some raw) expiresAt).expired now = false) :
    cache.get schema now key =
      match schema.validate raw with
      | .ok value => (value, cache)
      | .error _ => (none, cache.delete key) := by
  unfold InMemoryCache.get rawGet
  rw [hentry]
  dsimp only
  rw [hlive]
  rfl

theorem get_eq_some {cache : InMemoryCache (Option V)} {key : String} {v : V} :
    (cache.get schema now key).1 = some v ↔ ∃ raw expiresAt,
      (cache.map.get? key = some ⟨some raw, expiresAt⟩ ∧
        (StoredEntry.mk (some raw) expiresAt).expired now = false) ∧
          schema.validate raw = .ok (some v) := by
  constructor
  · intro hvalue
    unfold InMemoryCache.get at hvalue
    split at hvalue
    · rename_i raw cache' hraw
      obtain ⟨expiresAt, hentry⟩ := of_rawGet (congrArg Prod.fst hraw)
      refine ⟨raw, expiresAt, hentry, ?_⟩
      split at hvalue
      · rename_i hok
        rw [hok]
        exact congrArg Except.ok hvalue
      · cases hvalue
    · cases hvalue
  · rintro ⟨raw, expiresAt, ⟨hentry, hlive⟩, hok⟩
    rw [get_live schema hentry hlive, hok]

structure Matches (now : ℚ) (cache : InMemoryCache (Option V)) (ref : ReferenceCache V) :
    Prop where
  ttl : cache.defaultTtlMs = ref.defaultTtlMs
  bound : cache.maxEntries = ref.maxEntries
  live : live now cache.map.entries = live now ref.entries

variable {cache : InMemoryCache (Option V)} {ref : ReferenceCache V}

theorem Matches.later (h : Matches now cache ref) {later : ℚ} (hle : now ≤ later) :
    Matches later cache ref := ⟨h.ttl, h.bound, live_eq_later h.live hle⟩

theorem Matches.rawGet (h : Matches now cache ref) (key : String) :
    Matches now (cache.rawGet now key).2 ref := by
  have hlive := (cache.rawGet_live now key).trans h.live
  refine ⟨?_, ?_, hlive⟩
  · rw [← h.ttl]
    unfold InMemoryCache.rawGet
    split
    · rfl
    · split <;> rfl
  · rw [← h.bound]
    unfold InMemoryCache.rawGet
    split
    · rfl
    · split <;> rfl

theorem Matches.delete (h : Matches now cache ref) (key : String) :
    Matches now (cache.delete key) (ref.delete key) := by
  refine ⟨h.ttl, h.bound, (live_delete key).trans ?_⟩
  rw [h.live]
  exact (live_delete key).symm

theorem Matches.get (h : Matches now cache ref) (schema : Schema Issues V) (key : String) :
    (cache.get schema now key).1 = (ref.get schema now key).1 ∧
      Matches now (cache.get schema now key).2 (ref.get schema now key).2 := by
  have hvalue := cache.rawGet_value now key
  have hpurged := h.rawGet key
  rw [← find_live, h.live, Option.map_map] at hvalue
  unfold InMemoryCache.get ReferenceCache.get
  generalize cache.rawGet now key = answer at hvalue hpurged ⊢
  generalize (Guardian.live now ref.entries).find? (fun e => decide (e.1 = key)) = found
    at hvalue ⊢
  obtain ⟨value, cache'⟩ := answer
  obtain rfl : value = found.map (·.2.value) := hvalue
  match found with
  | none => exact ⟨rfl, hpurged⟩
  | some (_, ⟨none, _⟩) => exact ⟨rfl, hpurged⟩
  | some (_, ⟨some raw, _⟩) =>
    dsimp only [Option.map_some]
    cases schema.validate raw with
    | ok value => exact ⟨rfl, hpurged⟩
    | error issues => exact ⟨rfl, hpurged.delete key⟩

theorem Matches.write (h : Matches now cache ref) (key : String)
    (entry : StoredEntry (Option V)) :
    Matches now (cache.insert now key entry) (ref.write now key entry) := by
  refine ⟨?_, ?_, ?_⟩
  · rw [ReferenceCache.write, ← h.ttl]
    unfold insert sweepExpired trimToBound
    dsimp only
    split
    · split <;> rfl
    · rfl
  · rw [ReferenceCache.write, ← h.bound]
    unfold insert sweepExpired trimToBound
    dsimp only
    split
    · split <;> rfl
    · rfl
  · rw [insert_live, live_rewrite h.live, h.bound]
    exact (live_recent _).symm

theorem Matches.perform {op : CacheOp V} (h : Matches now cache ref) (schema : Schema Issues V)
    (hop : op.readings.Pairwise (· ≤ ·)) (hfirst : ∀ t ∈ op.readings, now ≤ t) :
    (cache.perform schema op).1 = (ref.perform schema op).1 ∧
      ∃ last, (last = now ∨ last ∈ op.readings) ∧
        Matches last (cache.perform schema op).2 (ref.perform schema op).2 := by
  cases op with
  | delete key => exact ⟨rfl, now, .inl rfl, h.delete key⟩
  | get now' key =>
    obtain ⟨hvalue, hmatches⟩ := (h.later (hfirst now' (.head _))).get schema key
    exact ⟨congrArg Except.ok hvalue, now', .inr (.head _), hmatches⟩
  | set now' sweptAt key value ttlMs =>
    have hswept := h.later (hfirst sweptAt (.tail _ (.head _)))
    unfold InMemoryCache.perform ReferenceCache.perform InMemoryCache.set
    rw [h.ttl]
    dsimp only
    generalize checkTtl "ttlMs" (ttlMs.or (ref.defaultTtlMs.map .finite)) = checked
    cases checked with
    | error thrown => exact ⟨rfl, now, .inl rfl, h⟩
    | ok ttl => exact ⟨rfl, sweptAt, .inr (.tail _ (.head _)), hswept.write key _⟩

/-- Matching at a time that no operation to come is before. -/
def MatchesUntil (ops : List (CacheOp V)) (cache : InMemoryCache (Option V))
    (ref : ReferenceCache V) : Prop :=
  ClockedOps ops ∧ ∃ now, (∀ t ∈ ops.flatMap CacheOp.readings, now ≤ t) ∧ Matches now cache ref

theorem MatchesUntil.start {ops : List (CacheOp V)} (hempty : cache.map = .empty)
    (hclock : ClockedOps ops) :
    MatchesUntil ops cache ⟨cache.defaultTtlMs, cache.maxEntries, []⟩ := by
  have hmatches : ∀ now, Matches now cache ⟨cache.defaultTtlMs, cache.maxEntries, []⟩ :=
    fun now => ⟨rfl, rfl, by rw [hempty]; rfl⟩
  have hfirst : ∃ now, ∀ t ∈ ops.flatMap CacheOp.readings, now ≤ t := by
    unfold ClockedOps at hclock
    generalize ops.flatMap CacheOp.readings = readings at hclock ⊢
    cases readings with
    | nil => exact ⟨0, fun t ht => nomatch ht⟩
    | cons t₀ readings =>
      refine ⟨t₀, fun t ht => ?_⟩
      rcases List.mem_cons.mp ht with rfl | hlater
      · exact le_rfl
      · exact List.rel_of_pairwise_cons hclock hlater
  obtain ⟨now, hnow⟩ := hfirst
  exact ⟨hclock, now, hnow, hmatches now⟩

theorem MatchesUntil.perform {op : CacheOp V} {ops : List (CacheOp V)}
    (h : MatchesUntil (op :: ops) cache ref) (schema : Schema Issues V) :
    (cache.perform schema op).1 = (ref.perform schema op).1 ∧
      MatchesUntil ops (cache.perform schema op).2 (ref.perform schema op).2 := by
  obtain ⟨hclock, now, hafter, hmatches⟩ := h
  rw [ClockedOps, List.flatMap_cons, List.pairwise_append] at hclock
  obtain ⟨hop, hops, hbetween⟩ := hclock
  simp only [List.flatMap_cons, List.mem_append] at hafter
  obtain ⟨hanswer, last, hlast, hmatches'⟩ :=
    hmatches.perform schema hop fun t ht => hafter t (.inl ht)
  refine ⟨hanswer, hops, last, fun t ht => ?_, hmatches'⟩
  rcases hlast with rfl | hread
  · exact hafter t (.inr ht)
  · exact hbetween last hread t ht

theorem Matches.mem_live_iff (h : Matches now cache ref) {key : String}
    {entry : StoredEntry (Option V)} :
    cache.map.get? key = some entry ∧ entry.expired now = false ↔
      (key, entry) ∈ ref.entries ∧ entry.expired now = false := by
  have hlive : (key, entry) ∈ Guardian.live now cache.map.entries ↔
      (key, entry) ∈ Guardian.live now ref.entries := by rw [h.live]
  rwa [mem_live, mem_live, ← OrderedMap.get?_eq_some] at hlive

end InMemoryCache

/-- Operations after which what was written under the key before is gone. -/
def CacheOp.Replaces {V : Type} (defaultTtlMs : Option ℚ) (key : String) : CacheOp V → Prop
  | .get _ _ => False
  | .set _ _ key' _ ttlMs => key' = key ∧
      ∃ ttl, InMemoryCache.checkTtl "ttlMs" (ttlMs.or (defaultTtlMs.map .finite)) = .ok ttl
  | .delete key' => key' = key

def LastSet {V : Type} (defaultTtlMs : Option ℚ) (ops : List (CacheOp V)) (key : String)
    (entry : StoredEntry (Option V)) : Prop :=
  ∃ before after now sweptAt value ttlMs ttl,
    ops = before ++ .set now sweptAt key value ttlMs :: after ∧
      InMemoryCache.checkTtl "ttlMs" (ttlMs.or (defaultTtlMs.map .finite)) = .ok ttl ∧
        entry = ⟨value, ttl.map (Double.sum now)⟩ ∧
          ∀ op ∈ after, ¬op.Replaces defaultTtlMs key

namespace ReferenceCache
variable {Issues V : Type} {ref : ReferenceCache V}

theorem perform_ttl (schema : Schema Issues V) (ref : ReferenceCache V) (op : CacheOp V) :
    (ref.perform schema op).2.defaultTtlMs = ref.defaultTtlMs := by
  cases op with
  | delete key => rfl
  | get now key =>
    unfold perform ReferenceCache.get
    dsimp only
    split
    · split <;> rfl
    · rfl
  | set now sweptAt key value ttlMs =>
    unfold perform
    dsimp only
    split <;> rfl

theorem mem_perform {schema : Schema Issues V} {op : CacheOp V} {key : String}
    {entry : StoredEntry (Option V)} (h : (key, entry) ∈ (ref.perform schema op).2.entries) :
    (key, entry) ∈ ref.entries ∧ ¬op.Replaces ref.defaultTtlMs key ∨
      LastSet ref.defaultTtlMs [op] key entry := by
  cases op with
  | delete key' =>
    obtain ⟨hmem, hother⟩ := List.mem_filter.mp h
    exact .inl ⟨hmem, fun hsame => of_decide_eq_true hother hsame.symm⟩
  | get now key' =>
    refine .inl ⟨?_, id⟩
    unfold perform ReferenceCache.get at h
    dsimp only at h
    split at h
    · split at h
      · exact h
      · exact (List.mem_filter.mp h).1
    · exact h
  | set now sweptAt key' value ttlMs =>
    unfold perform at h
    dsimp only at h
    split at h
    · rename_i ttl haccepted
      have hmem := (mem_live.mp ((recent_suffix _ _).subset h)).1
      rcases mem_rewrite.mp hmem with ⟨hbefore, hother⟩ | hnew
      · exact .inl ⟨hbefore, fun hreplaces => hother hreplaces.1.symm⟩
      · cases hnew
        exact .inr ⟨[], [], now, sweptAt, value, ttlMs, ttl, rfl, haccepted, rfl, by simp⟩
    · rename_i thrown hthrown
      refine .inl ⟨h, fun hreplaces => ?_⟩
      obtain ⟨ttl, haccepted⟩ := hreplaces.2
      rw [hthrown] at haccepted
      cases haccepted

theorem serve_lastSet (schema : Schema Issues V) (defaultTtlMs : Option ℚ) (maxEntries : ℕ)
    (ops : List (CacheOp V)) :
    (Machine.serve (perform schema) ⟨defaultTtlMs, maxEntries, []⟩ ops).2.defaultTtlMs =
        defaultTtlMs ∧
      ∀ key entry,
        (key, entry) ∈
          (Machine.serve (perform schema) ⟨defaultTtlMs, maxEntries, []⟩ ops).2.entries →
          LastSet defaultTtlMs ops key entry := by
  induction ops using List.reverseRecOn with
  | nil => exact ⟨rfl, fun _ _ h => nomatch h⟩
  | append_singleton ops op ih =>
    rw [Machine.serve_snoc]
    obtain ⟨httl, hlast⟩ := ih
    refine ⟨(perform_ttl schema _ op).trans httl, fun key entry hmem => ?_⟩
    rcases mem_perform hmem with ⟨hbefore, hkept⟩ | hnew
    · obtain ⟨before, after, now, sweptAt, value, ttlMs, ttl, rfl, haccepted, rfl, hafter⟩ :=
        hlast key entry hbefore
      rw [httl] at hkept
      refine ⟨before, after ++ [op], now, sweptAt, value, ttlMs, ttl, by simp, haccepted, rfl,
        fun op' hop' => ?_⟩
      rcases List.mem_append.mp hop' with hop' | hop'
      · exact hafter op' hop'
      · rw [List.mem_singleton.mp hop']
        exact hkept
    · rw [httl] at hnew
      obtain ⟨before, after, now, sweptAt, value, ttlMs, ttl, hsplit, hrest⟩ := hnew
      exact ⟨ops ++ before, after, now, sweptAt, value, ttlMs, ttl,
        by rw [hsplit, List.append_assoc], hrest⟩

end ReferenceCache

def BadTtl (ttl : JsNumber) : Prop := ∀ q, ttl = .finite q → q ≤ 0

/-- What each operation does to the cache in the state it meets. -/
structure CacheLaws {Issues V : Type} (schema : Schema Issues V)
    (cache : InMemoryCache (Option V)) : Prop where
  refused : ∀ now sweptAt key value ttlMs,
    (∃ thrown, cache.perform schema (.set now sweptAt key value ttlMs) = (.error thrown, cache)) ↔
      ∃ ttl, ttlMs = some ttl ∧ BadTtl ttl
  thrown : ∀ now sweptAt key value ttlMs thrown,
    (cache.perform schema (.set now sweptAt key value ttlMs)).1 = .error thrown →
      (cache.perform schema (.set now sweptAt key value ttlMs)).2 = cache
  /-- Only live entries beyond the bound are evicted, those written first. -/
  evicted : ∀ now sweptAt key value ttlMs cache',
    cache.set now sweptAt key value ttlMs = .ok cache' → ∃ expiresAt,
      live sweptAt cache'.map.entries = recent cache.maxEntries
        (live sweptAt (rewrite cache.map.entries key ⟨value, expiresAt⟩)) ∧
      (0 < cache.maxEntries → cache'.map.size ≤ cache.maxEntries) ∧
      (cache.maxEntries = 0 →
        cache'.map.entries = rewrite cache.map.entries key ⟨value, expiresAt⟩)
  rejected : ∀ now key raw expiresAt issues,
    cache.map.get? key = some ⟨some raw, expiresAt⟩ →
      (StoredEntry.mk (some raw) expiresAt).expired now = false →
        schema.validate raw = .error issues →
          (cache.get schema now key).1 = none ∧
            ∀ other, (cache.get schema now key).2.map.get? other =
              if other = key then none else cache.map.get? other

namespace InMemoryCache
variable {Issues V : Type} {cache : InMemoryCache (Option V)}

theorem checkTtl_error_iff (name : String) {ttlMs : Option JsNumber} :
    (∃ thrown, checkTtl name ttlMs = .error thrown) ↔ ∃ ttl, ttlMs = some ttl ∧ BadTtl ttl := by
  cases ttlMs with
  | none => simp [checkTtl]
  | some ttl =>
    cases ttl with
    | infinite negative => simp [checkTtl, BadTtl]
    | nan => simp [checkTtl, BadTtl]
    | finite q =>
      rcases le_or_gt q 0 with hle | hpos
      · simp [checkTtl, BadTtl, hle]
      · simp [checkTtl, BadTtl, not_le.mpr hpos]

theorem checkTtl_idem {name : String} {ttlMs : Option JsNumber} {ttl : Option ℚ}
    (h : checkTtl name ttlMs = .ok ttl) : checkTtl name (ttl.map .finite) = .ok ttl := by
  unfold checkTtl at h
  split at h
  · cases h
    rfl
  · dsimp only at h
    split at h
    · rename_i q
      split at h
      · cases h
      · cases h
        rename_i hpos
        simp [checkTtl, hpos]
    · cases h

theorem make_ttl {defaultTtlMs maxEntries : Option JsNumber}
    (h : InMemoryCache.make defaultTtlMs maxEntries = .ok cache) :
    cache.map = .empty ∧ ¬∃ ttl, cache.defaultTtlMs.map .finite = some ttl ∧ BadTtl ttl := by
  unfold InMemoryCache.make at h
  cases httl : checkTtl "defaultTtlMs" defaultTtlMs with
  | error thrown =>
    rw [httl] at h
    cases h
  | ok ttl =>
    rw [httl] at h
    have hrest : ∃ bound, cache = ⟨ttl, bound, .empty⟩ := by
      cases maxEntries with
      | none => exact ⟨_, (Except.ok.inj h).symm⟩
      | some n =>
        change (checkMaxEntries n >>= fun bound => _) = _ at h
        cases hbound : checkMaxEntries n with
        | error thrown =>
          rw [hbound] at h
          cases h
        | ok bound =>
          rw [hbound] at h
          exact ⟨bound, (Except.ok.inj h).symm⟩
    obtain ⟨bound, rfl⟩ := hrest
    refine ⟨rfl, ?_⟩
    rw [← checkTtl_error_iff "defaultTtlMs"]
    rintro ⟨thrown, hthrown⟩
    rw [checkTtl_idem httl] at hthrown
    cases hthrown

theorem set_error_iff (hdefault : ¬∃ ttl, cache.defaultTtlMs.map .finite = some ttl ∧ BadTtl ttl)
    (now sweptAt : ℚ) {key : String} {value : Option V} {ttlMs : Option JsNumber} :
    (∃ thrown, cache.set now sweptAt key value ttlMs = .error thrown) ↔
      ∃ ttl, ttlMs = some ttl ∧ BadTtl ttl := by
  have hset : (∃ thrown, cache.set now sweptAt key value ttlMs = .error thrown) ↔
      ∃ thrown, checkTtl "ttlMs" (ttlMs.or (cache.defaultTtlMs.map .finite)) = .error thrown := by
    unfold InMemoryCache.set
    generalize checkTtl "ttlMs" (ttlMs.or (cache.defaultTtlMs.map .finite)) = checked
    cases checked with
    | error thrown => exact ⟨fun _ => ⟨thrown, rfl⟩, fun _ => ⟨thrown, rfl⟩⟩
    | ok ttl => exact iff_of_false (fun ⟨_, h⟩ => nomatch h) fun ⟨_, h⟩ => nomatch h
  rw [hset, checkTtl_error_iff]
  cases ttlMs with
  | none => exact iff_of_false hdefault fun ⟨_, h, _⟩ => nomatch h
  | some ttl => exact Iff.rfl

theorem insert_unbounded (cache : InMemoryCache (Option V)) (hzero : cache.maxEntries = 0)
    (sweptAt : ℚ) (key : String) (entry : StoredEntry (Option V)) :
    (cache.insert sweptAt key entry).map.entries = rewrite cache.map.entries key entry := by
  unfold insert
  dsimp only
  rw [if_neg fun hover => absurd hzero (Nat.ne_of_gt hover.1)]
  exact entries_set_delete _ _ _

theorem laws (schema : Schema Issues V)
    (hdefault : ¬∃ ttl, cache.defaultTtlMs.map .finite = some ttl ∧ BadTtl ttl) :
    CacheLaws schema cache where
  refused now sweptAt key value ttlMs := by
    rw [← set_error_iff hdefault now sweptAt]
    unfold perform
    dsimp only
    generalize cache.set now sweptAt key value ttlMs = written
    cases written <;> simp
  thrown now sweptAt key value ttlMs thrown h := by
    unfold perform at *
    dsimp only at *
    split at h
    · cases h
    · rfl
  evicted now sweptAt key value ttlMs cache' h := by
    obtain ⟨expiresAt, rfl⟩ := set_eq_ok h
    exact ⟨expiresAt, cache.insert_live sweptAt key _, cache.insert_size sweptAt key _,
      fun hzero => cache.insert_unbounded hzero sweptAt key _⟩
  rejected now key raw expiresAt issues hentry hlive hissues := by
    rw [get_live schema hentry hlive, hissues]
    exact ⟨rfl, fun other => OrderedMap.get?_delete _ _ _⟩

end InMemoryCache

/-- The cache answers as the reference does, whose entries are the last ones written. -/
theorem cache_equals_reference {Issues V : Type} (schema : Schema Issues V)
    (hschema : schema.IdempotentOnOutput) (defaultTtlMs maxEntries : Option JsNumber)
    (cache : InMemoryCache (Option V))
    (hmake : InMemoryCache.make defaultTtlMs maxEntries = .ok cache)
    (ops : List (CacheOp V)) (hclock : ClockedOps ops) :
    let run := Machine.serve (InMemoryCache.perform schema) cache ops
    let ref := Machine.serve (ReferenceCache.perform schema)
      ⟨cache.defaultTtlMs, cache.maxEntries, []⟩ ops
    run.1 = ref.1 ∧
    (∀ key entry, (key, entry) ∈ ref.2.entries → LastSet cache.defaultTtlMs ops key entry) ∧
    (∀ now key, ClockedOps (ops ++ [.get now key]) → ∀ v,
      (run.2.get schema now key).1 = some v ↔ ∃ raw expiresAt,
        (key, ⟨some raw, expiresAt⟩) ∈ ref.2.entries ∧
          (StoredEntry.mk (some raw) expiresAt).expired now = false ∧
            schema.validate raw = .ok (some v) ∧
              ((∃ input, schema.validate input = .ok (some raw)) → v = raw)) ∧
    CacheLaws schema run.2 := by
  intro run ref
  obtain ⟨hempty, hdefault⟩ := InMemoryCache.make_ttl hmake
  have hsides : ∀ rest, ClockedOps (ops ++ rest) →
      run.1 = ref.1 ∧ InMemoryCache.MatchesUntil rest run.2 ref.2 := fun rest hordered =>
    Machine.serve_eq (fun h => h.perform schema) (.start hempty hordered)
  obtain ⟨hanswers, _, _, _, hmatches⟩ := hsides [] (by rwa [List.append_nil])
  obtain ⟨httl, hlast⟩ := ReferenceCache.serve_lastSet schema cache.defaultTtlMs
    cache.maxEntries ops
  refine ⟨hanswers, hlast, fun now key hordered v => ?_, InMemoryCache.laws schema ?_⟩
  · obtain ⟨_, _, _, hbefore, hread⟩ := hsides _ hordered
    have hnow := hread.later (hbefore now (by simp [CacheOp.readings]))
    rw [InMemoryCache.get_eq_some]
    simp only [hnow.mem_live_iff]
    constructor
    · rintro ⟨raw, expiresAt, ⟨hmem, hlive⟩, hok⟩
      refine ⟨raw, expiresAt, hmem, hlive, hok, fun houtput => ?_⟩
      obtain ⟨input, houtput⟩ := houtput
      rw [hschema input raw houtput] at hok
      exact (Option.some.inj (Except.ok.inj hok)).symm
    · rintro ⟨raw, expiresAt, hmem, hlive, hok, _⟩
      exact ⟨raw, expiresAt, ⟨hmem, hlive⟩, hok⟩
  · rw [hmatches.ttl, httl]
    exact hdefault

namespace Sample

/-- A schema that reads what is above 100 as 100. -/
def clamp : Schema Unit ℕ := ⟨fun raw => .ok (some (min raw 100))⟩

theorem clamp_idempotent : clamp.IdempotentOnOutput := by
  intro raw v h
  obtain rfl : min raw 100 = v := Option.some.inj (Except.ok.inj h)
  have hmin : min (min raw 100) 100 = min raw 100 := by omega
  exact congrArg (fun n => Except.ok (some n)) hmin

def emptyCache : InMemoryCache (Option ℕ) := ⟨none, DEFAULT_MAX_ENTRIES, .empty⟩

def written : List (CacheOp ℕ) := [.set 0 0 "quota" (some 300) none]

theorem clocked_written : ClockedOps (written ++ [.get 1 "quota"]) := by
  simp [ClockedOps, written, CacheOp.readings]

def unset : List (CacheOp ℕ) := [.set 0 0 "unset" none none]

theorem clocked_unset : ClockedOps (unset ++ [.get 1 "unset"]) := by
  simp [ClockedOps, unset, CacheOp.readings]

def unsetCache : InMemoryCache (Option ℕ) :=
  (Machine.serve (InMemoryCache.perform clamp) emptyCache unset).2

end Sample

/-- The read takes what the schema makes of the value that was written. -/
theorem cache_equals_reference_clamped :
    ((Machine.serve (InMemoryCache.perform Sample.clamp) Sample.emptyCache
      Sample.written).2.get Sample.clamp 1 "quota").1 = some 100 := by
  have hread := (cache_equals_reference Sample.clamp Sample.clamp_idempotent none none
    Sample.emptyCache rfl Sample.written (by simp [ClockedOps, Sample.written, CacheOp.readings])
    ).2.2.1 1 "quota" Sample.clocked_written 100
  refine hread.mpr ⟨300, none, .head _, rfl, rfl, fun ⟨input, houtput⟩ => ?_⟩
  have hmin : min input 100 = 300 := Option.some.inj (Except.ok.inj houtput)
  omega

/-- A read returns the value of the last write that is kept, not expired and still validates. -/
def ReturnsLastWritten {Issues V : Type} (schema : Schema Issues V)
    (cache : InMemoryCache (Option V)) (ops : List (CacheOp V)) : Prop :=
  ∀ now key, ClockedOps (ops ++ [.get now key]) → ∀ v,
    ((Machine.serve (InMemoryCache.perform schema) cache ops).2.get schema now key).1 = some v ↔
      ∃ expiresAt, (key, ⟨some v, expiresAt⟩) ∈ (Machine.serve (ReferenceCache.perform schema)
          ⟨cache.defaultTtlMs, cache.maxEntries, []⟩ ops).2.entries ∧
        (StoredEntry.mk (some v) expiresAt).expired now = false ∧
          ∃ w, schema.validate v = .ok (some w)

/-- The number 300 is written and 100 is read, by a schema that is idempotent on its output. An
undefined that is written is no number; its read is a miss, and leaves it where it is. -/
theorem cache_returns_clamped : Sample.clamp.IdempotentOnOutput ∧
    InMemoryCache.make none none = .ok Sample.emptyCache ∧
    (ClockedOps (Sample.written ++ [.get 1 "quota"]) ∧
      ¬ReturnsLastWritten Sample.clamp Sample.emptyCache Sample.written) ∧
    ClockedOps (Sample.unset ++ [.get 1 "unset"]) ∧
      (Sample.unsetCache.get Sample.clamp 1 "unset").1 = none ∧
      (Sample.unsetCache.get Sample.clamp 1 "unset").2.map.get? "unset" = some ⟨none, none⟩ := by
  refine ⟨Sample.clamp_idempotent, rfl, ⟨Sample.clocked_written, fun hreturns => ?_⟩,
    Sample.clocked_unset, rfl, rfl⟩
  obtain ⟨expiresAt, hmem, -⟩ := (hreturns 1 "quota" Sample.clocked_written 100).mp rfl
  have hentry : ("quota", StoredEntry.mk (some 100) expiresAt) =
      ("quota", StoredEntry.mk (some 300) none) := List.mem_singleton.mp hmem
  cases hentry

end Guardian
