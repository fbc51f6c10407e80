import Guardian.Core.Checks
import Guardian.Lib.Double
import Guardian.Lib.OrderedMap

/-!
# The in-memory cache

Entries expire lazily and the oldest ones are dropped beyond a bound, so a read may
miss; what it returns is the value of the last write under the key.
-/

namespace Guardian
open Double

def DEFAULT_MAX_ENTRIES : ℕ := 4096

/-- Without an expiry an entry lives until it is dropped. -/
structure StoredEntry (V : Type) where
  value : V
  expiresAt : Option ℚ

def StoredEntry.expired {V : Type} (entry : StoredEntry V) (now : ℚ) : Bool :=
  match entry.expiresAt with
  | none => false
  | some expiresAt => decide (expiresAt ≤ now)

/-- The default time to live is one the constructor has accepted. -/
structure InMemoryCache (V : Type) where
  defaultTtlMs : Option ℚ
  maxEntries : ℕ
  map : OrderedMap String (StoredEntry V)

namespace InMemoryCache
variable {V : Type}

def checkTtl (name : String) : Option JsNumber → Except Thrown (Option ℚ)
  | none => .ok none
  | some ttl =>
    let rejected : Except Thrown (Option ℚ) :=
      .error ⟨s!"inMemoryCache: {name} must be > 0, got {ttl.text}"⟩
    match ttl with
    | .finite q => if q ≤ 0 then rejected else .ok (some q)
    | _ => rejected

def checkMaxEntries (maxEntries : JsNumber) : Except Thrown ℕ :=
  let rejected : Except Thrown ℕ :=
    .error ⟨s!"inMemoryCache: maxEntries must be a non-negative integer, got {maxEntries.text}"⟩
  match maxEntries with
  | .finite q => if q < 0 ∨ q.den ≠ 1 then rejected else .ok q.num.toNat
  | _ => rejected

def make (defaultTtlMs maxEntries : Option JsNumber) : Except Thrown (InMemoryCache V) := do
  let ttl ← checkTtl "defaultTtlMs" defaultTtlMs
  let bound ← match maxEntries with
    | none => .ok DEFAULT_MAX_ENTRIES
    | some n => checkMaxEntries n
  return ⟨ttl, bound, .empty⟩

def rawGet (cache : InMemoryCache V) (now : ℚ) (key : String) : Option V × InMemoryCache V :=
  match cache.map.get? key with
  | none => (none, cache)
  | some entry =>
    if entry.expired now then (none, { cache with map := cache.map.delete key })
    else (some entry.value, cache)

def delete (cache : InMemoryCache V) (key : String) : InMemoryCache V :=
  { cache with map := cache.map.delete key }

def sweepExpired (cache : InMemoryCache V) (currentTime : ℚ) : InMemoryCache V :=
  { cache with map := cache.map.filter fun e => !e.2.expired currentTime }

def trimToBound (cache : InMemoryCache V) : InMemoryCache V :=
  if cache.maxEntries = 0 ∨ cache.map.size ≤ cache.maxEntries then cache
  else { cache with map := cache.map.drop (cache.map.size - cache.maxEntries) }

/-- The write itself; the clock is read once for the expiry and again for a sweep. -/
def insert (cache : InMemoryCache V) (sweptAt : ℚ) (key : String) (entry : StoredEntry V) :
    InMemoryCache V :=
  let cache := { cache with map := (cache.map.delete key).set key entry }
  if cache.maxEntries > 0 ∧ cache.map.size > cache.maxEntries then
    (cache.sweepExpired sweptAt).trimToBound
  else cache

def set (cache : InMemoryCache V) (now sweptAt : ℚ) (key : String) (value : V)
    (ttlMs : Option JsNumber) : Except Thrown (InMemoryCache V) := do
  let ttl ← checkTtl "ttlMs" (ttlMs.or (cache.defaultTtlMs.map .finite))
  return cache.insert sweptAt key ⟨value, ttl.map (Double.sum now)⟩

def lastWritten (written : List (String × V)) (key : String) : Option V :=
  (written.reverse.find? fun w => decide (w.1 = key)).map Prod.snd

theorem lastWritten_snoc (written : List (String × V)) (key key' : String) (value : V) :
    lastWritten (written ++ [(key, value)]) key' =
      if key' = key then some value else lastWritten written key' := by
  unfold lastWritten
  rw [List.reverse_append, List.reverse_singleton, List.singleton_append]
  by_cases h : key' = key
  · simp [h]
  · have h' : key ≠ key' := fun hk => h hk.symm
    simp [h, h']

theorem lastWritten_split {written : List (String × V)} {key : String} {value : V}
    (h : lastWritten written key = some value) :
    ∃ before after, written = before ++ (key, value) :: after ∧ ∀ w ∈ after, w.1 ≠ key := by
  obtain ⟨w, hfind, rfl⟩ := Option.map_eq_some_iff.mp h
  obtain ⟨hkey, after, before, hsplit, hafter⟩ := List.find?_eq_some_iff_append.mp hfind
  refine ⟨before.reverse, after.reverse, ?_, fun w hw => ?_⟩
  · rw [List.reverse_eq_iff] at hsplit
    rw [hsplit, ← of_decide_eq_true hkey]
    simp
  · simpa using hafter w (List.mem_reverse.mp hw)

def HoldsLast (cache : InMemoryCache V) (written : List (String × V)) : Prop :=
  ∀ key entry, cache.map.get? key = some entry → lastWritten written key = some entry.value

theorem HoldsLast.rawGet {cache : InMemoryCache V} {written : List (String × V)}
    (h : cache.HoldsLast written) (now : ℚ) (key : String) :
    (cache.rawGet now key).2.HoldsLast written := by
  unfold InMemoryCache.rawGet
  cases cache.map.get? key with
  | none => exact h
  | some entry =>
    dsimp only
    split
    · intro key' entry' hget
      exact h key' entry' (OrderedMap.get?_of_filter hget)
    · exact h

theorem rawGet_last {cache : InMemoryCache V} {written : List (String × V)}
    (h : cache.HoldsLast written) {now : ℚ} {key : String} {value : V}
    (hget : (cache.rawGet now key).1 = some value) : lastWritten written key = some value := by
  unfold InMemoryCache.rawGet at hget
  cases hentry : cache.map.get? key with
  | none =>
    rw [hentry] at hget
    cases hget
  | some entry =>
    rw [hentry] at hget
    dsimp only at hget
    split at hget
    · cases hget
    · rw [h key entry hentry]
      exact hget

theorem get?_of_insert {cache : InMemoryCache V} {sweptAt : ℚ} {key key' : String}
    {entry entry' : StoredEntry V}
    (h : (cache.insert sweptAt key entry).map.get? key' = some entry') :
    ((cache.map.delete key).set key entry).get? key' = some entry' := by
  unfold InMemoryCache.insert at h
  dsimp only at h
  split at h
  · unfold trimToBound sweepExpired at h
    split at h
    · exact OrderedMap.get?_of_filter h
    · exact OrderedMap.get?_of_filter (OrderedMap.get?_of_drop h)
  · exact h

theorem HoldsLast.insert {cache : InMemoryCache V} {written : List (String × V)}
    (h : cache.HoldsLast written) (sweptAt : ℚ) (key : String) (entry : StoredEntry V) :
    (cache.insert sweptAt key entry).HoldsLast (written ++ [(key, entry.value)]) := by
  intro key' entry' hget
  have hset := get?_of_insert hget
  rw [OrderedMap.get?_set] at hset
  rw [lastWritten_snoc]
  by_cases hk : key' = key
  · rw [if_pos hk] at hset ⊢
    rw [Option.some.inj hset]
  · rw [if_neg hk] at hset ⊢
    exact h key' entry' (OrderedMap.get?_of_filter hset)

theorem set_eq_ok {cache cache' : InMemoryCache V} {now sweptAt : ℚ} {key : String} {value : V}
    {ttlMs : Option JsNumber} (h : cache.set now sweptAt key value ttlMs = .ok cache') :
    ∃ expiresAt, cache' = cache.insert sweptAt key ⟨value, expiresAt⟩ := by
  unfold InMemoryCache.set at h
  cases httl : checkTtl "ttlMs" (ttlMs.or (cache.defaultTtlMs.map .finite)) with
  | error e =>
    rw [httl] at h
    cases h
  | ok ttl =>
    rw [httl] at h
    obtain rfl := Except.ok.inj h
    exact ⟨_, rfl⟩

theorem HoldsLast.set {cache cache' : InMemoryCache V} {written : List (String × V)}
    (h : cache.HoldsLast written) {now sweptAt : ℚ} {key : String} {value : V}
    {ttlMs : Option JsNumber} (hset : cache.set now sweptAt key value ttlMs = .ok cache') :
    cache'.HoldsLast (written ++ [(key, value)]) := by
  obtain ⟨expiresAt, rfl⟩ := set_eq_ok hset
  exact h.insert sweptAt key ⟨value, expiresAt⟩

end InMemoryCache
end Guardian
