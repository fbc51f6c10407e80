import Guardian.Defaults.FixedWindow

/-!
# Retry-After

The limiter over any store that keeps open windows. A denied caller who comes back after the
seconds it was told is admitted, and one who comes a second earlier is denied as long as the
store still has the window.
-/

namespace Guardian
open Eviction RateLimitState

/-- Each operation is given the second of the store's own clock. -/
structure RateLimitStore (S : Type) where
  read : S → ℤ → String → Option RateLimitState × S
  write : S → ℤ → String → RateLimitState → S
  consume : Option (S → RateLimiter → ℤ → String → RateLimitDecision × S)

namespace RateLimitStore
variable {S : Type} (store : RateLimitStore S)

/-- The contract of a store that holds a window for some keys: only windows that have closed
are lost, and `consume` is one step of the fixed window. -/
structure Keeps (holds : S → WindowRecord) : Prop where
  read : ∀ s nowSec key, Evicted (ClosedBy nowSec) (store.read s nowSec key).1 (holds s key)
  afterRead : ∀ s nowSec key key',
    Evicted (ClosedBy nowSec) (holds (store.read s nowSec key).2 key') (holds s key')
  afterWrite : ∀ s nowSec key state key',
    Evicted (ClosedBy nowSec) (holds (store.write s nowSec key state) key')
      (Function.update (holds s) key (some state) key')
  consume : ∀ consume, store.consume = some consume → ∀ s r nowSec key,
    (consume s r nowSec key).1 = r.decide nowSec (holds s key)
  afterConsume : ∀ consume, store.consume = some consume → ∀ s r nowSec key key',
    Evicted (ClosedBy nowSec) (holds (consume s r nowSec key).2 key')
      (if (consume s r nowSec key).1.allowed then
        Function.update (holds s) key (some (consume s r nowSec key).1.state) key'
        else holds s key')

def call (r : RateLimiter) (s : S) (c : LimiterCall) : RateLimitDecision × S :=
  match store.consume with
  | some consume => consume s r (secondsOf c.limiterMs) c.key
  | none =>
    let (previous, s) := store.read s (secondsOf c.readMs) c.key
    let d := r.decide (secondsOf c.limiterMs) previous
    if d.allowed then (d, store.write s (secondsOf c.writeMs) c.key d.state) else (d, s)

def inMemory : RateLimitStore InMemoryRateLimitStore :=
  ⟨InMemoryRateLimitStore.read, InMemoryRateLimitStore.write,
    some InMemoryRateLimitStore.consume⟩

def withoutConsume : RateLimitStore S := { store with consume := none }

theorem call_inMemory (r : RateLimiter) : inMemory.call r = r.consumeCall := rfl

theorem call_withoutConsume (r : RateLimiter) :
    inMemory.withoutConsume.call r = r.readModifyWrite := rfl

theorem inMemory_keeps : inMemory.Keeps fun s => s.map.get? := by
  have hshows : ∀ (s : InMemoryRateLimitStore) nowSec, RateLimiter.Shows nowSec s s.map.get? :=
    fun _ _ _ => .kept _
  refine ⟨fun s nowSec key => ?_, fun s nowSec key key' => ?_, fun s nowSec key state key' => ?_,
    fun consume hconsume s r nowSec key => ?_, fun consume hconsume s r nowSec key key' => ?_⟩
  · exact (RateLimiter.shows_read (hshows s nowSec) le_rfl).1
  · exact (RateLimiter.shows_read (hshows s nowSec) le_rfl).2 key'
  · exact RateLimiter.shows_write (hshows s nowSec) le_rfl key state key'
  · cases hconsume
    rw [InMemoryRateLimitStore.consume]
    split <;> rfl
  · cases hconsume
    rw [InMemoryRateLimitStore.consume]
    split
    · exact RateLimiter.shows_write (hshows s nowSec) le_rfl key _ key'
    · exact .kept _

theorem Keeps.withoutConsume {store : RateLimitStore S} {holds : S → WindowRecord}
    (h : store.Keeps holds) : store.withoutConsume.Keeps holds :=
  ⟨h.read, h.afterRead, h.afterWrite, (fun _ hconsume => nomatch hconsume),
    (fun _ hconsume => nomatch hconsume)⟩

/-- What a call decides about: the fallback asks the store, whose clock is read later. -/
def found (holds : S → WindowRecord) (s : S) (c : LimiterCall) : Option RateLimitState :=
  match store.consume with
  | some _ => holds s c.key
  | none => (store.read s (secondsOf c.readMs) c.key).1

section Call
variable {store : RateLimitStore S} {holds : S → WindowRecord} (h : store.Keeps holds)
  (r : RateLimiter) {s : S} {c : LimiterCall} {key : String}
include h

end Call

end RateLimitStore

namespace RateLimiter
variable (r : RateLimiter) {nowSec : ℤ} {found : Option RateLimitState} {w : RateLimitState}

/-- The subtraction in an answer is that of doubles: on Unix time it does not round, and past
the end of the window only its sign counts. -/
theorem retry_eq_rounded {m : ℤ} (hdouble : w.resetUnixSeconds = m * Double.ulp w.resetUnixSeconds)
    (hlt : w.resetUnixSeconds < 2 ^ 53) (nowSec : ℕ) :
    max 1 ⌈Double.sum w.resetUnixSeconds (-nowSec)⌉ = max 1 ⌈w.resetUnixSeconds - nowSec⌉ := by
  rcases le_or_gt (nowSec : ℚ) w.resetUnixSeconds with hopen | hpast
  · rw [Double.sum_neg_natCast hdouble hlt hopen]
  · have hrounded : ⌈Double.sum w.resetUnixSeconds (-nowSec)⌉ ≤ 0 := by
      have hneg : w.resetUnixSeconds + -(nowSec : ℚ) < 0 := by linarith
      exact Int.ceil_le.mpr (by simpa using Double.sum_nonpos hneg)
    have hexact : ⌈w.resetUnixSeconds - nowSec⌉ ≤ 0 := by
      refine Int.ceil_le.mpr ?_
      push_cast
      linarith
    rw [max_eq_left (by omega), max_eq_left (by omega)]

end RateLimiter

/-- The bundled store has lost an open window by the time of a read exactly when its own clock
is past the end of the window. -/
theorem RateLimitStore.inMemory_read_eq_none {s : InMemoryRateLimitStore} {nowSec : ℤ}
    {key : String} {w : RateLimitState} (hw : s.map.get? key = some w) :
    (RateLimitStore.inMemory.read s nowSec key).1 = none ↔ w.ClosedBy nowSec := by
  show (s.read nowSec key).1 = none ↔ _
  rw [InMemoryRateLimitStore.read, hw]
  dsimp only
  split
  · exact iff_of_true rfl ‹_›
  · exact iff_of_false (Option.some_ne_none w) ‹_›

theorem ClockedCalls.last (calls : List LimiterCall) {later : LimiterCall}
    (h : ClockedCalls (calls ++ [later])) : ClockedCalls calls ∧ later.Clocked ∧
      ∀ c ∈ calls, secondsOf c.writeMs ≤ secondsOf later.limiterMs := by
  obtain ⟨hbefore, _, hlast⟩ := List.pairwise_append.mp h.order
  refine ⟨⟨fun c hc => h.within c (List.mem_append_left _ hc), hbefore⟩,
    h.within later (by simp), fun c hc => secondsOf_mono ?_⟩
  exact (h.within c (List.mem_append_left _ hc)).answer.trans (hlast c hc later (.head _))

namespace Sample

def oneInTwoSeconds : RateLimiter := ⟨1, 2, Nat.one_pos, two_pos⟩

/-- A call opens the window up to second 12, and the next one is denied at second 10. -/
def firstCall : LimiterCall := ⟨"k", 10000, 10000, 10000, 10000⟩

def opened : InMemoryRateLimitStore :=
  (RateLimitStore.inMemory.withoutConsume.call oneInTwoSeconds .empty firstCall).2

end Sample

section Run
open Sample RateLimitStore

end Run
end Guardian
