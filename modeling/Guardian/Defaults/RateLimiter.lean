import Guardian.Core.Checks
import Guardian.Lib.Double
import Mathlib.Algebra.Order.Floor.Ring

/-!
# The fixed-window rate limiter

The options the constructor accepts, the decision of one call from what the store holds
for its key, and the answer made of a decision.
-/

namespace Guardian
open Double

structure RateLimitState where
  /-- Exact here; the double that counts sticks at 2^53. -/
  count : ℕ
  resetUnixSeconds : ℚ
  deriving DecidableEq, Repr

/-- The second is past the window's end, which is exclusive. -/
abbrev RateLimitState.ClosedBy (nowSec : ℤ) (w : RateLimitState) : Prop :=
  w.resetUnixSeconds ≤ nowSec

theorem RateLimitState.ClosedBy.mono {last nowSec : ℤ} (hle : last ≤ nowSec)
    (w : RateLimitState) (h : w.ClosedBy last) : w.ClosedBy nowSec :=
  h.trans (by exact_mod_cast hle)

structure RateLimitDecision where
  allowed : Bool
  count : ℕ
  resetUnixSeconds : ℚ
  deriving DecidableEq, Repr

def RateLimitDecision.state (d : RateLimitDecision) : RateLimitState :=
  ⟨d.count, d.resetUnixSeconds⟩

structure RateLimitAllowance where
  limit : ℕ
  remaining : ℕ
  resetUnixSeconds : ℤ
  deriving DecidableEq, Repr

inductive RateLimitFailure where
  | rateLimited (message : String) (retryAfterSeconds : ℤ)
  | upstreamUnavailable (message : String) (status : ℕ)
  deriving DecidableEq, Repr

structure RateLimiter where
  limit : ℕ
  windowSeconds : ℚ
  limit_pos : 0 < limit
  window_pos : 0 < windowSeconds

def inMemoryRateLimiter (limit windowSeconds : JsNumber) : Except Thrown RateLimiter :=
  let badLimit : Except Thrown RateLimiter :=
    .error ⟨s!"inMemoryRateLimiter: limit must be a positive integer, got {limit.text}"⟩
  let badWindow : Except Thrown RateLimiter :=
    .error ⟨s!"inMemoryRateLimiter: windowSeconds must be > 0, got {windowSeconds.text}"⟩
  match limit with
  | .finite l =>
    if hl : 0 < l ∧ l.den = 1 then
      match windowSeconds with
      | .finite w =>
        if hw : 0 < w then .ok ⟨l.num.toNat, w, by simpa using hl.1, hw⟩ else badWindow
      | _ => badWindow
    else badLimit
  | _ => badLimit

/-- `Math.floor(now() / 1000)`. -/
def secondsOf (ms : ℤ) : ℤ := ms / 1000

theorem secondsOf_mono {a b : ℤ} (h : a ≤ b) : secondsOf a ≤ secondsOf b :=
  Int.ediv_le_ediv (by norm_num) h

namespace RateLimiter

/-- `Math.ceil(nowSec + windowSeconds)`. -/
def windowEnd (r : RateLimiter) (nowSec : ℤ) : ℚ := ⌈Double.sum nowSec r.windowSeconds⌉

/-- The decision of `consume` and of the fallback at one second. -/
def decide (r : RateLimiter) (nowSec : ℤ) : Option RateLimitState → RateLimitDecision
  | none => ⟨true, 1, r.windowEnd nowSec⟩
  | some previous =>
    if previous.resetUnixSeconds ≤ nowSec then ⟨true, 1, r.windowEnd nowSec⟩
    else if previous.count ≥ r.limit then ⟨false, previous.count, previous.resetUnixSeconds⟩
    else ⟨true, previous.count + 1, previous.resetUnixSeconds⟩

/-- What the limiter resolves to; the clock is read again for a denied call. -/
def answer (r : RateLimiter) (d : RateLimitDecision) (nowSec : ℤ) :
    Except RateLimitFailure RateLimitAllowance :=
  if d.allowed then .ok ⟨r.limit, r.limit - d.count, ⌈d.resetUnixSeconds⌉⟩
  else .error (.rateLimited "Per-token rate limit exceeded"
    (max 1 ⌈d.resetUnixSeconds - nowSec⌉))

section Decide
variable (r : RateLimiter) {nowSec : ℤ} {p : RateLimitState}

theorem decide_closed (h : p.resetUnixSeconds ≤ nowSec) :
    r.decide nowSec (some p) = r.decide nowSec none := if_pos h

theorem decide_full (h : nowSec < p.resetUnixSeconds) (hfull : p.count ≥ r.limit) :
    r.decide nowSec (some p) = ⟨false, p.count, p.resetUnixSeconds⟩ := by
  rw [decide, if_neg (not_le.mpr h), if_pos hfull]

theorem decide_open (h : nowSec < p.resetUnixSeconds) (hroom : p.count < r.limit) :
    r.decide nowSec (some p) = ⟨true, p.count + 1, p.resetUnixSeconds⟩ := by
  rw [decide, if_neg (not_le.mpr h), if_neg (not_le.mpr hroom)]

end Decide
end RateLimiter

namespace Sample

def oneASecond : RateLimiter := ⟨1, 1, Nat.one_pos, one_pos⟩

end Sample
end Guardian
