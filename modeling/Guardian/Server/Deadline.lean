import Guardian.Lib.Double
import Guardian.Server.Errors

/-!
# Deadlines of the host abstractions

The configured budgets and the race of a host call against its budget. Who wins the
race is the environment's choice; the text of the deadline's error names the budget.
-/

namespace Guardian
open Double

structure GuardianTimeouts where
  authenticateMs : Option JsNumber
  rateLimitMs : Option JsNumber
  livenessMs : Option JsNumber
  signMs : Option JsNumber

structure ResolvedGuardianTimeouts where
  authenticateMs : ℚ
  rateLimitMs : ℚ
  livenessMs : ℚ
  signMs : ℚ
  deriving DecidableEq, Repr

def DEFAULT_GUARDIAN_TIMEOUTS : ResolvedGuardianTimeouts := ⟨2000, 1000, 5000, 6000⟩

def MAX_TIMEOUT_MS : ℚ := 2 ^ 31 - 1

def resolveTimeout (key : String) (default : ℚ) : Option JsNumber → Except Thrown ℚ
  | none => .ok default
  | some value =>
    let rejected : Except Thrown ℚ := .error
      ⟨s!"guardian: timeouts.{key} must be a positive number of at most " ++
        s!"2147483647ms (setTimeout's 2^31-1 limit), got {value.text}"⟩
    match value with
    | .finite q => if q ≤ 0 ∨ MAX_TIMEOUT_MS < q then rejected else .ok q
    | _ => rejected

def resolveGuardianTimeouts (overrides : GuardianTimeouts) :
    Except Thrown ResolvedGuardianTimeouts := do
  let d := DEFAULT_GUARDIAN_TIMEOUTS
  let authenticateMs ← resolveTimeout "authenticateMs" d.authenticateMs overrides.authenticateMs
  let rateLimitMs ← resolveTimeout "rateLimitMs" d.rateLimitMs overrides.rateLimitMs
  let livenessMs ← resolveTimeout "livenessMs" d.livenessMs overrides.livenessMs
  let signMs ← resolveTimeout "signMs" d.signMs overrides.signMs
  return ⟨authenticateMs, rateLimitMs, livenessMs, signMs⟩

def InTimeoutRange (ms : ℚ) : Prop := 0 < ms ∧ ms ≤ MAX_TIMEOUT_MS

theorem resolveTimeout_inRange {key : String} {default q : ℚ} {value : Option JsNumber}
    (hdefault : InTimeoutRange default) (h : resolveTimeout key default value = .ok q) :
    InTimeoutRange q := by
  match value, h with
  | none, h => exact (Except.ok.inj h) ▸ hdefault
  | some (.finite p), h =>
    unfold resolveTimeout at h
    dsimp only at h
    split at h
    · cases h
    · rename_i hrange
      obtain rfl := Except.ok.inj h
      exact (not_or.mp hrange).imp not_le.mp not_lt.mp
  | some (.infinite _), h => cases h
  | some .nan, h => cases h

theorem inTimeoutRange_natCast (n : ℕ) (hpos : 0 < n) (h : n < 2 ^ 31) : InTimeoutRange n := by
  have hle : (n : ℚ) ≤ 2 ^ 31 - 1 := by
    rw [le_sub_iff_add_le]
    exact_mod_cast h
  exact ⟨by exact_mod_cast hpos, hle⟩

theorem resolved_inRange {timeouts : GuardianTimeouts} {resolved : ResolvedGuardianTimeouts}
    (h : resolveGuardianTimeouts timeouts = .ok resolved) :
    InTimeoutRange resolved.authenticateMs ∧ InTimeoutRange resolved.rateLimitMs ∧
      InTimeoutRange resolved.livenessMs ∧ InTimeoutRange resolved.signMs := by
  unfold resolveGuardianTimeouts at h
  dsimp only at h
  cases hauth : resolveTimeout "authenticateMs" DEFAULT_GUARDIAN_TIMEOUTS.authenticateMs
      timeouts.authenticateMs with
  | error e => rw [hauth] at h; cases h
  | ok authenticateMs =>
    cases hrate : resolveTimeout "rateLimitMs" DEFAULT_GUARDIAN_TIMEOUTS.rateLimitMs
        timeouts.rateLimitMs with
    | error e => rw [hauth, hrate] at h; cases h
    | ok rateLimitMs =>
      cases hlive : resolveTimeout "livenessMs" DEFAULT_GUARDIAN_TIMEOUTS.livenessMs
          timeouts.livenessMs with
      | error e => rw [hauth, hrate, hlive] at h; cases h
      | ok livenessMs =>
        cases hsign : resolveTimeout "signMs" DEFAULT_GUARDIAN_TIMEOUTS.signMs
            timeouts.signMs with
        | error e => rw [hauth, hrate, hlive, hsign] at h; cases h
        | ok signMs =>
          rw [hauth, hrate, hlive, hsign] at h
          obtain rfl := Except.ok.inj h
          exact ⟨resolveTimeout_inRange (inTimeoutRange_natCast 2000 (by decide) (by decide)) hauth,
            resolveTimeout_inRange (inTimeoutRange_natCast 1000 (by decide) (by decide)) hrate,
            resolveTimeout_inRange (inTimeoutRange_natCast 5000 (by decide) (by decide)) hlive,
            resolveTimeout_inRange (inTimeoutRange_natCast 6000 (by decide) (by decide)) hsign⟩

inductive Race (α : Type) where
  | resolved (a : α)
  | rejected (thrown : ThrownValue)
  | expired

def deadlineMessage (abstraction : String) (ms : ℚ) : String :=
  s!"{abstraction} did not complete within {Double.text ms}ms"

def withAbstractionDeadline {α : Type} (abstraction : String) (ms : ℚ) :
    Race α → Except ThrownValue α
  | .resolved a => .ok a
  | .rejected thrown => .error thrown
  | .expired =>
    .error (.tagged (.upstreamUnavailable (deadlineMessage abstraction ms) 503 none))

end Guardian
