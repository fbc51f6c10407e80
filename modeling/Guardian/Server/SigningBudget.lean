import Guardian.Defaults.RateLimiterBudget
import Guardian.Defaults.RetryAfter
import Guardian.Lib.Interleaving
import Guardian.Server.HttpGates

/-!
# The budget of signing calls

Any number of requests are served at once, with the bundled rate limiter as the host's
`accountRateLimit`. The windows of one key end a whole window apart, and each grants its limit;
a request that reaches the signer has been granted a place in one of them.
-/

namespace Guardian
open Effect Text Double

def RateLimitAllowance.window (allowance : RateLimitAllowance) : RateLimitWindow :=
  ⟨(JsNumber.finite allowance.limit).text, (JsNumber.finite allowance.remaining).text,
    (JsNumber.finite allowance.resetUnixSeconds).text⟩

def RateLimitFailure.tagged : RateLimitFailure → GuardianError
  | .rateLimited message retryAfterSeconds =>
    .rateLimited message (JsNumber.finite retryAfterSeconds).text
  | .upstreamUnavailable message status => .upstreamUnavailable message status none

def RateLimiter.settled (r : RateLimiter) (d : RateLimitDecision) (nowSec : ℤ) :
    Except GuardianError RateLimitWindow :=
  match r.answer d nowSec with
  | .ok allowance => .ok allowance.window
  | .error failure => .error failure.tagged

theorem RateLimiter.settled_ok {r : RateLimiter} {d : RateLimitDecision} {nowSec : ℤ}
    {window : RateLimitWindow} (h : r.settled d nowSec = .ok window) : d.allowed = true ∧
      window.resetUnixSeconds = (JsNumber.finite ⌈d.resetUnixSeconds⌉).text := by
  unfold settled answer at h
  split at h
  · rename_i allowance hallowed
    split at hallowed
    · rename_i hd
      cases hallowed
      cases h
      exact ⟨hd, rfl⟩
    · cases hallowed
  · cases h

theorem sum_wholeSeconds {t : ℤ} {n : ℕ} (hn : n ≤ 2 ^ 52) (hlower : -2 ^ 52 ≤ t)
    (hupper : t ≤ 2 ^ 52) : Double.sum t n = t + n := by
  unfold Double.sum
  split
  · rename_i hnonneg
    have hint : 0 ≤ t + n := by exact_mod_cast hnonneg
    obtain ⟨m, hm⟩ := Int.eq_ofNat_of_zero_le hint
    have hcast : (t : ℚ) + n = m := by exact_mod_cast hm
    rw [hcast, nearest_natCast (by omega)]
  · rename_i hneg
    have hint : t + n < 0 := by exact_mod_cast not_le.mp hneg
    obtain ⟨m, hm⟩ := Int.eq_ofNat_of_zero_le (neg_nonneg.mpr hint.le)
    have hcast : -((t : ℚ) + n) = m := by exact_mod_cast hm
    rw [hcast, nearest_natCast (by omega), ← hcast, neg_neg]

theorem TimeValue.seconds_bounds (now : TimeValue) :
    -2 ^ 52 ≤ secondsOf now.ms ∧ secondsOf now.ms ≤ 2 ^ 52 := by
  have hlower := now.lower
  have hupper := now.upper
  unfold secondsOf
  unfold MAX_TIME_VALUE at hlower hupper
  omega

theorem RateLimiter.windowEnd_whole (r : RateLimiter) {n : ℕ} (hwhole : r.windowSeconds = n)
    (hn : n ≤ 2 ^ 52) (now : TimeValue) :
    r.windowEnd (secondsOf now.ms) = (secondsOf now.ms : ℚ) + n := by
  obtain ⟨hlower, hupper⟩ := now.seconds_bounds
  rw [windowEnd, hwhole, sum_wholeSeconds hn hlower hupper]
  exact_mod_cast Int.ceil_intCast (R := ℚ) (secondsOf now.ms + n)

structure Grant (ι : Type) where
  request : ι
  key : String
  reset : ℚ

section Grants
variable {ι : Type} {granted : List (Grant ι)}

def spent (granted : List (Grant ι)) (key : String) (reset : ℚ) : ℕ :=
  granted.countP fun g => decide (g.key = key) && decide (g.reset = reset)

theorem spent_snoc (g : Grant ι) (key : String) (reset : ℚ) : spent (granted ++ [g]) key reset =
    spent granted key reset + if g.key = key ∧ g.reset = reset then 1 else 0 := by
  simp [spent, List.countP_append, List.countP_cons]

theorem spent_pos {key : String} {reset : ℚ} :
    0 < spent granted key reset ↔ ∃ g ∈ granted, g.key = key ∧ g.reset = reset := by
  simp [spent, List.countP_pos_iff]

/-- The windows of each key end `n` seconds apart or more, and none is granted more than its
limit. -/
structure WithinLimit (limit n : ℕ) (granted : List (Grant ι)) : Prop where
  limited : ∀ key reset, spent granted key reset ≤ limit
  apart : ∀ key reset reset', 0 < spent granted key reset → 0 < spent granted key reset' →
    reset < reset' → reset + n ≤ reset'

/-- The grants of a key in the windows that end in a span of seconds. -/
def grantsIn (granted : List (Grant ι)) (key : String) (first last : ℚ) : ℕ :=
  granted.countP fun g => decide (g.key = key) && decide (first ≤ g.reset ∧ g.reset < last)

theorem WithinLimit.one_window {limit n : ℕ} (h : WithinLimit limit n granted) (key : String)
    (first : ℚ) : grantsIn granted key first (first + n) ≤ limit := by
  by_cases hany : ∃ g ∈ granted, g.key = key ∧ first ≤ g.reset ∧ g.reset < first + n
  · obtain ⟨g, hg, hkey, hfirst, hlast⟩ := hany
    refine le_trans (List.countP_mono_left fun g' hg' hin => ?_) (h.limited key g.reset)
    simp only [Bool.and_eq_true, decide_eq_true_eq] at hin ⊢
    obtain ⟨hkey', hfirst', hlast'⟩ := hin
    refine ⟨hkey', ?_⟩
    have hspent := spent_pos.mpr ⟨g, hg, hkey, rfl⟩
    have hspent' := spent_pos.mpr ⟨g', hg', hkey', rfl⟩
    rcases lt_trichotomy g'.reset g.reset with hlt | heq | hgt
    · have := h.apart key _ _ hspent' hspent hlt
      linarith
    · exact heq
    · have := h.apart key _ _ hspent hspent' hgt
      linarith
  · have hnone : grantsIn granted key first (first + n) = 0 := by
      rw [grantsIn, List.countP_eq_zero]
      intro g hg hin
      simp only [Bool.and_eq_true, decide_eq_true_eq] at hin
      exact hany ⟨g, hg, hin⟩
    omega

theorem grantsIn_split (key : String) {first last : ℚ} (middle : ℚ) (hfirst : first ≤ middle)
    (hlast : middle ≤ last) : grantsIn granted key first last =
      grantsIn granted key first middle + grantsIn granted key middle last := by
  induction granted with
  | nil => rfl
  | cons g granted ih =>
    simp only [grantsIn, List.countP_cons] at ih ⊢
    rw [ih]
    by_cases hkey : g.key = key
    · by_cases hbelow : g.reset < middle
      · have hall : (first ≤ g.reset ∧ g.reset < last) ↔ (first ≤ g.reset ∧ g.reset < middle) :=
          and_congr_right fun _ => iff_of_true (hbelow.trans_le hlast) hbelow
        simp [hkey, hall, not_le.mpr hbelow]
        omega
      · have hfrom := not_lt.mp hbelow
        simp [hkey, hbelow, hfrom, hfirst.trans hfrom]
        omega
    · simp [hkey]

theorem WithinLimit.grants {limit n : ℕ} (h : WithinLimit limit n granted) (key : String)
    (first : ℚ) (windows : ℕ) :
    grantsIn granted key first (first + windows * n) ≤ windows * limit := by
  induction windows with
  | zero =>
    rw [Nat.cast_zero, zero_mul, add_zero, zero_mul, grantsIn, Nat.le_zero, List.countP_eq_zero]
    intro g _ hin
    simp only [Bool.and_eq_true, decide_eq_true_eq] at hin
    exact absurd hin.2.2 (not_lt.mpr hin.2.1)
  | succ windows ih =>
    have hnonneg : (0 : ℚ) ≤ windows * n := by positivity
    have hlast := h.one_window key (first + windows * n)
    have hend : first + ((windows + 1 : ℕ) : ℚ) * n = first + windows * n + n := by
      push_cast
      ring
    rw [hend, grantsIn_split key (first + windows * n) (by linarith)
      (by linarith [(Nat.cast_nonneg n : (0 : ℚ) ≤ n)])]
    calc grantsIn granted key first (first + windows * n) +
          grantsIn granted key (first + windows * n) (first + windows * n + n)
        ≤ windows * limit + limit := Nat.add_le_add ih hlast
      _ = (windows + 1) * limit := by ring

end Grants

structure LimiterWorld (ι : Type) where
  store : InMemoryRateLimitStore
  clock : TimeValue
  granted : List (Grant ι)

section World
variable {ι : Type} (r : RateLimiter)

def LimiterWorld.decision (s : LimiterWorld ι) (info : TokenInfo) : RateLimitDecision :=
  (s.store.consume r (secondsOf s.clock.ms) info.tokenId).1

/-- The store after a call for a token, and the place that was granted. -/
def LimiterWorld.consumed (s : LimiterWorld ι) (i : ι) (info : TokenInfo) : LimiterWorld ι where
  store := (s.store.consume r (secondsOf s.clock.ms) info.tokenId).2
  clock := s.clock
  granted := if (s.decision r info).allowed then
    s.granted ++ [⟨i, info.tokenId, (s.decision r info).resetUnixSeconds⟩] else s.granted

theorem LimiterWorld.granted_consumed (s : LimiterWorld ι) (i : ι) (info : TokenInfo) {g : Grant ι}
    (h : g ∈ s.granted) : g ∈ (s.consumed r i info).granted := by
  unfold consumed
  dsimp only
  split
  · exact List.mem_append_left _ h
  · exact h

/-- The limiter decides in one turn, and its answer may still come too late for the deadline of
the shell. -/
def limiterServes (i : ι) (s : LimiterWorld ι) : Event server → LimiterWorld ι → Prop
  | ⟨.inl (.accountRateLimit info), race⟩, s' => s' = s.consumed r i info ∧
      ((race : Race (Except GuardianError RateLimitWindow)) = .expired ∨ ∃ later : TimeValue,
        s.clock.ms ≤ later.ms ∧
          race = .resolved (r.settled (s.decision r info) (secondsOf later.ms)))
  | _, s' => s' = s

/-- Whatever is not the limiter answers as it likes, and the clock does not go back. -/
def budgetWorld (ι : Type) : World server ι (LimiterWorld ι) where
  serves := limiterServes r
  evolves s s' := ∃ later : TimeValue, s.clock.ms ≤ later.ms ∧ s' = { s with clock := later }

/-- What the store holds accounts for what has been granted. -/
structure Kept (n : ℕ) (s : LimiterWorld ι) : Prop where
  budget : WithinLimit r.limit n s.granted
  stored : ∀ key, LimiterState.Accounts (spent s.granted key) (secondsOf s.clock.ms)
    (s.store.map.get? key)
  held : ∀ key w, s.store.map.get? key = some w → 0 < spent s.granted key w.resetUnixSeconds

variable {r} {n : ℕ} {s : LimiterWorld ι}

theorem Kept.later (h : Kept r n s) {later : TimeValue} (hle : s.clock.ms ≤ later.ms) :
    Kept r n { s with clock := later } :=
  ⟨h.budget, fun key => (h.stored key).later (secondsOf_mono hle), h.held⟩

theorem LimiterWorld.decision_eq (s : LimiterWorld ι) (info : TokenInfo) : s.decision r info =
    r.decide (secondsOf s.clock.ms) (s.store.map.get? info.tokenId) := by
  rw [decision, InMemoryRateLimitStore.consume, apply_ite Prod.fst, ite_self]

theorem Kept.decision_reset (h : Kept r n s) (hwhole : r.windowSeconds = n) (hn : n ≤ 2 ^ 52)
    (info : TokenInfo) (hallowed : (s.decision r info).allowed = true) :
    0 < spent s.granted info.tokenId (s.decision r info).resetUnixSeconds ∨
      ∀ reset, 0 < spent s.granted info.tokenId reset →
        reset + n ≤ (s.decision r info).resetUnixSeconds := by
  have hstored := h.stored info.tokenId
  have hheld := h.held info.tokenId
  have hnew : (∀ reset, 0 < spent s.granted info.tokenId reset →
      reset ≤ secondsOf s.clock.ms) → ∀ reset, 0 < spent s.granted info.tokenId reset →
        reset + n ≤ r.windowEnd (secondsOf s.clock.ms) := by
    intro hclosed reset hpos
    rw [r.windowEnd_whole hwhole hn]
    have := hclosed reset hpos
    linarith
  rw [LimiterWorld.decision_eq] at hallowed ⊢
  generalize s.store.map.get? info.tokenId = stored at hstored hheld hallowed ⊢
  cases stored with
  | none => exact .inr (hnew hstored)
  | some w =>
    by_cases hclosed : w.ClosedBy (secondsOf s.clock.ms)
    · rw [r.decide_closed hclosed]
      exact .inr (hnew (hstored.forget hclosed))
    · have hopen := not_le.mp hclosed
      rcases Nat.lt_or_ge w.count r.limit with hroom | hfull
      · rw [r.decide_open hopen hroom]
        exact .inl (hheld w rfl)
      · rw [r.decide_full hopen hfull] at hallowed
        cases hallowed

theorem accounts_evicted {used : ℚ → ℕ} {nowSec : ℤ} {stored full : Option RateLimitState}
    (h : LimiterState.Accounts used nowSec full)
    (hevicted : Eviction.Evicted (RateLimitState.ClosedBy nowSec) stored full) :
    LimiterState.Accounts used nowSec stored := by
  cases hevicted with
  | kept => exact h
  | lost hclosed => exact h.forget hclosed

theorem spent_snoc_other {granted : List (Grant ι)} {g : Grant ι} {key : String}
    (h : g.key ≠ key) : spent (granted ++ [g]) key = spent granted key := by
  funext reset
  rw [spent_snoc, if_neg fun hboth => h hboth.1, Nat.add_zero]

theorem WithinLimit.snoc {limit : ℕ} {granted : List (Grant ι)} (h : WithinLimit limit n granted)
    {g : Grant ι} (hroom : spent granted g.key g.reset < limit)
    (hlast : ∀ reset, 0 < spent granted g.key reset → reset ≤ g.reset)
    (hreset : 0 < spent granted g.key g.reset ∨
      ∀ reset, 0 < spent granted g.key reset → reset + n ≤ g.reset) :
    WithinLimit limit n (granted ++ [g]) := by
  have hold : ∀ key reset, 0 < spent (granted ++ [g]) key reset →
      0 < spent granted key reset ∨ g.key = key ∧ g.reset = reset := by
    intro key reset hpos
    rw [spent_snoc] at hpos
    split at hpos
    · exact .inr ‹_›
    · exact .inl hpos
  refine ⟨fun key reset => ?_, fun key reset reset' hpos hpos' hlt => ?_⟩
  · rw [spent_snoc]
    split
    · rename_i heq
      obtain ⟨rfl, rfl⟩ := heq
      omega
    · exact h.limited key reset
  · rcases hold _ _ hpos with hpos | ⟨rfl, rfl⟩
    · rcases hold _ _ hpos' with hpos' | ⟨rfl, rfl⟩
      · exact h.apart key reset reset' hpos hpos' hlt
      · rcases hreset with hcurrent | hnew
        · exact h.apart _ reset _ hpos hcurrent hlt
        · exact hnew reset hpos
    · rcases hold _ _ hpos' with hpos' | ⟨-, rfl⟩
      · exact absurd (hlast reset' hpos') (not_le.mpr hlt)
      · exact absurd hlt (lt_irrefl _)

theorem Kept.of_evicted {full : String → Option RateLimitState}
    (hbudget : WithinLimit r.limit n s.granted)
    (hstored : ∀ key, LimiterState.Accounts (spent s.granted key) (secondsOf s.clock.ms) (full key))
    (hheld : ∀ key w, full key = some w → 0 < spent s.granted key w.resetUnixSeconds)
    (hevicted : ∀ key, Eviction.Evicted (RateLimitState.ClosedBy (secondsOf s.clock.ms))
      (s.store.map.get? key) (full key)) : Kept r n s := by
  refine ⟨hbudget, fun key => accounts_evicted (hstored key) (hevicted key), fun key w hw => ?_⟩
  have hfull := hevicted key
  rw [hw] at hfull
  generalize hfound : full key = found at hfull
  cases hfull
  exact hheld key w hfound

theorem accounts_snoc {granted : List (Grant ι)} {g : Grant ι} {nowSec : ℤ} {w : RateLimitState}
    (hlast : ∀ reset, 0 < spent granted g.key reset → reset ≤ g.reset)
    (hroom : spent granted g.key g.reset < w.count) (hreset : g.reset = w.resetUnixSeconds) :
    LimiterState.Accounts (spent (granted ++ [g]) g.key) nowSec (some w) := by
  refine ⟨fun reset hpos => ?_, ?_⟩
  · rw [spent_snoc] at hpos
    split at hpos
    · rename_i heq
      exact (heq.2.symm.trans hreset).le
    · exact (hlast reset hpos).trans hreset.le
  · rw [spent_snoc, ← hreset, if_pos ⟨rfl, rfl⟩]
    exact hroom

theorem Kept.consumed (h : Kept r n s) (hwhole : r.windowSeconds = n) (hn : n ≤ 2 ^ 52) (i : ι)
    (info : TokenInfo) : Kept r n (s.consumed r i info) := by
  have hafter : ∀ key, Eviction.Evicted (RateLimitState.ClosedBy (secondsOf s.clock.ms))
      ((s.consumed r i info).store.map.get? key)
      (if (s.decision r info).allowed then
        Function.update s.store.map.get? info.tokenId (some (s.decision r info).state) key
        else s.store.map.get? key) := fun key =>
    RateLimitStore.inMemory_keeps.afterConsume _ rfl s.store r _ info.tokenId key
  by_cases hallowed : (s.decision r info).allowed = true
  · simp only [if_pos hallowed] at hafter
    have hpositive : (0 : ℚ) < n := hwhole ▸ r.window_pos
    have hbacked : LimiterState.Backed r (spent s.granted info.tokenId)
        (s.store.map.get? info.tokenId) (.writing (s.decision r info) false) := by
      rw [LimiterWorld.decision_eq] at hallowed ⊢
      refine (h.stored info.tokenId).decide (fun _ => ?_) hallowed
      rw [r.windowEnd_whole hwhole hn]
      linarith
    obtain ⟨hlast, hroom, hlimit⟩ := hbacked
    have hgranted : (s.consumed r i info).granted =
        s.granted ++ [⟨i, info.tokenId, (s.decision r info).resetUnixSeconds⟩] := if_pos hallowed
    have hother : ∀ key, key ≠ info.tokenId →
        spent (s.consumed r i info).granted key = spent s.granted key := by
      intro key hkey
      rw [hgranted, spent_snoc_other hkey.symm]
    refine .of_evicted ?_ (fun key => ?_) (fun key w hw => ?_) hafter
    · rw [hgranted]
      exact h.budget.snoc (hroom.trans_le hlimit) hlast (h.decision_reset hwhole hn info hallowed)
    · rw [Function.update_apply]
      split
      · rename_i hkey
        rw [hkey, hgranted]
        exact accounts_snoc hlast hroom rfl
      · rename_i hkey
        rw [hother key hkey]
        exact h.stored key
    · rw [Function.update_apply] at hw
      split at hw
      · rename_i hkey
        subst hkey
        cases hw
        rw [hgranted]
        exact spent_pos.mpr ⟨_, List.mem_append_right _ (.head _), rfl, rfl⟩
      · rename_i hkey
        rw [hother key hkey]
        exact h.held key w hw
  · have hgranted : (s.consumed r i info).granted = s.granted := if_neg hallowed
    simp only [if_neg hallowed] at hafter
    refine .of_evicted ?_ (fun key => ?_) (fun key w hw => ?_) hafter
    · rw [hgranted]
      exact h.budget
    · rw [hgranted]
      exact h.stored key
    · rw [hgranted]
      exact h.held key w hw

end World

section Requests
variable {ι : Type} [DecidableEq ι]

/-- A request that the host was asked to sign, for a token, and its place in a window. -/
structure SignedInWindow (c : Config server ι (LimiterWorld ι) Response) (i : ι) (key : String)
    (reset : ℚ) : Prop where
  asked : ∃ ctx body race, (i, (⟨.inr (.sign ctx body), race⟩ : Event server)) ∈ c.log
  token : ∃ token info, (i, (⟨.inl (.authenticate token), Race.resolved (.ok info)⟩ :
    Event server)) ∈ c.log ∧ info.tokenId = key
  granted : ⟨i, key, reset⟩ ∈ c.world.granted

/-- Whoever was let pass by the limiter has its place on record. -/
structure Places (r : RateLimiter) (n : ℕ) (s : LimiterWorld ι) (log : List (ι × Event server)) :
    Prop where
  kept : Kept r n s
  placed : ∀ i info window, (i, (⟨.inl (.accountRateLimit info), Race.resolved (.ok window)⟩ :
    Event server)) ∈ log → ∃ reset, ⟨i, info.tokenId, reset⟩ ∈ s.granted

variable {r : RateLimiter} {n : ℕ} {s s' : LimiterWorld ι} {log : List (ι × Event server)}

omit [DecidableEq ι] in
theorem Places.serve (h : Places r n s log) (hwhole : r.windowSeconds = n) (hn : n ≤ 2 ^ 52)
    {i : ι} {e : Event server} (hserves : limiterServes r i s e s') :
    Places r n s' (log ++ [(i, e)]) := by
  obtain ⟨op, answer⟩ := e
  have hsame : s' = s → (∀ info window, (⟨op, answer⟩ : Event server) ≠
      ⟨.inl (.accountRateLimit info), Race.resolved (.ok window)⟩) →
      Places r n s' (log ++ [(i, ⟨op, answer⟩)]) := by
    rintro rfl hother
    refine ⟨h.kept, fun j info window hmem => ?_⟩
    rcases List.mem_append.mp hmem with hold | hnew
    · exact h.placed j info window hold
    · have heq := congrArg Prod.snd (List.mem_singleton.mp hnew)
      exact absurd heq.symm (hother info window)
  rcases op with op | op
  · cases op with
    | accountRateLimit info =>
      obtain ⟨rfl, hrace⟩ := hserves
      refine ⟨h.kept.consumed hwhole hn i info, fun j info' window hmem => ?_⟩
      rcases List.mem_append.mp hmem with hold | hnew
      · obtain ⟨reset, hreset⟩ := h.placed j info' window hold
        exact ⟨reset, s.granted_consumed r i info hreset⟩
      · cases List.mem_singleton.mp hnew
        rcases hrace with hlate | ⟨later, -, hresolved⟩
        · cases hlate
        · have hsettled := (Race.resolved.inj hresolved).symm
          have hallowed := (RateLimiter.settled_ok hsettled).1
          refine ⟨(s.decision r info).resetUnixSeconds, ?_⟩
          rw [LimiterWorld.consumed, if_pos hallowed]
          exact List.mem_append_right _ (.head _)
    | _ => exact hsame hserves fun _ _ heq => by cases heq
  · exact hsame hserves fun _ _ heq => by cases heq

omit [DecidableEq ι] in
theorem places_start (r : RateLimiter) (n : ℕ) (clock : TimeValue) :
    Places r n (⟨.empty, clock, []⟩ : LimiterWorld ι) [] := by
  refine ⟨⟨⟨fun _ _ => Nat.zero_le _, fun _ _ _ hpos => ?_⟩, fun _ _ hpos => ?_, fun _ _ hw => ?_⟩,
    fun _ _ _ hmem => ?_⟩
  · exact absurd hpos (Nat.lt_irrefl 0)
  · exact absurd hpos (Nat.lt_irrefl 0)
  · cases hw
  · cases hmem

theorem places_reachable (hwhole : r.windowSeconds = n) (hn : n ≤ 2 ^ 52) {clock : TimeValue}
    {procs : ι → Serving Response} {c : Config server ι (LimiterWorld ι) Response}
    (h : Config.Reachable (budgetWorld r ι) ⟨.empty, clock, []⟩ procs c) :
    Places r n c.world c.log := by
  refine Config.reachable_invariant (places_start r n clock)
    (fun i s log e s' hplaces hserves => hplaces.serve hwhole hn hserves)
    (fun s log s' hplaces hmoved => ?_) h
  obtain ⟨later, hle, rfl⟩ := hmoved
  exact ⟨hplaces.kept.later hle, hplaces.placed⟩

theorem card_le_grantsIn {granted : List (Grant ι)} {key : String} {first last : ℚ}
    (signing : Finset ι) (h : ∀ i ∈ signing, ∃ reset, ⟨i, key, reset⟩ ∈ granted ∧
      first ≤ reset ∧ reset < last) : signing.card ≤ grantsIn granted key first last := by
  have hsubset : signing ⊆ ((granted.filter fun g => decide (g.key = key) &&
      decide (first ≤ g.reset ∧ g.reset < last)).map Grant.request).toFinset := by
    intro i hi
    obtain ⟨reset, hmem, hfirst, hlast⟩ := h i hi
    rw [List.mem_toFinset, List.mem_map]
    exact ⟨⟨i, key, reset⟩, List.mem_filter.mpr ⟨hmem, by simp [hfirst, hlast]⟩, rfl⟩
  calc signing.card ≤ _ := Finset.card_le_card hsubset
    _ ≤ _ := List.toFinset_card_le _
    _ = grantsIn granted key first last := by
      rw [List.length_map, grantsIn, List.countP_eq_length_filter]

theorem countP_le_one {α : Type} {p : α → Bool} {l : List α}
    (h : ∀ pre e post, l = pre ++ e :: post → p e = true → ∀ d ∈ pre, p d = false) :
    l.countP p ≤ 1 := by
  induction l using List.reverseRecOn with
  | nil => simp
  | append_singleton l e ih =>
    rw [List.countP_append, List.countP_singleton]
    split
    · rename_i he
      have hnone : l.countP p = 0 := by
        rw [List.countP_eq_zero]
        intro d hd hp
        rw [h l e [] rfl he d hd] at hp
        cases hp
      omega
    · exact ih fun pre d post heq => h pre d (post ++ [e]) (by rw [heq]; simp)

section Served
variable {framework : Framework} {abs : GuardianAbstractions} {request : HttpRequest}
  {tr : List (Event server)}

theorem unsigned_before_sign {ctx : SigningContext} {body : ParsedSigningBody}
    {next : (HostOp.sign ctx body).Answer → Serving Response}
    (h : Runs (buildGuardianServer framework abs request) tr
      (.perform (.inr (.sign ctx body)) next)) : ∀ e ∈ tr, asksToSign e.op = false := by
  obtain ⟨_, _, _, _, _, _, _, rfl, _, _, hprepared⟩ := buildGuardianServer_sign h
  intro e he
  rcases List.mem_append.mp he with hshell | hprep
  · obtain ⟨d, -, rfl⟩ := List.mem_map.mp hshell
    rfl
  · cases hprepared with
    | intro probed =>
      simp only [List.mem_append, List.mem_cons, List.not_mem_nil, or_false] at hprep
      rcases hprep with hprobe | rfl | rfl
      · split at probed
        · subst probed
          rw [List.mem_singleton.mp hprobe]
          rfl
        · subst probed
          cases hprobe
      · rfl
      · rfl

theorem granted_before_sign (hlimiter : abs.hasRateLimit = true) {ctx : SigningContext}
    {body : ParsedSigningBody} {next : (HostOp.sign ctx body).Answer → Serving Response}
    (h : Runs (buildGuardianServer framework abs request) tr
      (.perform (.inr (.sign ctx body)) next)) : ∃ token info window,
      (⟨.inl (.authenticate token), Race.resolved (.ok info)⟩ : Event server) ∈ tr ∧
      (⟨.inl (.accountRateLimit info), Race.resolved (.ok window)⟩ : Event server) ∈ tr := by
  obtain ⟨scope, -, info, ids, asked, prep, requestId, rfl, -, hcleared, -⟩ :=
    buildGuardianServer_sign h
  have hleft : ∀ d ∈ asked, d.inLeft ∈ (ids ++ asked).map (Event.inLeft (T := host)) ++ prep :=
    fun d hd => List.mem_append_left _ (List.mem_map_of_mem (List.mem_append_right _ hd))
  cases hcleared with
  | @intro token _ clock budget _ _ _ granted =>
    rw [if_pos hlimiter] at granted
    obtain ⟨window, rfl⟩ := granted
    exact ⟨token, info, window, hleft ⟨.authenticate token, .resolved (.ok info)⟩ (.head _),
      hleft ⟨.accountRateLimit info, .resolved (.ok window)⟩ (by simp)⟩

theorem signed_at_most_once {p : Serving Response}
    (h : Runs (buildGuardianServer framework abs request) tr p) :
    tr.countP (fun e => asksToSign e.op) ≤ 1 := by
  refine countP_le_one fun pre e post htr hsign => ?_
  rw [htr] at h
  obtain ⟨next, hissued, -⟩ := h.split
  obtain ⟨op, answer⟩ := e
  rcases op with op | op
  · cases hsign
  cases op
  case sign ctx body => exact unsigned_before_sign hissued
  all_goals cases hsign

end Served

end Requests

/-- The bundled limiter bounds what is signed, however the requests overlap: whoever is signed has
a place of its own in a window of its token, once, and the windows of a token that end within so
many windows' time hold no more than so many limits. -/
theorem signing_rate_bounded {ι : Type} [DecidableEq ι] (framework : Framework)
    (abs : GuardianAbstractions) (r : RateLimiter) (n : ℕ) (hwhole : r.windowSeconds = n)
    (hn : n ≤ 2 ^ 52) (hlimiter : abs.hasRateLimit = true) (requests : ι → HttpRequest)
    (clock : TimeValue) (c : Config server ι (LimiterWorld ι) Response)
    (h : Config.Reachable (budgetWorld r ι) ⟨.empty, clock, []⟩
      (fun i => buildGuardianServer framework abs (requests i)) c) :
    (∀ i, (Config.eventsOf i c.log).countP (fun e => asksToSign e.op) ≤ 1 ∧
      ∀ ctx body race, (i, (⟨.inr (.sign ctx body), race⟩ : Event server)) ∈ c.log →
        ∃ key reset, SignedInWindow c i key reset) ∧
    ∀ (key : String) (first : ℚ) (windows : ℕ) (signing : Finset ι),
      (∀ i ∈ signing, ∃ reset, SignedInWindow c i key reset ∧
        first ≤ reset ∧ reset < first + windows * n) →
      signing.card ≤ windows * r.limit := by
  have hplaces := places_reachable hwhole hn h
  refine ⟨fun i => ⟨signed_at_most_once (Config.reachable_runs h i), fun ctx body race hmem => ?_⟩,
    fun key first windows signing hsigned => ?_⟩
  · obtain ⟨pre, post, hlog⟩ := List.append_of_mem hmem
    obtain ⟨next, hissued⟩ := Config.reachable_issued h hlog
    obtain ⟨token, info, window, hauthenticated, hgranted⟩ :=
      granted_before_sign hlimiter hissued
    have hpre : ∀ e, e ∈ Config.eventsOf i pre → (i, e) ∈ c.log := fun e he => by
      rw [hlog]
      exact List.mem_append_left _ (Config.mem_eventsOf.mp he)
    obtain ⟨reset, hplace⟩ := hplaces.placed i info window (hpre _ hgranted)
    exact ⟨info.tokenId, reset, ⟨ctx, body, race, hmem⟩,
      ⟨token, info, hpre _ hauthenticated, rfl⟩, hplace⟩
  · refine (card_le_grantsIn signing fun i hi => ?_).trans
      (hplaces.kept.budget.grants key first windows)
    obtain ⟨reset, hsigned, hfirst, hlast⟩ := hsigned i hi
    exact ⟨reset, hsigned.granted, hfirst, hlast⟩

namespace Sample

def limitedAnswers (s : LimiterWorld Bool) : ∀ op : server.Op, server.Answer op
  | .inl (.accountRateLimit info) =>
    .resolved (oneASecond.settled (s.decision oneASecond info) (secondsOf s.clock.ms))
  | op => serverAnswers op

def limitedNext (i : Bool) (s : LimiterWorld Bool) : server.Op → LimiterWorld Bool
  | .inl (.accountRateLimit info) => s.consumed oneASecond i info
  | _ => s

theorem limited_serves (i : Bool) (s : LimiterWorld Bool) (op : server.Op) :
    (budgetWorld oneASecond Bool).serves i s ⟨op, limitedAnswers s op⟩ (limitedNext i s op) := by
  rcases op with op | op
  · cases op with
    | accountRateLimit info => exact ⟨rfl, .inr ⟨s.clock, le_rfl, rfl⟩⟩
    | _ => exact rfl
  · exact rfl

abbrev idleLimiter : LimiterWorld Bool := ⟨.empty, midnight, []⟩

abbrev limitedRun (i : Bool) (s : LimiterWorld Bool) (p : Serving Response) :
    List (Event server) × LimiterWorld Bool :=
  Config.alone limitedAnswers (limitedNext i) s p

theorem limited_reachable (p : Serving Response) :
    ∃ c : Config server Bool (LimiterWorld Bool) Response,
      Config.Reachable (budgetWorld oneASecond Bool) idleLimiter (fun _ => p) c ∧
      c.log = (limitedRun true idleLimiter p).1.map (fun e => (true, e)) ++
        (limitedRun false (limitedRun true idleLimiter p).2 p).1.map (fun e => (false, e)) ∧
      c.procs false = .done (Config.aloneResult limitedAnswers (limitedNext false)
        (limitedRun true idleLimiter p).2 p) := by
  have hstart : Config.Reachable (budgetWorld oneASecond Bool) idleLimiter (fun _ => p) _ := .refl
  obtain ⟨c, hreach, hworld, hlog, hother, -⟩ :=
    Config.Reachable.alone limitedAnswers (limitedNext true) hstart true (limited_serves true)
  have hprocs : c.procs false = p := hother false Bool.false_ne_true
  obtain ⟨c', hreach', -, hlog', -, hdone⟩ :=
    Config.Reachable.alone limitedAnswers (limitedNext false) hreach false (limited_serves false)
  rw [hprocs, hworld] at hlog' hdone
  rw [hlog] at hlog'
  exact ⟨c', hreach', hlog', hdone⟩

def posted : Serving Response := buildGuardianServer framework abstractions postedRequest

theorem limitedRuns_facts :
    (limitedRun true idleLimiter posted).1.any (fun e => asksToSign e.op) = true ∧
    (limitedRun false (limitedRun true idleLimiter posted).2 posted).1.all
      (fun e => asksToSign e.op = false) = true ∧
    (Config.aloneResult limitedAnswers (limitedNext false) (limitedRun true idleLimiter posted).2
      posted).status = 429 := by
  decide +kernel

theorem first_signed : ∃ ctx body race,
    (⟨.inr (.sign ctx body), race⟩ : Event server) ∈ (limitedRun true idleLimiter posted).1 := by
  have hany := limitedRuns_facts.1
  obtain ⟨⟨op, answer⟩, hmem, hsign⟩ := List.any_eq_true.mp hany
  rcases op with op | op
  · cases hsign
  cases op
  case sign ctx body => exact ⟨ctx, body, answer, hmem⟩
  all_goals cases hsign

end Sample

/-- The first is signed; the second is turned away and the signer is not asked for it. -/
theorem signing_rate_bounded_twice :
    ∃ (c : Config server Bool (LimiterWorld Bool) Response) (response : Response),
    (∃ key reset, SignedInWindow c true key reset) ∧
    c.procs false = .done response ∧ response.status = 429 ∧
    (∀ e ∈ Config.eventsOf false c.log, asksToSign e.op = false) ∧
    ∀ (first : ℚ) (signing : Finset Bool), (∀ i ∈ signing, ∃ reset, SignedInWindow c i "dev" reset ∧
      first ≤ reset ∧ reset < first + (1 : ℕ) * (1 : ℕ)) → signing.card ≤ 1 := by
  obtain ⟨c, hreach, hlog, hdone⟩ := Sample.limited_reachable Sample.posted
  obtain ⟨ctx, body, race, hmem⟩ := Sample.first_signed
  obtain ⟨hsigned, hbounded⟩ := signing_rate_bounded Sample.framework Sample.abstractions
    Sample.oneASecond 1 (by norm_num [Sample.oneASecond]) (by norm_num) rfl
    (fun _ => Sample.postedRequest) Sample.midnight c hreach
  have hlogged : (true, (⟨.inr (.sign ctx body), race⟩ : Event server)) ∈ c.log := by
    rw [hlog]
    exact List.mem_append_left _ (List.mem_map_of_mem hmem)
  obtain ⟨-, hrefused, hstatus⟩ := Sample.limitedRuns_facts
  refine ⟨c, _, (hsigned true).2 ctx body race hlogged, hdone, hstatus, ?_,
    fun first signing h => (hbounded "dev" first 1 signing h).trans (by decide)⟩
  intro e he
  have hin := Config.mem_eventsOf.mp he
  rw [hlog, List.mem_append, List.mem_map, List.mem_map] at hin
  rcases hin with ⟨_, -, heq⟩ | ⟨e', hmem', heq⟩
  · cases heq
  · cases heq
    exact of_decide_eq_true (List.all_eq_true.mp hrefused e hmem')

end Guardian
