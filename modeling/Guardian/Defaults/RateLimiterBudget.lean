import Guardian.Defaults.RateLimiterRuns

/-!
# The budget of the read/write fallback

A task is credited to its window from the moment its count is persisted. The entry of a key
counts the tasks credited to its window, and so does what a task has read; with that a
count within the limit admits no call too many. The store must not forget a window that a
task still counts as open.
-/

namespace Guardian
open RateLimitState

def TaskPhase.admits (reset : ℚ) : TaskPhase → Bool
  | .decided d => d.allowed && decide (d.resetUnixSeconds = reset)
  | _ => false

def TaskPhase.credits (reset : ℚ) : TaskPhase → Bool
  | .writing d true => decide (d.resetUnixSeconds = reset)
  | .decided d => d.allowed && decide (d.resetUnixSeconds = reset)
  | _ => false

theorem TaskPhase.credits_of_admits {reset : ℚ} {phase : TaskPhase}
    (h : phase.admits reset = true) : phase.credits reset = true := by
  cases phase with
  | decided d => exact h
  | waiting | reading | writing | abandoned | storeFailed => cases h

namespace LimiterState

def tasksOf (s : LimiterState) (key : String) (p : TaskPhase → Bool) : ℕ :=
  ((Finset.range s.lock.tickets.length).filter fun t =>
    (decide (s.lock.keyOf t = some key) && p (s.phase t)) = true).card

def admitted (s : LimiterState) (key : String) (reset : ℚ) : ℕ :=
  s.tasksOf key (TaskPhase.admits reset)

def credited (s : LimiterState) (key : String) (reset : ℚ) : ℕ :=
  s.tasksOf key (TaskPhase.credits reset)

theorem admitted_le_credited (s : LimiterState) (key : String) (reset : ℚ) :
    s.admitted key reset ≤ s.credited key reset := by
  rw [admitted, credited, tasksOf, tasksOf]
  refine Finset.card_le_card fun t ht => ?_
  rw [Finset.mem_filter] at ht ⊢
  obtain ⟨hkey, hadmits⟩ := Bool.and_eq_true_iff.mp ht.2
  exact ⟨ht.1, Bool.and_eq_true_iff.mpr ⟨hkey, TaskPhase.credits_of_admits hadmits⟩⟩

section Counting
variable {s s' : LimiterState} {t : ℕ} {k : Ticket} {p : TaskPhase → Bool}

theorem tasksOf_moved {stage : TicketStage} (hmoves : s.lock.Moves s'.lock t k stage)
    (hother : ∀ u, u ≠ t → s'.phase u = s.phase u) (key : String) :
    s'.tasksOf key p + (decide (k.key = key) && p (s.phase t)).toNat =
      s.tasksOf key p + (decide (k.key = key) && p (s'.phase t)).toNat := by
  have hkey : s.lock.keyOf t = some k.key := KeyLock.keyOf_of_lookup hmoves.ticket
  have hreplace := Machine.card_replace (List.getElem?_eq_some_iff.mp hmoves.ticket).1
    (p := fun u => decide (s.lock.keyOf u = some key) && p (s.phase u))
    (q := fun u => decide (s'.lock.keyOf u = some key) && p (s'.phase u))
    fun u hu => by rw [hmoves.keyOf_eq, hother u hu]
  simp only [hmoves.keyOf_eq, hkey, Option.some.injEq] at hreplace
  rw [tasksOf, tasksOf, hmoves.tickets, List.length_set]
  simp only [hmoves.keyOf_eq]
  exact hreplace

theorem tasksOf_snoc (htickets : s'.lock.tickets = s.lock.tickets ++ [k])
    (hphase : s'.phase = s.phase) (hnew : p (s.phase s.lock.tickets.length) = false)
    (key : String) : s'.tasksOf key p = s.tasksOf key p := by
  have hlength : s'.lock.tickets.length = s.lock.tickets.length + 1 := by
    rw [htickets, List.length_append, List.length_singleton]
  rw [tasksOf, tasksOf, hlength, hphase]
  congr 1
  ext u
  simp only [Finset.mem_filter, Finset.mem_range, Bool.and_eq_true, decide_eq_true_eq]
  constructor
  · intro ⟨hlt, hkey, hp⟩
    have hne : u ≠ s.lock.tickets.length := fun heq => by
      rw [heq, hnew] at hp
      cases hp
    have hu : u < s.lock.tickets.length := by omega
    exact ⟨hu, KeyLock.keyOf_snoc htickets hu ▸ hkey, hp⟩
  · intro ⟨hu, hkey, hp⟩
    exact ⟨by omega, (KeyLock.keyOf_snoc htickets hu).trans hkey, hp⟩

end Counting
/-- No task is credited to a window beyond the entry's, and the entry counts those of its own;
without an entry every window has closed. -/
def Accounts (spent : ℚ → ℕ) (nowSec : ℤ) : Option RateLimitState → Prop
  | none => ∀ reset, 0 < spent reset → reset ≤ nowSec
  | some w => (∀ reset, 0 < spent reset → reset ≤ w.resetUnixSeconds) ∧
      spent w.resetUnixSeconds ≤ w.count

/-- What a task has in hand: a read that will not be of too old an entry, an entry that counts
its window, or a decision that leaves room for one more. -/
def Backed (r : RateLimiter) (spent : ℚ → ℕ) (stored : Option RateLimitState) : TaskPhase → Prop
  | .reading nowSec none => Accounts spent nowSec stored
  | .reading nowSec (some seen) => Accounts spent nowSec seen
  | .writing d false => (∀ reset, 0 < spent reset → reset ≤ d.resetUnixSeconds) ∧
      spent d.resetUnixSeconds < d.count ∧ d.count ≤ r.limit
  | _ => True

section Entries
variable {r : RateLimiter} {spent spent' : ℚ → ℕ} {nowSec last : ℤ}
  {stored : Option RateLimitState} {phase : TaskPhase}

theorem Accounts.mono (h : Accounts spent nowSec stored)
    (hle : ∀ reset, spent' reset ≤ spent reset) :
    Accounts spent' nowSec stored := by
  cases stored with
  | none => exact fun reset hpos => h reset (hpos.trans_le (hle reset))
  | some w => exact ⟨fun reset hpos => h.1 reset (hpos.trans_le (hle reset)), (hle _).trans h.2⟩

theorem Accounts.later (h : Accounts spent last stored) (hle : last ≤ nowSec) :
    Accounts spent nowSec stored := by
  cases stored with
  | none => exact fun reset hpos => (h reset hpos).trans (by exact_mod_cast hle)
  | some w => exact h

theorem Accounts.forget {w : RateLimitState} (h : Accounts spent last (some w))
    (hclosed : w.ClosedBy nowSec) : Accounts spent nowSec none :=
  fun reset hpos => (h.1 reset hpos).trans hclosed

theorem Backed.mono (h : Backed r spent stored phase) (hle : ∀ reset, spent' reset ≤ spent reset) :
    Backed r spent' stored phase := by
  match phase, h with
  | .reading nowSec none, h => exact Accounts.mono h hle
  | .reading nowSec (some seen), h => exact Accounts.mono h hle
  | .writing d false, h =>
    exact ⟨fun reset hpos => h.1 reset (hpos.trans_le (hle reset)),
      (hle _).trans_lt h.2.1, h.2.2⟩
  | .writing d true, _ => trivial
  | .waiting, _ => trivial
  | .decided d, _ => trivial
  | .abandoned, _ => trivial
  | .storeFailed, _ => trivial

theorem backed_of_inactive (h : phase.isActive = false) : Backed r spent stored phase := by
  cases phase <;> trivial

theorem Accounts.decide (h : Accounts spent nowSec stored)
    (hopens : (∀ w, stored = some w → w.ClosedBy nowSec) → nowSec < r.windowEnd nowSec)
    (hallowed : (r.decide nowSec stored).allowed = true) :
    Backed r spent stored (.writing (r.decide nowSec stored) false) := by
  have hopened : (∀ reset, 0 < spent reset → reset ≤ nowSec) → nowSec < r.windowEnd nowSec →
      Backed r spent stored (.writing ⟨true, 1, r.windowEnd nowSec⟩ false) := by
    intro hclosed hend
    refine ⟨fun reset hpos => (hclosed reset hpos).trans hend.le, ?_, r.limit_pos⟩
    refine Nat.lt_one_iff.mpr (Nat.eq_zero_of_not_pos fun hpos => ?_)
    exact absurd (hclosed _ hpos) (not_le.mpr hend)
  cases stored with
  | none => exact hopened h (hopens fun w hw => by cases hw)
  | some w =>
    by_cases hclosed : w.ClosedBy nowSec
    · rw [r.decide_closed hclosed]
      exact hopened (h.forget hclosed) (hopens fun v hv => by cases hv; exact hclosed)
    · have hopen := not_le.mp hclosed
      rcases Nat.lt_or_ge w.count r.limit with hroom | hfull
      · rw [r.decide_open hopen hroom]
        exact ⟨h.1, Nat.lt_succ_of_le h.2, hroom⟩
      · rw [r.decide_full hopen hfull] at hallowed
        cases hallowed

end Entries

structure Budget (r : RateLimiter) (s : LimiterState) : Prop where
  limited : ∀ key reset, s.credited key reset ≤ r.limit
  stored : ∀ key, Accounts (s.credited key) (secondsOf s.clockMs) (s.store key)
  backed : ∀ t key, s.lock.keyOf t = some key →
    Backed r (s.credited key) (s.store key) (s.phase t)

/-- A window that is opened ends after the second it is opened in, and the store forgets no
window that a task with its read under way still counts as open. -/
def KeepsWindows (r : RateLimiter) (s : LimiterState) : LimiterEvent → Prop
  | .task t .readResolves => ∀ nowSec seen, s.phase t = .reading nowSec (some seen) →
      (∀ w, seen = some w → w.ClosedBy nowSec) → nowSec < r.windowEnd nowSec
  | .forget key => ∀ w, s.store key = some w → ∀ t nowSec, s.lock.keyOf t = some key →
      s.phase t = .reading nowSec none → w.ClosedBy nowSec
  | _ => True

section Budget
variable {r : RateLimiter} {s s' : LimiterState}

theorem Budget.weaken (h : s.Budget r) (hstore : s'.store = s.store)
    (hclock : s'.clockMs = s.clockMs)
    (hle : ∀ key reset, s'.credited key reset ≤ s.credited key reset)
    (hbacked : ∀ t key, s'.lock.keyOf t = some key →
      Backed r (s.credited key) (s.store key) (s'.phase t)) : s'.Budget r := by
  refine ⟨fun key reset => (hle key reset).trans (h.limited key reset), fun key => ?_,
    fun t key ht => ?_⟩
  · rw [hstore, hclock]
    exact (h.stored key).mono (hle key)
  · rw [hstore]
    exact (hbacked t key ht).mono (hle key)

theorem Budget.moved (h : s.Budget r) {t : ℕ} {k : Ticket} {stage : TicketStage}
    (hmoves : s.lock.Moves s'.lock t k stage) (hother : ∀ u, u ≠ t → s'.phase u = s.phase u)
    (hstore : s'.store = s.store) (hclock : s'.clockMs = s.clockMs)
    (hle : ∀ reset, (s'.phase t).credits reset = true → (s.phase t).credits reset = true)
    (hbacked : Backed r (s.credited k.key) (s.store k.key) (s'.phase t)) : s'.Budget r := by
  refine h.weaken hstore hclock (fun key reset => ?_) fun u key hu => ?_
  · have hcount := tasksOf_moved (p := TaskPhase.credits reset) hmoves hother key
    have hterm : (decide (k.key = key) && (s'.phase t).credits reset).toNat ≤
        (decide (k.key = key) && (s.phase t).credits reset).toNat := by
      refine Bool.toNat_le_toNat fun hboth => ?_
      rw [Bool.and_eq_true] at hboth ⊢
      exact ⟨hboth.1, hle reset hboth.2⟩
    rw [credited, credited]
    omega
  · rw [hmoves.keyOf_eq] at hu
    by_cases hut : u = t
    · subst hut
      rw [KeyLock.keyOf_of_lookup hmoves.ticket] at hu
      cases hu
      exact hbacked
    · rw [hother u hut]
      exact h.backed u key hu

theorem Budget.persists (h : s.Budget r) (hinv : s.Inv) {t : ℕ} {k : Ticket}
    {d : RateLimitDecision} (hk : s.lock.tickets[t]? = some k)
    (hphase : s.phase t = .writing d false) (hlock : s'.lock = s.lock)
    (hphase' : s'.phase = Function.update s.phase t (.writing d true))
    (hstore : s'.store = Function.update s.store k.key (some d.state))
    (hclock : s'.clockMs = s.clockMs) : s'.Budget r := by
  have hkey := KeyLock.keyOf_of_lookup hk
  have hmoves : s.lock.Moves s'.lock t k k.stage := by
    rw [hlock]
    exact .refl hk
  have hcount := fun key reset => tasksOf_moved (p := TaskPhase.credits reset) hmoves
    (fun u hu => by rw [hphase', Function.update_of_ne hu]) key
  simp only [hphase, hphase', Function.update_self, TaskPhase.credits, Bool.and_false,
    Bool.toNat_false, Nat.add_zero] at hcount
  have hsame : ∀ key, key ≠ k.key → s'.credited key = s.credited key := by
    intro key hne
    funext reset
    have hterm := hcount key reset
    rw [decide_eq_false (Ne.symm hne)] at hterm
    exact hterm
  have hself : ∀ reset, s'.credited k.key reset =
      s.credited k.key reset + if reset = d.resetUnixSeconds then 1 else 0 := by
    intro reset
    have hterm := hcount k.key reset
    simp only [decide_true, Bool.true_and, eq_comm (a := d.resetUnixSeconds)] at hterm
    refine hterm.trans ?_
    split <;> simp_all [credited]
  have hbacked := h.backed t k.key hkey
  rw [hphase] at hbacked
  obtain ⟨hlast, hroom, hlimit⟩ := hbacked
  have hactive' : (s.phase t).isActive = true := by
    rw [hphase]
    rfl
  refine ⟨fun key reset => ?_, fun key => ?_, fun u key hu => ?_⟩
  · by_cases hkey' : key = k.key
    · rw [hkey', hself]
      split
      · rename_i heq
        rw [heq]
        omega
      · exact h.limited k.key reset
    · rw [hsame key hkey']
      exact h.limited key reset
  · rw [hclock, hstore, Function.update_apply]
    split
    · rename_i hkey'
      rw [hkey']
      refine ⟨fun reset hpos => ?_, ?_⟩
      · rw [hself] at hpos
        split at hpos
        · rename_i heq
          exact heq.le
        · exact hlast reset hpos
      · show s'.credited k.key d.resetUnixSeconds ≤ d.count
        rw [hself, if_pos rfl]
        exact hroom
    · rename_i hkey'
      rw [hsame key hkey']
      exact h.stored key
  · rw [hlock] at hu
    by_cases hut : u = t
    · rw [hut, hphase', Function.update_self]
      trivial
    · rw [hphase', Function.update_of_ne hut, hstore]
      by_cases hkey' : key = k.key
      · exact backed_of_inactive (Bool.eq_false_of_not_eq_true fun hactive =>
          hut (hinv.active_unique hactive hactive' (hu.trans (hkey' ▸ hkey.symm))))
      · rw [hsame key hkey', Function.update_of_ne hkey']
        exact h.backed u key hu

theorem Budget.advanced (h : s.Budget r) (hinv : s.Inv) {t : ℕ} {e : TaskEvent} {k : Ticket}
    {phase : TaskPhase} {stored : Option RateLimitState} (hk : s.lock.tickets[t]? = some k)
    (hadvance : taskStep r (s.store k.key) e (s.phase t) = some (phase, stored))
    (hkeeps : KeepsWindows r s (.task t e)) : Budget r { s with
      phase := Function.update s.phase t phase
      store := Function.update s.store k.key stored
      calls := s.calls ++ issued t e phase } := by
  have hbacked := h.backed t k.key (KeyLock.keyOf_of_lookup hk)
  have hgoes : ∀ phase, (∀ reset, phase.credits reset = true → (s.phase t).credits reset = true) →
      Backed r (s.credited k.key) (s.store k.key) phase → Budget r { s with
        phase := Function.update s.phase t phase
        store := Function.update s.store k.key (s.store k.key)
        calls := s.calls ++ issued t e phase } := by
    intro phase hle hphase
    refine h.moved (.refl hk) (fun u hu => Function.update_of_ne hu _ _)
      (Function.update_eq_self _ _) rfl (fun reset hcredits => ?_) ?_
    · exact hle reset (by simpa using hcredits)
    · simpa using hphase
  generalize hphase : s.phase t = before at hadvance hbacked hgoes
  unfold taskStep at hadvance
  split at hadvance <;> cases hadvance
  case h_1 nowSec => exact hgoes _ (fun _ hcredits => by cases hcredits) hbacked
  case h_2 nowSec seen =>
    refine hgoes _ (fun reset hcredits => ?_) ?_
    · split at hcredits
      · cases hcredits
      · simp_all [TaskPhase.credits]
    · split
      · exact Accounts.decide hbacked (hkeeps nowSec seen hphase) ‹_›
      · trivial
  case h_3 => exact hgoes _ (fun _ hcredits => by cases hcredits) trivial
  case h_4 d => exact h.persists hinv hk hphase rfl rfl rfl rfl
  case h_5 d =>
    refine hgoes _ (fun reset hcredits => ?_) trivial
    simp only [TaskPhase.credits, Bool.and_eq_true] at hcredits
    exact hcredits.2
  case h_6 => exact hgoes _ (fun _ hcredits => by cases hcredits) trivial

theorem Budget.step {e : LimiterEvent} (h : s.Budget r) (hinv : s.Inv)
    (hkeeps : KeepsWindows r s e) (hstep : Stepped r s e s') : s'.Budget r := by
  cases hstep with
  | accepted hcall =>
    obtain ⟨k, _, _, htickets⟩ := KeyLock.withKeyLock_tickets hcall
    have hwaiting : s.phase s.lock.tickets.length = .waiting :=
      hinv.phased.unborn (List.getElem?_eq_none le_rfl)
    refine h.weaken rfl rfl (fun key reset => ?_) fun u key hu => ?_
    · rw [credited, credited]
      refine le_of_eq (tasksOf_snoc htickets (by rfl) ?_ key)
      rw [hwaiting]
      rfl
    · rcases Nat.lt_trichotomy u s.lock.tickets.length with hlt | rfl | hlt
      · exact h.backed u key (KeyLock.keyOf_snoc htickets hlt ▸ hu)
      · exact backed_of_inactive (by rw [hwaiting]; rfl)
      · exact backed_of_inactive (by
          rw [hinv.phased.unborn (List.getElem?_eq_none hlt.le)]
          rfl)
  | dropped hstart =>
    obtain ⟨k, hmoves, _⟩ := KeyLock.start_moves hstart
    refine h.moved hmoves (fun u hu => Function.update_of_ne hu _ _) rfl rfl ?_ ?_
    all_goals simp [TaskPhase.credits, Backed]
  | started hstart =>
    obtain ⟨k, hmoves, _⟩ := KeyLock.start_moves hstart
    refine h.moved hmoves (fun u hu => Function.update_of_ne hu _ _) rfl rfl ?_ ?_
    · simp [TaskPhase.credits]
    · simpa [Backed] using h.stored k.key
  | advanced hk hadvance => exact h.advanced hinv hk hadvance hkeeps
  | finished _ hlock =>
    obtain ⟨k, hmoves, _⟩ := KeyLock.finish_moves hlock
    exact h.moved hmoves (fun _ _ => rfl) rfl rfl (fun _ => id)
      (h.backed _ _ (KeyLock.keyOf_of_lookup hmoves.ticket))
  | settled hlock =>
    obtain ⟨k, hmoves, _⟩ := KeyLock.settle_moves hlock
    exact h.moved hmoves (fun _ _ => rfl) rfl rfl (fun _ => id)
      (h.backed _ _ (KeyLock.keyOf_of_lookup hmoves.ticket))
  | released hlock =>
    obtain ⟨k, hmoves, _⟩ := KeyLock.release_moves hlock
    exact h.moved hmoves (fun _ _ => rfl) rfl rfl (fun _ => id)
      (h.backed _ _ (KeyLock.keyOf_of_lookup hmoves.ticket))
  | clock hle =>
    exact ⟨h.limited, fun key => (h.stored key).later (secondsOf_mono hle), h.backed⟩
  | @forgotten key w hw hclosed =>
    have hstored : ∀ {key'}, key' ≠ key → Function.update s.store key none key' = s.store key' :=
      fun hne => Function.update_of_ne hne _ _
    have hentry := hw ▸ h.stored key
    refine ⟨h.limited, fun key' => ?_, fun t key' ht => ?_⟩
    · by_cases hkey' : key' = key
      · subst hkey'
        show Accounts (s.credited key') _ (Function.update s.store key' none key')
        rw [Function.update_self]
        exact hentry.forget hclosed
      · show Accounts (s.credited key') _ (Function.update s.store key none key')
        rw [hstored hkey']
        exact h.stored key'
    · by_cases hkey' : key' = key
      · subst hkey'
        show Backed r (s.credited key') (Function.update s.store key' none key') (s.phase t)
        rw [Function.update_self]
        have hbacked := h.backed t key' ht
        match hphase : s.phase t, hbacked with
        | .reading nowSec none, _ => exact hentry.forget (hkeeps w hw t nowSec ht hphase)
        | .reading nowSec (some seen), hbacked => exact hbacked
        | .writing d false, hbacked => exact hbacked
        | .writing d true, _ => trivial
        | .waiting, _ => trivial
        | .decided d, _ => trivial
        | .abandoned, _ => trivial
        | .storeFailed, _ => trivial
      · show Backed r (s.credited key') (Function.update s.store key none key') (s.phase t)
        rw [hstored hkey']
        exact h.backed t key' ht
  | turnedAway | aborted => exact h.weaken rfl rfl (fun _ _ => le_rfl) h.backed

theorem idle_budget (r : RateLimiter) (store : String → Option RateLimitState) (clockMs : ℤ) :
    (idle store clockMs).Budget r where
  limited := fun _ _ => Nat.zero_le _
  stored := fun key => by
    show Accounts (fun _ => 0) _ (store key)
    cases store key with
    | none => exact fun _ hpos => absurd hpos (Nat.lt_irrefl 0)
    | some w => exact ⟨fun _ hpos => absurd hpos (Nat.lt_irrefl 0), Nat.zero_le _⟩
  backed := fun _ _ h => by cases h

end Budget

structure Serialised (r : RateLimiter) (s : LimiterState) : Prop where
  exclusive : ∀ {t u : ℕ} {k j : Ticket}, s.lock.tickets[t]? = some k →
    s.lock.tickets[u]? = some j → k.key = j.key → k.stage.atWork = true →
    j.stage.atWork = true → t = u
  started : ∀ t, t ∈ s.starts.map Prod.fst ↔ HasStarted s.lock t
  once : (s.starts.map Prod.fst).Nodup
  arrivals : (s.starts.map Prod.fst).Pairwise fun u t => s.lock.keyOf u = s.lock.keyOf t → u < t
  waits : ∀ {u t : ℕ} {j k : Ticket}, KeyLock.Earlier s.lock.tickets u t j k →
    k.stage ≠ .queued → j.stage.isSettled = true
  dropped : ∀ t, (t, true) ∈ s.starts → ∀ call, (t, call) ∉ s.calls
  goesOn : ∀ {t : ℕ} {k : Ticket}, s.lock.tickets[t]? = some k → k.stage ≠ .released →
    ∃ e u, e.task? = some u ∧ s.lock.keyOf u = some k.key ∧ (s.step r e).isSome
  drains : ∀ {events : List LimiterEvent} {s' : LimiterState},
    Machine.Run (step r) (fun _ e => e.task?.isSome) s events s' → events.length ≤ s.work ∧
      ((∀ e, e.task?.isSome → s'.step r e = none) → ∀ (t : ℕ) k, s'.lock.tickets[t]? = some k →
        k.stage = .released ∧ t ∈ s'.starts.map Prod.fst)
  backlog : ∀ key, KeyLock.pendingIn s.lock.tickets key ≤ MAX_PENDING_PER_KEY
  turnsAway : ∀ key, KeyLock.pendingIn s.lock.tickets key = MAX_PENDING_PER_KEY →
    s.step r (.arrive key) = some { s with turnedAway := s.turnedAway ++ [backlogExceeded] }
  accepts : ∀ key, KeyLock.pendingIn s.lock.tickets key < MAX_PENDING_PER_KEY →
    ∃ lock, s.step r (.arrive key) = some { s with lock } ∧ ∃ k : Ticket, k.key = key ∧
      k.stage = .queued ∧ lock.tickets = s.lock.tickets ++ [k]
  entries : ∀ key, (s.lock.chains key).isSome ↔ 0 < KeyLock.pendingIn s.lock.tickets key

section Serialised
variable {r : RateLimiter} {s s' : LimiterState} {events : List LimiterEvent}

theorem Recorded.once (h : s.Recorded) : (s.starts.map Prod.fst).Nodup := by
  refine h.order.imp ?_
  intro u t hlt heq
  subst heq
  exact Nat.lt_irrefl u (hlt rfl)

theorem Recorded.dropped (h : s.Recorded) {t : ℕ} (ht : (t, true) ∈ s.starts)
    (call : StoreCall) : (t, call) ∉ s.calls := fun hcall =>
  Bool.noConfusion (congrArg Prod.snd
    (List.inj_on_of_nodup_map h.once ht (h.calls t call hcall) rfl))

theorem Inv.drains (h : s.Inv)
    (hrun : Machine.Run (LimiterState.step r) (fun _ e => e.task?.isSome) s events s') :
    events.length ≤ s.work ∧ ((∀ e, e.task?.isSome → s'.step r e = none) →
      ∀ (t : ℕ) k, s'.lock.tickets[t]? = some k →
        k.stage = .released ∧ t ∈ s'.starts.map Prod.fst) := by
  have hinv := h.run hrun
  refine ⟨?_, fun hstuck t k hk => ?_⟩
  · have hbound := hrun.length_le h (fun hinv _ hstep => hinv.step (step_cases hstep))
      fun hinv htask hstep => work_step hinv (Option.get_mem htask) (step_cases hstep)
    omega
  · have hreleased : k.stage = .released := by
      by_contra hpending
      obtain ⟨e, u, htask, _, henabled⟩ := enabled_of_pending r hinv hk hpending
      rw [hstuck e (Option.isSome_iff_exists.mpr ⟨u, htask⟩)] at henabled
      cases henabled
    exact ⟨hreleased, (hinv.recorded.started t).mpr ⟨k, hk, by simp [hreleased]⟩⟩

theorem Inv.serialised (r : RateLimiter) (h : s.Inv) : s.Serialised r where
  exclusive := h.lock.exclusive
  started := h.recorded.started
  once := h.recorded.once
  arrivals := h.recorded.order
  waits := h.lock.ordered.order
  dropped := fun _ => h.recorded.dropped
  goesOn := enabled_of_pending r h
  drains := h.drains
  backlog := h.lock.counted.bound
  turnsAway := fun key hfull => by
    have hnone := (KeyLock.withKeyLock_eq_none h.lock.counted key).mpr hfull.ge
    rw [LimiterState.step, hnone]
  accepts := fun key hroom => by
    cases hcall : s.lock.withKeyLock key with
    | none =>
      have hfull := (KeyLock.withKeyLock_eq_none h.lock.counted key).mp hcall
      omega
    | some lock =>
      refine ⟨lock, ?_, KeyLock.withKeyLock_tickets hcall⟩
      rw [LimiterState.step, hcall]
  entries := h.lock.entry_iff

end Serialised

/-- In every run the fallback serialises the tasks of a key, and in every run whose steps keep
their windows no window admits more than the limit. -/
theorem fallback_serialises (r : RateLimiter) (store : String → Option RateLimitState)
    (clockMs : ℤ) (events : List LimiterEvent) (s : LimiterState)
    (hrun : Machine.Run (step r) (fun _ _ => True) (idle store clockMs) events s) :
    s.Serialised r ∧
    (Machine.Run (step r) (KeepsWindows r) (idle store clockMs) events s →
      ∀ key reset, s.admitted key reset ≤ r.limit) := by
  refine ⟨((idle_inv store clockMs).run hrun).serialised r, fun hkeeps key reset => ?_⟩
  have hbudget : s.Inv ∧ s.Budget r :=
    hkeeps.invariant (I := fun s => s.Inv ∧ s.Budget r)
      ⟨idle_inv store clockMs, idle_budget r store clockMs⟩
      fun ⟨hinv, hbudget⟩ hkept hstep =>
        ⟨hinv.step (step_cases hstep), hbudget.step hinv hkept (step_cases hstep)⟩
  exact (s.admitted_le_credited key reset).trans (hbudget.2.limited key reset)

end LimiterState

namespace Sample
open LimiterState

def admission (t : ℕ) : List LimiterEvent :=
  [.task t .storeReads, .task t .readResolves, .task t .persists, .task t .writeResolves]

def oneCall : List LimiterEvent :=
  [.arrive "k", .start 0] ++ admission 0 ++ [.finish 0, .settle 0, .release 0]

/-- The second call arrives before the first has started, and waits for it to settle. -/
def overlapping : List LimiterEvent :=
  [.arrive "k", .arrive "k", .start 0] ++ admission 0 ++ [.finish 0, .settle 0, .start 1,
    .release 0, .task 1 .storeReads, .task 1 .readResolves, .finish 1, .settle 1, .release 1]

/-- Nothing is forgotten, and a window ends after it opens. -/
def keepsWindows (s : LimiterState) : LimiterEvent → Bool
  | .task t .readResolves =>
    match s.phase t with
    | .reading nowSec (some _) => decide (nowSec < oneASecond.windowEnd nowSec)
    | _ => true
  | .forget _ => false
  | _ => true

/-- The clock ticks between the clock read of the second task and the read of the store. -/
def twoCalls : List LimiterEvent :=
  oneCall ++ [.clock 10999, .arrive "k", .start 1, .clock 11000, .forget "k"] ++ admission 1

end Sample

namespace LimiterState

theorem keepsWindows_sound {s : LimiterState} {e : LimiterEvent}
    (h : Sample.keepsWindows s e = true) : KeepsWindows Sample.oneASecond s e := by
  cases e with
  | task t e =>
    cases e with
    | readResolves =>
      intro nowSec seen hphase _
      rw [Sample.keepsWindows, hphase] at h
      exact of_decide_eq_true h
    | storeReads | readRejects | persists | writeResolves | writeRejects => trivial
  | forget key => cases h
  | arrive | start | finish | settle | release | abort | clock => trivial

/-- Two calls of one key that overlap, of which the second is denied. -/
theorem fallback_serialises_two : ∃ s : LimiterState,
    s.calls = [(0, .read), (0, .write), (1, .read)] ∧
      (∃ d, s.phase 1 = .decided d ∧ d.allowed = false) ∧ s.Serialised Sample.oneASecond ∧
      s.admitted "k" 11 = 1 ∧ ∀ key reset, s.admitted key reset ≤ Sample.oneASecond.limit := by
  have hreplay : (Machine.replay (fun s e =>
        if Sample.keepsWindows s e = true then step Sample.oneASecond s e else none)
      (idle (fun _ => none) 10000) Sample.overlapping).map
        (fun s => (s.calls, s.phase 1, s.admitted "k" 11)) =
      some ([(0, .read), (0, .write), (1, .read)], .decided ⟨false, 1, 11⟩, 1) := by
    decide +kernel
  obtain ⟨s, hs, hends⟩ := Option.map_eq_some_iff.mp hreplay
  simp only [Prod.mk.injEq] at hends
  obtain ⟨hcalls, hdenied, hadmitted⟩ := hends
  have hkeeps : Machine.Run (step Sample.oneASecond) (KeepsWindows Sample.oneASecond)
      (idle (fun _ => none) 10000) Sample.overlapping s := by
    refine Machine.run_of_replay hs fun hstep => ?_
    split at hstep
    · exact ⟨keepsWindows_sound ‹_›, hstep⟩
    · cases hstep
  obtain ⟨hserialised, hlimited⟩ := fallback_serialises Sample.oneASecond (fun _ => none) 10000
    Sample.overlapping s (hkeeps.mono fun _ _ _ => trivial)
  exact ⟨s, hcalls, ⟨_, hdenied, rfl⟩, hserialised, hadmitted, hlimited hkeeps⟩

/-- A store that forgets a closed window lets the fallback admit one call too many. -/
theorem fallback_over_admits : ∃ events, ∃ s : LimiterState, Machine.Run (step Sample.oneASecond)
    (fun _ _ => True) (idle (fun _ => none) 10000) events s ∧
    Sample.oneASecond.limit < s.admitted "k" 11 := by
  have hreplay : (Machine.replay (step Sample.oneASecond) (idle (fun _ => none) 10000)
      Sample.twoCalls).map (fun s => s.admitted "k" 11) = some 2 := by decide +kernel
  obtain ⟨s, hs, hadmitted⟩ := Option.map_eq_some_iff.mp hreplay
  refine ⟨Sample.twoCalls, s, Machine.run_of_replay hs fun hstep => ⟨trivial, hstep⟩, ?_⟩
  rw [hadmitted]
  decide

end LimiterState
end Guardian
