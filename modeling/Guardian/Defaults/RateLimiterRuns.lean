import Guardian.Defaults.KeyLock
import Guardian.Defaults.RateLimiter
import Guardian.Lib.Machine

/-!
# The read/write fallback of the rate limiter

Any number of callers over a store of `read` and `write`. A call to the store takes effect
at some moment before it resolves, or rejects; a rejected write may have persisted. The
store may forget windows that have closed by the clock, as the bundled one does.
-/

namespace Guardian
open RateLimitState

inductive StoreCall where
  | read
  | write
  deriving DecidableEq, Repr

inductive TaskPhase where
  | waiting
  /-- The clock is read and the store asked; `seen` is what the store found. -/
  | reading (nowSec : ℤ) (seen : Option (Option RateLimitState))
  | writing (d : RateLimitDecision) (persisted : Bool)
  | decided (d : RateLimitDecision)
  | abandoned
  | storeFailed
  deriving DecidableEq, Repr

def TaskPhase.isOver : TaskPhase → Bool
  | .decided _ => true
  | .abandoned => true
  | .storeFailed => true
  | _ => false

def TaskPhase.isActive : TaskPhase → Bool
  | .reading _ _ => true
  | .writing _ _ => true
  | _ => false

theorem TaskPhase.isActive_of_isOver {phase : TaskPhase} (h : phase.isOver = true) :
    phase.isActive = false := by
  cases phase <;> first | rfl | cases h

structure LimiterState where
  lock : KeyLock
  phase : ℕ → TaskPhase
  aborted : ℕ → Bool
  store : String → Option RateLimitState
  clockMs : ℤ
  /-- The tasks started so far, and whether their signal was aborted then. -/
  starts : List (ℕ × Bool)
  calls : List (ℕ × StoreCall)
  turnedAway : List RateLimitFailure

inductive TaskEvent where
  | storeReads
  | readResolves
  | readRejects
  | persists
  | writeResolves
  | writeRejects
  deriving DecidableEq, Repr

inductive LimiterEvent where
  | arrive (key : String)
  | start (t : ℕ)
  | task (t : ℕ) (e : TaskEvent)
  | finish (t : ℕ)
  | settle (t : ℕ)
  | release (t : ℕ)
  | abort (t : ℕ)
  | clock (ms : ℤ)
  | forget (key : String)
  deriving DecidableEq, Repr

def backlogExceeded : RateLimitFailure :=
  .upstreamUnavailable (s!"Rate-limit store backlog exceeded {MAX_PENDING_PER_KEY} " ++
    "pending tasks for one key") 503

/-- Why a task is over without a decision of its own; a failed store call rejects as it did. -/
def TaskPhase.failure : TaskPhase → Option RateLimitFailure
  | .abandoned => some (.upstreamUnavailable
      "Rate-limit check abandoned before the per-key lock was acquired" 503)
  | _ => none

/-- The task an event is about, unless it comes from the callers or from the clock. -/
def LimiterEvent.task? : LimiterEvent → Option ℕ
  | .start t => some t
  | .task t _ => some t
  | .finish t => some t
  | .settle t => some t
  | .release t => some t
  | _ => none

namespace LimiterState
variable (r : RateLimiter)

def idle (store : String → Option RateLimitState) (clockMs : ℤ) : LimiterState :=
  ⟨.idle, fun _ => .waiting, fun _ => false, store, clockMs, [], [], []⟩

/-- `readModifyWrite` from its first await on; `stored` is the entry of the key. -/
def taskStep (stored : Option RateLimitState) :
    TaskEvent → TaskPhase → Option (TaskPhase × Option RateLimitState)
  | .storeReads, .reading nowSec none => some (.reading nowSec (some stored), stored)
  | .readResolves, .reading nowSec (some seen) =>
    let d := r.decide nowSec seen
    some (if d.allowed then .writing d false else .decided d, stored)
  | .readRejects, .reading _ _ => some (.storeFailed, stored)
  | .persists, .writing d false => some (.writing d true, some d.state)
  | .writeResolves, .writing d true => some (.decided d, stored)
  | .writeRejects, .writing _ _ => some (.storeFailed, stored)
  | _, _ => none

def issued (t : ℕ) : TaskEvent → TaskPhase → List (ℕ × StoreCall)
  | .readResolves, .writing _ _ => [(t, .write)]
  | _, _ => []

def begin (s : LimiterState) (lock : KeyLock) (t : ℕ) : LimiterState :=
  if s.aborted t then
    { s with
      lock
      phase := Function.update s.phase t .abandoned
      starts := s.starts ++ [(t, true)] }
  else { s with
    lock
    phase := Function.update s.phase t (.reading (secondsOf s.clockMs) none)
    starts := s.starts ++ [(t, false)]
    calls := s.calls ++ [(t, .read)] }

def step (s : LimiterState) : LimiterEvent → Option LimiterState
  | .arrive key =>
    match s.lock.withKeyLock key with
    | some lock => some { s with lock }
    | none => some { s with turnedAway := s.turnedAway ++ [backlogExceeded] }
  | .start t => (s.lock.start t).map fun lock => s.begin lock t
  | .task t e =>
    s.lock.tickets[t]?.bind fun k =>
      (taskStep r (s.store k.key) e (s.phase t)).map fun (phase, stored) => { s with
        phase := Function.update s.phase t phase
        store := Function.update s.store k.key stored
        calls := s.calls ++ issued t e phase }
  | .finish t =>
    if (s.phase t).isOver then (s.lock.finish t).map fun lock => { s with lock } else none
  | .settle t => (s.lock.settle t).map fun lock => { s with lock }
  | .release t => (s.lock.release t).map fun lock => { s with lock }
  | .abort t => some { s with aborted := Function.update s.aborted t true }
  | .clock ms => if s.clockMs ≤ ms then some { s with clockMs := ms } else none
  | .forget key =>
    match s.store key with
    | some w =>
      if w.ClosedBy (secondsOf s.clockMs) then
        some { s with store := Function.update s.store key none } else none
    | none => none

inductive Stepped (s : LimiterState) : LimiterEvent → LimiterState → Prop where
  | accepted {key : String} {lock : KeyLock} (h : s.lock.withKeyLock key = some lock) :
      Stepped s (.arrive key) { s with lock }
  | turnedAway {key : String} (h : s.lock.withKeyLock key = none) :
      Stepped s (.arrive key) { s with turnedAway := s.turnedAway ++ [backlogExceeded] }
  | dropped {t : ℕ} {lock : KeyLock} (h : s.lock.start t = some lock)
      (haborted : s.aborted t = true) : Stepped s (.start t) { s with
        lock, phase := Function.update s.phase t .abandoned, starts := s.starts ++ [(t, true)] }
  | started {t : ℕ} {lock : KeyLock} (h : s.lock.start t = some lock)
      (haborted : s.aborted t = false) : Stepped s (.start t) { s with
        lock
        phase := Function.update s.phase t (.reading (secondsOf s.clockMs) none)
        starts := s.starts ++ [(t, false)]
        calls := s.calls ++ [(t, .read)] }
  | advanced {t : ℕ} {e : TaskEvent} {k : Ticket} {phase : TaskPhase}
      {stored : Option RateLimitState} (hk : s.lock.tickets[t]? = some k)
      (h : taskStep r (s.store k.key) e (s.phase t) = some (phase, stored)) :
      Stepped s (.task t e) { s with
        phase := Function.update s.phase t phase
        store := Function.update s.store k.key stored
        calls := s.calls ++ issued t e phase }
  | finished {t : ℕ} {lock : KeyLock} (hover : (s.phase t).isOver = true)
      (h : s.lock.finish t = some lock) : Stepped s (.finish t) { s with lock }
  | settled {t : ℕ} {lock : KeyLock} (h : s.lock.settle t = some lock) :
      Stepped s (.settle t) { s with lock }
  | released {t : ℕ} {lock : KeyLock} (h : s.lock.release t = some lock) :
      Stepped s (.release t) { s with lock }
  | aborted {t : ℕ} : Stepped s (.abort t) { s with aborted := Function.update s.aborted t true }
  | clock {ms : ℤ} (hle : s.clockMs ≤ ms) : Stepped s (.clock ms) { s with clockMs := ms }
  | forgotten {key : String} {w : RateLimitState} (hw : s.store key = some w)
      (hclosed : w.ClosedBy (secondsOf s.clockMs)) :
      Stepped s (.forget key) { s with store := Function.update s.store key none }

theorem step_cases {r : RateLimiter} {s s' : LimiterState} {e : LimiterEvent}
    (h : s.step r e = some s') : Stepped r s e s' := by
  cases e with
  | arrive key =>
    rw [step] at h
    split at h
    · cases h
      exact .accepted ‹_›
    · cases h
      exact .turnedAway ‹_›
  | start t =>
    obtain ⟨lock, hlock, rfl⟩ := Option.map_eq_some_iff.mp h
    unfold begin
    split
    · exact .dropped hlock ‹_›
    · exact .started hlock (Bool.eq_false_of_not_eq_true ‹_›)
  | task t e =>
    obtain ⟨k, hk, h⟩ := Option.bind_eq_some_iff.mp h
    obtain ⟨⟨phase, stored⟩, hstep, rfl⟩ := Option.map_eq_some_iff.mp h
    exact .advanced hk hstep
  | finish t =>
    rw [step] at h
    split at h
    · obtain ⟨lock, hlock, rfl⟩ := Option.map_eq_some_iff.mp h
      exact .finished ‹_› hlock
    · cases h
  | settle t =>
    obtain ⟨lock, hlock, rfl⟩ := Option.map_eq_some_iff.mp h
    exact .settled hlock
  | release t =>
    obtain ⟨lock, hlock, rfl⟩ := Option.map_eq_some_iff.mp h
    exact .released hlock
  | abort t =>
    cases h
    exact .aborted
  | clock ms =>
    rw [step] at h
    split at h
    · cases h
      exact .clock ‹_›
    · cases h
  | forget key =>
    rw [step] at h
    split at h
    · split at h
      · cases h
        exact .forgotten ‹_› ‹_›
      · cases h
    · cases h

theorem taskStep_active {r : RateLimiter} {stored stored' : Option RateLimitState} {e : TaskEvent}
    {phase phase' : TaskPhase} (h : taskStep r stored e phase = some (phase', stored')) :
    phase.isActive = true ∧ phase' ≠ .waiting := by
  unfold taskStep at h
  split at h <;> cases h
  case h_2 => exact ⟨rfl, by split <;> simp⟩
  all_goals exact ⟨rfl, by simp⟩

/-- A task waits while it is queued, and is over when its ticket has finished. -/
def Fits (phase : TaskPhase) : TicketStage → Prop
  | .queued => phase = .waiting
  | .running => phase ≠ .waiting
  | _ => phase.isOver = true

structure Phased (lock : KeyLock) (phase : ℕ → TaskPhase) : Prop where
  fits : ∀ {t : ℕ} {k : Ticket}, lock.tickets[t]? = some k → Fits (phase t) k.stage
  unborn : ∀ {t}, lock.tickets[t]? = none → phase t = .waiting

section Phased
variable {lock lock' : KeyLock} {phase phase' : ℕ → TaskPhase} {t : ℕ} {k : Ticket}
  {stage : TicketStage}

theorem Phased.moved (h : Phased lock phase) (hmoves : lock.Moves lock' t k stage)
    (hother : ∀ u, u ≠ t → phase' u = phase u) (hfits : Fits (phase' t) stage) :
    Phased lock' phase' := by
  refine ⟨fun {u j} hj => ?_, fun {u} hj => ?_⟩
  all_goals rw [hmoves.lookup] at hj; split at hj
  · rename_i htu
    subst htu
    cases hj
    exact hfits
  · rename_i htu
    rw [hother u (Ne.symm htu)]
    exact h.fits hj
  · cases hj
  · rename_i htu
    rw [hother u (Ne.symm htu)]
    exact h.unborn hj

theorem Phased.running (h : Phased lock phase) (hk : lock.tickets[t]? = some k)
    (hactive : (phase t).isActive = true) : k.stage = .running := by
  have hfits := h.fits hk
  have hunfinished : (phase t).isOver ≠ true := fun hover => by
    rw [TaskPhase.isActive_of_isOver hover] at hactive
    cases hactive
  cases hstage : k.stage with
  | running => rfl
  | queued =>
    rw [hstage] at hfits
    rw [show phase t = .waiting from hfits] at hactive
    cases hactive
  | finished | settled | released =>
    rw [hstage] at hfits
    exact absurd hfits hunfinished

theorem Phased.born (h : Phased lock phase) (hactive : (phase t).isActive = true) :
    ∃ k, lock.tickets[t]? = some k := by
  cases hk : lock.tickets[t]? with
  | none =>
    rw [h.unborn hk] at hactive
    cases hactive
  | some k => exact ⟨k, rfl⟩

theorem Phased.snoc (h : Phased lock phase) (hqueued : k.stage = .queued)
    (htickets : lock'.tickets = lock.tickets ++ [k]) : Phased lock' phase := by
  refine ⟨fun {u j} hj => ?_, fun {u} hj => ?_⟩
  · rw [htickets] at hj
    rcases KeyLock.lookup_snoc.mp hj with hold | ⟨rfl, rfl⟩
    · exact h.fits hold
    · rw [hqueued]
      exact h.unborn (List.getElem?_eq_none le_rfl)
  · refine h.unborn (List.getElem?_eq_none ?_)
    rw [htickets, List.getElem?_eq_none_iff, List.length_append] at hj
    omega

end Phased

theorem Phased.step {r : RateLimiter} {s s' : LimiterState} {e : LimiterEvent}
    (h : Phased s.lock s.phase) (hstep : Stepped r s e s') : Phased s'.lock s'.phase := by
  cases hstep with
  | accepted hlock =>
    obtain ⟨k, _, hqueued, htickets⟩ := KeyLock.withKeyLock_tickets hlock
    exact h.snoc hqueued htickets
  | dropped hlock =>
    obtain ⟨k, hmoves, _⟩ := KeyLock.start_moves hlock
    exact h.moved hmoves (fun u hu => Function.update_of_ne hu _ _) (by simp [Fits])
  | started hlock =>
    obtain ⟨k, hmoves, _⟩ := KeyLock.start_moves hlock
    exact h.moved hmoves (fun u hu => Function.update_of_ne hu _ _) (by simp [Fits])
  | advanced hk hadvance =>
    obtain ⟨hactive, hφ⟩ := taskStep_active hadvance
    refine h.moved (.refl hk) (fun u hu => Function.update_of_ne hu _ _) ?_
    rw [h.running hk hactive]
    simpa [Fits] using hφ
  | finished hover hlock =>
    obtain ⟨k, hmoves, _⟩ := KeyLock.finish_moves hlock
    exact h.moved hmoves (fun _ _ => rfl) hover
  | settled hlock =>
    obtain ⟨k, hmoves, hstage⟩ := KeyLock.settle_moves hlock
    have hfits := h.fits hmoves.ticket
    rw [hstage] at hfits
    exact h.moved hmoves (fun _ _ => rfl) hfits
  | released hlock =>
    obtain ⟨k, hmoves, hstage⟩ := KeyLock.release_moves hlock
    have hfits := h.fits hmoves.ticket
    rw [hstage] at hfits
    exact h.moved hmoves (fun _ _ => rfl) hfits
  | turnedAway | aborted | clock | forgotten => exact h

def HasStarted (lock : KeyLock) (t : ℕ) : Prop :=
  ∃ k, lock.tickets[t]? = some k ∧ k.stage ≠ .queued

/-- Tasks of one key start in the order of their calls, each once, and only a task that was
not aborted then talks to the store. -/
structure Recorded (s : LimiterState) : Prop where
  started : ∀ t, t ∈ s.starts.map Prod.fst ↔ HasStarted s.lock t
  order : (s.starts.map Prod.fst).Pairwise fun u t => s.lock.keyOf u = s.lock.keyOf t → u < t
  active : ∀ t, (s.phase t).isActive = true → (t, false) ∈ s.starts
  calls : ∀ t call, (t, call) ∈ s.calls → (t, false) ∈ s.starts

section Recorded
variable {s s' : LimiterState}

theorem Recorded.same (h : s.Recorded) (hstarts : s'.starts = s.starts)
    (hlock : ∀ t, HasStarted s'.lock t ↔ HasStarted s.lock t)
    (hkey : ∀ t, HasStarted s.lock t → s'.lock.keyOf t = s.lock.keyOf t)
    (hactive : ∀ t, (s'.phase t).isActive = true → (s.phase t).isActive = true)
    (hcalls : ∀ t call, (t, call) ∈ s'.calls →
      (t, call) ∈ s.calls ∨ (s.phase t).isActive = true) : s'.Recorded := by
  refine ⟨fun t => ?_, ?_, fun t ht => ?_, fun t call ht => ?_⟩
  · rw [hstarts, hlock]
    exact h.started t
  · rw [hstarts]
    refine h.order.imp_of_mem fun {u t} hu ht hlt heq => hlt ?_
    rw [← hkey u ((h.started u).mp hu), ← hkey t ((h.started t).mp ht)]
    exact heq
  · rw [hstarts]
    exact h.active t (hactive t ht)
  · rw [hstarts]
    exact (hcalls t call ht).elim (h.calls t call) (h.active t)

theorem hasStarted_moves {lock lock' : KeyLock} {t : ℕ} {k : Ticket} {stage : TicketStage}
    (h : lock.Moves lock' t k stage) (hstage : stage ≠ .queued) (u : ℕ) :
    HasStarted lock' u ↔ u = t ∨ HasStarted lock u := by
  unfold HasStarted
  rw [h.lookup]
  split
  · rename_i htu
    exact iff_of_true ⟨_, rfl, hstage⟩ (.inl htu.symm)
  · rename_i htu
    exact (or_iff_right (Ne.symm htu)).symm

theorem Recorded.start (h : s.Recorded) (hlock : s.lock.Inv) {t : ℕ} {k : Ticket} {b : Bool}
    (hmoves : s.lock.Moves s'.lock t k .running) (hqueued : k.stage = .queued)
    (hstarts : s'.starts = s.starts ++ [(t, b)])
    (hactive : ∀ u, (s'.phase u).isActive = true → (s.phase u).isActive = true ∨ u = t ∧ b = false)
    (hcalls : ∀ u call, (u, call) ∈ s'.calls → (u, call) ∈ s.calls ∨ u = t ∧ b = false) :
    s'.Recorded := by
  refine ⟨fun u => ?_, ?_, fun u hu => ?_, fun u call hu => ?_⟩
  · rw [hasStarted_moves hmoves TicketStage.noConfusion, hstarts, List.map_append, List.mem_append,
      h.started u]
    exact (or_comm).trans (or_congr (by simp) Iff.rfl)
  · rw [hstarts, List.map_append]
    simp only [hmoves.keyOf_eq]
    refine List.pairwise_append.mpr ⟨h.order, by simp, fun u hu v hv hkey => ?_⟩
    cases List.mem_singleton.mp hv
    obtain ⟨j, hj, hstarted⟩ := (h.started u).mp hu
    dsimp only at hkey
    rw [KeyLock.keyOf_of_lookup hj, KeyLock.keyOf_of_lookup hmoves.ticket] at hkey
    rcases Nat.lt_trichotomy u t with hlt | heq | hlt
    · exact hlt
    · subst heq
      cases hj.symm.trans hmoves.ticket
      exact absurd hqueued hstarted
    · have hsettled := hlock.ordered.order
        ⟨hmoves.ticket, hj, hlt, (Option.some.inj hkey).symm⟩ hstarted
      rw [hqueued] at hsettled
      cases hsettled
  · rw [hstarts]
    rcases hactive u hu with hold | ⟨rfl, rfl⟩
    · exact List.mem_append_left _ (h.active u hold)
    · exact List.mem_append_right _ (.head _)
  · rw [hstarts]
    rcases hcalls u call hu with hold | ⟨rfl, rfl⟩
    · exact List.mem_append_left _ (h.calls u call hold)
    · exact List.mem_append_right _ (.head _)

theorem Recorded.moved (h : s.Recorded) {t : ℕ} {k : Ticket} {stage : TicketStage} {lock : KeyLock}
    (hmoves : s.lock.Moves lock t k stage) (hbefore : k.stage ≠ .queued)
    (hafter : stage ≠ .queued) : Recorded { s with lock } := by
  refine h.same rfl (fun u => ?_) (fun u _ => hmoves.keyOf_eq u) (fun _ => id) fun _ _ => .inl
  rw [hasStarted_moves hmoves hafter]
  exact or_iff_right_of_imp fun hut => hut ▸ ⟨k, hmoves.ticket, hbefore⟩

theorem Recorded.step {r : RateLimiter} {e : LimiterEvent} (h : s.Recorded) (hlock : s.lock.Inv)
    (hstep : Stepped r s e s') : s'.Recorded := by
  cases hstep with
  | accepted hcall =>
    obtain ⟨k, _, hqueued, htickets⟩ := KeyLock.withKeyLock_tickets hcall
    refine h.same rfl (fun u => ⟨fun ⟨j, hj, hstarted⟩ => ?_, fun ⟨j, hj, hstarted⟩ => ?_⟩)
      (fun u ⟨j, hj, _⟩ => ?_) (fun _ => id) fun _ _ => .inl
    · rcases KeyLock.lookup_snoc.mp (htickets ▸ hj) with hold | ⟨_, rfl⟩
      · exact ⟨j, hold, hstarted⟩
      · exact absurd hqueued hstarted
    · exact ⟨j, htickets ▸ KeyLock.lookup_snoc.mpr (.inl hj), hstarted⟩
    · exact KeyLock.keyOf_snoc htickets (List.getElem?_eq_some_iff.mp hj).1
  | dropped hstart =>
    obtain ⟨k, hmoves, hqueued⟩ := KeyLock.start_moves hstart
    refine h.start hlock hmoves hqueued rfl (fun u hu => .inl ?_) fun _ _ => .inl
    dsimp only at hu
    rw [Function.update_apply] at hu
    split at hu
    · cases hu
    · exact hu
  | started hstart =>
    obtain ⟨k, hmoves, hqueued⟩ := KeyLock.start_moves hstart
    refine h.start hlock hmoves hqueued rfl (fun u hu => ?_) fun u call hu => ?_
    · dsimp only at hu
      rw [Function.update_apply] at hu
      split at hu
      · exact .inr ⟨‹_›, rfl⟩
      · exact .inl hu
    · rcases List.mem_append.mp hu with hold | hnew
      · exact .inl hold
      · cases List.mem_singleton.mp hnew
        exact .inr ⟨rfl, rfl⟩
  | @advanced t e k phase stored hk hadvance =>
    have hactive := (taskStep_active hadvance).1
    refine h.same rfl (fun _ => Iff.rfl) (fun _ _ => rfl) (fun u hu => ?_) fun u call hu => ?_
    · dsimp only at hu
      rw [Function.update_apply] at hu
      split at hu
      · rename_i hut
        exact hut ▸ hactive
      · exact hu
    · rcases List.mem_append.mp hu with hold | hnew
      · exact .inl hold
      · unfold issued at hnew
        split at hnew
        · cases List.mem_singleton.mp hnew
          exact .inr hactive
        · cases hnew
  | finished _ hfinish =>
    obtain ⟨k, hmoves, hstage⟩ := KeyLock.finish_moves hfinish
    exact h.moved hmoves (by simp [hstage]) (by simp)
  | settled hsettle =>
    obtain ⟨k, hmoves, hstage⟩ := KeyLock.settle_moves hsettle
    exact h.moved hmoves (by simp [hstage]) (by simp)
  | released hrelease =>
    obtain ⟨k, hmoves, hstage⟩ := KeyLock.release_moves hrelease
    exact h.moved hmoves (by simp [hstage]) (by simp)
  | turnedAway | aborted | clock | forgotten =>
    exact h.same rfl (fun _ => Iff.rfl) (fun _ _ => rfl) (fun _ => id) fun _ _ => .inl

end Recorded

structure Inv (s : LimiterState) : Prop where
  lock : s.lock.Inv
  phased : Phased s.lock s.phase
  recorded : s.Recorded

theorem idle_inv (store : String → Option RateLimitState) (clockMs : ℤ) :
    (idle store clockMs).Inv where
  lock := KeyLock.idle_inv
  phased := {
    fits := fun h => by cases h
    unborn := fun _ => rfl }
  recorded := {
    started := fun _ => iff_of_false List.not_mem_nil fun ⟨_, hk, _⟩ => by cases hk
    order := .nil
    active := fun _ h => by cases h
    calls := fun _ _ h => by cases h }

theorem Inv.step {r : RateLimiter} {s s' : LimiterState} {e : LimiterEvent} (h : s.Inv)
    (hstep : Stepped r s e s') : s'.Inv := by
  refine ⟨?_, h.phased.step hstep, h.recorded.step h.lock hstep⟩
  cases hstep with
  | accepted hlock => exact h.lock.withKeyLock hlock
  | dropped hlock => exact h.lock.start hlock
  | started hlock => exact h.lock.start hlock
  | finished _ hlock => exact h.lock.finish hlock
  | settled hlock => exact h.lock.settle hlock
  | released hlock => exact h.lock.release hlock
  | turnedAway | advanced | aborted | clock | forgotten => exact h.lock

theorem Inv.run {r : RateLimiter} {s s' : LimiterState} {events : List LimiterEvent}
    {allowed : LimiterState → LimiterEvent → Prop} (h : s.Inv)
    (hrun : Machine.Run (LimiterState.step r) allowed s events s') : s'.Inv :=
  hrun.invariant h fun hinv _ hstep => hinv.step (step_cases hstep)

theorem Inv.active_unique {s : LimiterState} (h : s.Inv) {t u : ℕ}
    (hu : (s.phase u).isActive = true) (ht : (s.phase t).isActive = true)
    (hkey : s.lock.keyOf u = s.lock.keyOf t) : u = t := by
  obtain ⟨j, hj⟩ := h.phased.born hu
  obtain ⟨k, hk⟩ := h.phased.born ht
  rw [KeyLock.keyOf_of_lookup hj, KeyLock.keyOf_of_lookup hk] at hkey
  refine h.lock.exclusive hj hk (Option.some.inj hkey) ?_ ?_
  · rw [h.phased.running hj hu]
    rfl
  · rw [h.phased.running hk ht]
    rfl

def rank : TicketStage → TaskPhase → ℕ
  | .queued, _ => 9
  | .running, .waiting => 8
  | .running, .reading _ none => 7
  | .running, .reading _ (some _) => 6
  | .running, .writing _ false => 5
  | .running, .writing _ true => 4
  | .running, _ => 3
  | .finished, _ => 2
  | .settled, _ => 1
  | .released, _ => 0

def rankOf (s : LimiterState) (t : ℕ) : ℕ :=
  match s.lock.tickets[t]? with
  | some k => rank k.stage (s.phase t)
  | none => 0

def work (s : LimiterState) : ℕ := ∑ t ∈ Finset.range s.lock.tickets.length, s.rankOf t

section Progress
variable {r : RateLimiter} {s s' : LimiterState} {e : LimiterEvent} {t : ℕ} {k : Ticket}

theorem rankOf_eq (hk : s.lock.tickets[t]? = some k) : s.rankOf t = rank k.stage (s.phase t) := by
  rw [rankOf, hk]

theorem work_lt {stage : TicketStage} (hmoves : s.lock.Moves s'.lock t k stage)
    (hother : ∀ u, u ≠ t → s'.phase u = s.phase u)
    (hlt : rank stage (s'.phase t) < rank k.stage (s.phase t)) : s'.work < s.work := by
  have hlength : s'.lock.tickets.length = s.lock.tickets.length := by
    rw [hmoves.tickets, List.length_set]
  have hk : s'.lock.tickets[t]? = some { k with stage } := by rw [hmoves.lookup, if_pos rfl]
  have hsum := Machine.sum_replace (List.getElem?_eq_some_iff.mp hmoves.ticket).1
    fun u hu => show s'.rankOf u = s.rankOf u by
      rw [rankOf, rankOf, hmoves.lookup, if_neg (Ne.symm hu), hother u hu]
  rw [rankOf_eq hk, rankOf_eq hmoves.ticket] at hsum
  rw [work, work, hlength]
  dsimp only at hsum
  omega

theorem taskStep_rank {stored stored' : Option RateLimitState} {e : TaskEvent}
    {phase phase' : TaskPhase} (h : taskStep r stored e phase = some (phase', stored')) :
    rank .running phase' < rank .running phase := by
  unfold taskStep at h
  split at h <;> cases h
  case h_2 => split <;> simp [rank]
  case h_3 seen => cases seen <;> simp [rank]
  case h_6 persisted => cases persisted <;> simp [rank]
  all_goals simp [rank]

theorem work_step (h : s.Inv) (htask : e.task? = some t) (hstep : Stepped r s e s') :
    s'.work < s.work := by
  cases hstep with
  | dropped hlock =>
    obtain ⟨k, hmoves, hqueued⟩ := KeyLock.start_moves hlock
    refine work_lt hmoves (fun u hu => Function.update_of_ne hu _ _) ?_
    simp [hqueued, rank]
  | started hlock =>
    obtain ⟨k, hmoves, hqueued⟩ := KeyLock.start_moves hlock
    refine work_lt hmoves (fun u hu => Function.update_of_ne hu _ _) ?_
    simp [hqueued, rank]
  | advanced hk hadvance =>
    have hrunning := h.phased.running hk (taskStep_active hadvance).1
    refine work_lt (.refl hk) (fun u hu => Function.update_of_ne hu _ _) ?_
    dsimp only
    rw [Function.update_self, hrunning]
    exact taskStep_rank hadvance
  | finished hover hlock =>
    obtain ⟨k, hmoves, hrunning⟩ := KeyLock.finish_moves hlock
    refine work_lt hmoves (fun _ _ => rfl) ?_
    rw [hrunning]
    dsimp only
    generalize s.phase _ = phase at hover
    cases phase with
    | decided d => exact (by decide : 2 < 3)
    | abandoned => exact (by decide : 2 < 3)
    | storeFailed => exact (by decide : 2 < 3)
    | waiting | reading | writing => cases hover
  | settled hlock =>
    obtain ⟨k, hmoves, hfinished⟩ := KeyLock.settle_moves hlock
    exact work_lt hmoves (fun _ _ => rfl) (by simp [hfinished, rank])
  | released hlock =>
    obtain ⟨k, hmoves, hsettled⟩ := KeyLock.release_moves hlock
    exact work_lt hmoves (fun _ _ => rfl) (by simp [hsettled, rank])
  | accepted | turnedAway | aborted | clock | forgotten => cases htask

/-- As long as a key has a task, some task of the key can take a step, however the others of
it ended. -/
theorem enabled_of_pending (r : RateLimiter) (h : s.Inv) (hk : s.lock.tickets[t]? = some k)
    (hpending : k.stage ≠ .released) : ∃ e u, e.task? = some u ∧
      s.lock.keyOf u = some k.key ∧ (s.step r e).isSome := by
  induction t using Nat.strong_induction_on generalizing k with | _ t ih => ?_
  have hkey : s.lock.keyOf t = some k.key := KeyLock.keyOf_of_lookup hk
  cases hstage : k.stage with
  | queued =>
    by_cases hsettled : ∀ u j, KeyLock.Earlier s.lock.tickets u t j k → j.stage.isSettled = true
    · refine ⟨.start t, t, rfl, hkey, ?_⟩
      rw [step, Option.isSome_map]
      exact (h.lock.start_isSome hk hstage).mpr hsettled
    · simp only [not_forall] at hsettled
      obtain ⟨u, j, hearlier, hunsettled⟩ := hsettled
      have hlt := hearlier.lt
      have hj : j.stage ≠ .released := fun heq => hunsettled (by rw [heq]; rfl)
      rw [← hearlier.key]
      exact ih u hlt hearlier.first hj
  | running =>
    have hfits := h.phased.fits hk
    rw [hstage] at hfits
    have htask : ∀ {e phase stored},
        taskStep r (s.store k.key) e (s.phase t) = some (phase, stored) →
        (s.step r (.task t e)).isSome := by
      intro e phase stored hadvance
      rw [step, hk, Option.bind_some, hadvance]
      rfl
    have hfinish : (s.phase t).isOver = true → (s.step r (.finish t)).isSome := by
      intro hover
      rw [step, if_pos hover, Option.isSome_map, KeyLock.finish, hk, Option.bind_some,
        if_pos hstage]
      rfl
    match hphase : s.phase t with
    | .waiting => exact absurd hphase hfits
    | .reading nowSec none => exact ⟨.task t .storeReads, t, rfl, hkey, htask (by rw [hphase]; rfl)⟩
    | .reading nowSec (some seen) =>
      exact ⟨.task t .readResolves, t, rfl, hkey, htask (by rw [hphase]; rfl)⟩
    | .writing d false => exact ⟨.task t .persists, t, rfl, hkey, htask (by rw [hphase]; rfl)⟩
    | .writing d true => exact ⟨.task t .writeResolves, t, rfl, hkey, htask (by rw [hphase]; rfl)⟩
    | .decided d => exact ⟨.finish t, t, rfl, hkey, hfinish (by rw [hphase]; rfl)⟩
    | .abandoned => exact ⟨.finish t, t, rfl, hkey, hfinish (by rw [hphase]; rfl)⟩
    | .storeFailed => exact ⟨.finish t, t, rfl, hkey, hfinish (by rw [hphase]; rfl)⟩
  | finished =>
    refine ⟨.settle t, t, rfl, hkey, ?_⟩
    rw [step, Option.isSome_map, KeyLock.settle, hk, Option.bind_some, if_pos hstage]
    rfl
  | settled =>
    refine ⟨.release t, t, rfl, hkey, ?_⟩
    rw [step, Option.isSome_map, KeyLock.release, hk, Option.bind_some, if_pos hstage]
    rfl
  | released => exact absurd hstage hpending

end Progress
end LimiterState
end Guardian
