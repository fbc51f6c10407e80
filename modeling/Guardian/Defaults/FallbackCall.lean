import Guardian.Defaults.FixedWindow
import Guardian.Defaults.RateLimiterRuns

/-!
# The sequential calls among the runs of the fallback

The calls made one after another are a run of the fallback over the bundled store: each
goes through the lock, the read and the write before the next one comes, and decides as the
sequential call does.
-/

namespace Guardian
open RateLimitState

namespace KeyLock

theorem set_snoc (tickets : List Ticket) (k j : Ticket) :
    (tickets ++ [k]).set tickets.length j = tickets ++ [j] := by
  rw [List.set_append_right _ _ le_rfl, Nat.sub_self, List.set_cons_zero]

theorem lookup_last (tickets : List Ticket) (k : Ticket) :
    (tickets ++ [k])[tickets.length]? = some k := lookup_snoc.mpr (.inr ⟨rfl, rfl⟩)

theorem Moves.last {l l' : KeyLock} {tickets : List Ticket} {k : Ticket} {stage : TicketStage}
    (hlast : l.tickets = tickets ++ [k])
    (h : ∃ j, l.Moves l' tickets.length j stage) : l'.tickets = tickets ++ [{ k with stage }] := by
  obtain ⟨j, hmoves⟩ := h
  have hj := hmoves.ticket
  rw [hlast, lookup_last] at hj
  cases hj
  rw [hmoves.tickets, hlast, set_snoc]

theorem Inv.solo {l : KeyLock} (h : l.Inv) {key : String} (hfree : pendingIn l.tickets key = 0) :
    ∃ (k : Ticket) (l₁ l₂ l₃ l₄ l₅ : KeyLock), k.key = key ∧ l.withKeyLock key = some l₁ ∧
      l₁.start l.tickets.length = some l₂ ∧
      l₂.tickets = l.tickets ++ [{ k with stage := .running }] ∧
      l₂.finish l.tickets.length = some l₃ ∧ l₃.settle l.tickets.length = some l₄ ∧
      l₄.release l.tickets.length = some l₅ ∧
      l₅.tickets = l.tickets ++ [{ k with stage := .released }] := by
  cases hcall : l.withKeyLock key with
  | none =>
    have hfull := (withKeyLock_eq_none h.counted key).mp hcall
    rw [hfree] at hfull
    cases hfull
  | some l₁ =>
    obtain ⟨k, hkey, hqueued, htickets⟩ := withKeyLock_tickets hcall
    have hk : l₁.tickets[l.tickets.length]? = some k := htickets ▸ lookup_last _ _
    have hsettled : ∀ u j, Earlier l₁.tickets u l.tickets.length j k →
        j.stage.isSettled = true := by
      intro u j hearlier
      have hj : l.tickets[u]? = some j := by
        rcases lookup_snoc.mp (htickets ▸ hearlier.first) with hold | ⟨hu, _⟩
        · exact hold
        · exact absurd hu (Nat.ne_of_lt hearlier.lt)
      have hreleased : j.stage = .released := by
        by_contra hstage
        have hpos := pendingIn_pos hj hstage
        rw [hearlier.key, hkey, hfree] at hpos
        cases hpos
      rw [hreleased]
      rfl
    obtain ⟨l₂, hstart⟩ := Option.isSome_iff_exists.mp
      (((h.withKeyLock hcall).start_isSome hk hqueued).mpr hsettled)
    have h₂ := Moves.last htickets ((start_moves hstart).imp fun _ => And.left)
    have hfinish : ∃ l₃, l₂.finish l.tickets.length = some l₃ := by
      rw [KeyLock.finish, h₂, lookup_last, Option.bind_some, if_pos rfl]
      exact ⟨_, rfl⟩
    obtain ⟨l₃, hfinish⟩ := hfinish
    have h₃ := Moves.last h₂ ((finish_moves hfinish).imp fun _ => And.left)
    have hsettle : ∃ l₄, l₃.settle l.tickets.length = some l₄ := by
      rw [KeyLock.settle, h₃, lookup_last, Option.bind_some, if_pos rfl]
      exact ⟨_, rfl⟩
    obtain ⟨l₄, hsettle⟩ := hsettle
    have h₄ := Moves.last h₃ ((settle_moves hsettle).imp fun _ => And.left)
    have hrelease : ∃ l₅, l₄.release l.tickets.length = some l₅ := by
      rw [KeyLock.release, h₄, lookup_last, Option.bind_some, if_pos rfl]
      exact ⟨_, rfl⟩
    obtain ⟨l₅, hrelease⟩ := hrelease
    have h₅ := Moves.last h₄ ((release_moves hrelease).imp fun _ => And.left)
    exact ⟨k, l₁, l₂, l₃, l₄, l₅, hkey, rfl, hstart, h₂, hfinish, hsettle, hrelease, h₅⟩

end KeyLock

namespace LimiterState
variable (r : RateLimiter)

abbrev Leads (s : LimiterState) (events : List LimiterEvent) (s' : LimiterState) : Prop :=
  Machine.Run (step r) (fun _ _ => True) s events s'

theorem clock_run (s : LimiterState) {ms : ℤ} (h : s.clockMs ≤ ms) :
    Leads r s [.clock ms] { s with clockMs := ms } := .single trivial (by rw [step, if_pos h])

section Task
variable {r} {s : LimiterState} {t : ℕ} {k : Ticket} (hk : s.lock.tickets[t]? = some k)
include hk

theorem task_run {e : TaskEvent} {before phase : TaskPhase} {stored : Option RateLimitState}
    (hphase : s.phase t = before)
    (hadvance : taskStep r (s.store k.key) e before = some (phase, stored)) :
    ∃ calls, Leads r s [.task t e] { s with
      phase := Function.update s.phase t phase
      store := Function.update s.store k.key stored
      calls } := by
  refine ⟨s.calls ++ issued t e phase, .single trivial ?_⟩
  rw [step, hk, Option.bind_some, hphase, hadvance]
  rfl

theorem read_run {nowSec : ℤ} (hphase : s.phase t = .reading nowSec none)
    {d : RateLimitDecision} (hd : r.decide nowSec (s.store k.key) = d) :
    ∃ events calls, Leads r s events { s with
      phase := Function.update s.phase t (if d.allowed then .writing d false else .decided d)
      calls } := by
  subst hd
  obtain ⟨calls₁, hrun₁⟩ := task_run (r := r) (e := .storeReads) hk hphase rfl
  obtain ⟨calls₂, hrun₂⟩ := task_run (r := r) (e := .readResolves) (s := { s with
      phase := Function.update s.phase t (.reading nowSec (some (s.store k.key)))
      store := Function.update s.store k.key (s.store k.key)
      calls := calls₁ }) hk (Function.update_self _ _ _) rfl
  simp only [Function.update_eq_self, Function.update_idem] at hrun₁ hrun₂
  exact ⟨_, calls₂, hrun₁.append hrun₂⟩

theorem write_run {d : RateLimitDecision} (hphase : s.phase t = .writing d false) :
    ∃ events calls, Leads r s events { s with
      phase := Function.update s.phase t (.decided d)
      store := Function.update s.store k.key (some d.state)
      calls } := by
  obtain ⟨calls₁, hrun₁⟩ := task_run (r := r) (e := .persists) hk hphase rfl
  obtain ⟨calls₂, hrun₂⟩ := task_run (r := r) (e := .writeResolves) (s := { s with
      phase := Function.update s.phase t (.writing d true)
      store := Function.update s.store k.key (some d.state)
      calls := calls₁ }) hk (Function.update_self _ _ _) rfl
  simp only [Function.update_eq_self, Function.update_idem] at hrun₂
  exact ⟨_, calls₂, hrun₁.append hrun₂⟩

end Task

def stillOpen (nowSec : ℤ) (entry : Option RateLimitState) : Option RateLimitState :=
  entry.filter fun w => !decide (w.ClosedBy nowSec)

theorem stillOpen_some (nowSec : ℤ) (w : RateLimitState) :
    stillOpen nowSec (some w) = if w.ClosedBy nowSec then none else some w := by
  rw [stillOpen, Option.filter_some]
  by_cases hclosed : w.ClosedBy nowSec <;> simp only [hclosed, decide_true, decide_false,
    Bool.not_true, Bool.not_false, Bool.false_eq_true, if_true, if_false]

theorem stillOpen_idem (nowSec : ℤ) (entry : Option RateLimitState) :
    stillOpen nowSec (stillOpen nowSec entry) = stillOpen nowSec entry := by
  rw [stillOpen, stillOpen, Option.filter_filter]
  simp only [Bool.and_self]

theorem read_forgets (store : InMemoryRateLimitStore) (nowSec : ℤ) (key : String) :
    (store.read nowSec key).1 = stillOpen nowSec (store.map.get? key) ∧
      (store.read nowSec key).2.map.get? =
        Function.update store.map.get? key (stillOpen nowSec (store.map.get? key)) := by
  rw [InMemoryRateLimitStore.read]
  cases hw : store.map.get? key with
  | none => exact ⟨rfl, (Function.update_eq_self_iff.mpr hw.symm).symm⟩
  | some w =>
    dsimp only
    rw [stillOpen_some]
    split
    · refine ⟨rfl, ?_⟩
      funext key'
      rw [OrderedMap.get?_delete, Function.update_apply]
    · exact ⟨rfl, (Function.update_eq_self_iff.mpr hw.symm).symm⟩

section Forget
variable {r} (s : LimiterState)

theorem forget_run (key : String) : ∃ events, Leads r s events { s with
    store := Function.update s.store key (stillOpen (secondsOf s.clockMs) (s.store key)) } := by
  cases hw : s.store key with
  | none =>
    refine ⟨[], ?_⟩
    rw [stillOpen, Option.filter_none, ← hw, Function.update_eq_self]
    exact .start
  | some w =>
    rw [stillOpen_some]
    by_cases hclosed : w.ClosedBy (secondsOf s.clockMs)
    · rw [if_pos hclosed]
      refine ⟨[.forget key], .single trivial ?_⟩
      simp only [step, hw]
      exact if_pos hclosed
    · rw [if_neg hclosed, ← hw, Function.update_eq_self]
      exact ⟨[], .start⟩

theorem forget_keys_run (keys : List String) : ∃ events, Leads r s events { s with
    store := fun key =>
      if key ∈ keys then stillOpen (secondsOf s.clockMs) (s.store key) else s.store key } := by
  induction keys with
  | nil =>
    refine ⟨[], ?_⟩
    simp only [List.not_mem_nil, if_false]
    exact .start
  | cons key keys ih =>
    obtain ⟨events, hrun⟩ := ih
    obtain ⟨events', hrun'⟩ := forget_run (r := r) _ key
    refine ⟨events ++ events', ?_⟩
    convert hrun.append hrun' using 2
    funext key'
    rw [Function.update_apply]
    by_cases hkey : key' = key
    · subst hkey
      rw [if_pos List.mem_cons_self, if_pos rfl]
      dsimp only
      split
      · exact (stillOpen_idem _ _).symm
      · rfl
    · simp only [List.mem_cons, hkey, false_or, if_false]

variable {s} {store : InMemoryRateLimitStore} (hstore : s.store = store.map.get?)
include hstore

theorem store_read_run (key : String) : ∃ events, Leads r s events
    { s with store := (store.read (secondsOf s.clockMs) key).2.map.get? } := by
  rw [(read_forgets store _ key).2, ← hstore]
  exact forget_run s key

theorem store_sweep_run : ∃ events, Leads r s events
    { s with store := (store.sweep (secondsOf s.clockMs)).map.get? } := by
  obtain ⟨events, hrun⟩ := forget_keys_run (r := r) s (store.map.entries.map Prod.fst)
  refine ⟨events, ?_⟩
  convert hrun using 2
  funext key
  rw [InMemoryRateLimitStore.sweep, OrderedMap.get?_filter, hstore]
  split
  · rfl
  · rename_i habsent
    have hnone : store.map.get? key = none :=
      OrderedMap.get?_eq_none.mpr fun v hv => habsent (List.mem_map.mpr ⟨_, hv, rfl⟩)
    rw [hnone]
    rfl

theorem countWrite_run : ∃ events, Leads r s events
    { s with store := (store.countWrite (secondsOf s.clockMs)).map.get? } := by
  have hcounted : s.store =
      ({ store with writes := store.writes + 1 } : InMemoryRateLimitStore).map.get? := hstore
  rw [InMemoryRateLimitStore.countWrite]
  dsimp only
  split
  · exact store_sweep_run hcounted
  · refine ⟨[], ?_⟩
    rw [← hstore]
    exact .start

end Forget

/-- Between two calls: no task is left, and the store is the bundled one. -/
structure Resting (s : LimiterState) (store : InMemoryRateLimitStore) (last : ℤ) : Prop where
  inv : s.Inv
  released : ∀ k ∈ s.lock.tickets, k.stage = .released
  willing : ∀ t, s.aborted t = false
  shows : s.store = store.map.get?
  clock : s.clockMs ≤ last

theorem Resting.free {s : LimiterState} {store : InMemoryRateLimitStore} {last : ℤ}
    (h : s.Resting store last) (key : String) : KeyLock.pendingIn s.lock.tickets key = 0 := by
  refine List.countP_eq_zero.mpr fun k hk => ?_
  rw [KeyLock.isPending, h.released k hk]
  simp

theorem decided_run {s : LimiterState} {t : ℕ} {k : Ticket} (hk : s.lock.tickets[t]? = some k)
    {store : InMemoryRateLimitStore} (hstore : s.store = store.map.get?) {c : LimiterCall}
    (hkey : k.key = c.key) (hclock : c.Clocked) (hnow : s.clockMs = c.limiterMs)
    (hphase : s.phase t = .reading (secondsOf c.limiterMs) none) :
    ∃ events calls ms, ms ≤ c.writeMs ∧ Leads r s events { s with
      phase := Function.update s.phase t (.decided (r.readModifyWrite store c).1)
      store := (r.readModifyWrite store c).2.map.get?
      clockMs := ms
      calls } := by
  have hseen : (store.read (secondsOf c.readMs) c.key).2.map.get? k.key =
      (store.read (secondsOf c.readMs) c.key).1 := by
    rw [(read_forgets store _ _).1, (read_forgets store _ _).2, hkey, Function.update_self]
  obtain ⟨forgets, hforget⟩ :=
    store_read_run (r := r) (s := { s with clockMs := c.readMs }) hstore c.key
  obtain ⟨reads, calls, hread⟩ := read_run (r := r) (s := { s with
    clockMs := c.readMs
    store := (store.read (secondsOf c.readMs) c.key).2.map.get? }) hk hphase
    (congrArg (r.decide (secondsOf c.limiterMs)) hseen)
  have hdecided := ((clock_run r s (hnow.trans_le hclock.read)).append hforget).append hread
  rw [RateLimiter.readModifyWrite]
  generalize store.read (secondsOf c.readMs) c.key = seen at hdecided
  obtain ⟨previous, store⟩ := seen
  dsimp only at hdecided ⊢
  generalize r.decide (secondsOf c.limiterMs) previous = d at hdecided
  cases hallowed : d.allowed with
  | false =>
    rw [hallowed] at hdecided
    exact ⟨_, calls, c.readMs, hclock.write, hdecided⟩
  | true =>
    rw [hallowed, if_pos rfl] at hdecided
    have htick := clock_run r { s with
      phase := Function.update s.phase t (.writing d false)
      store := store.map.get?
      clockMs := c.readMs
      calls } hclock.write
    obtain ⟨writes, calls, hwrite⟩ := write_run (r := r) (s := { s with
      phase := Function.update s.phase t (.writing d false)
      store := store.map.get?
      clockMs := c.writeMs
      calls }) hk (Function.update_self _ _ _)
    have hwritten : (store.map.set c.key d.state).get? =
      ({ store with map := store.map.set c.key d.state } : InMemoryRateLimitStore).map.get? := rfl
    obtain ⟨sweeps, hsweep⟩ := countWrite_run (r := r) (s := { s with
      phase := Function.update s.phase t (.decided d)
      store := (store.map.set c.key d.state).get?
      clockMs := c.writeMs
      calls }) hwritten
    have hset : Function.update store.map.get? k.key (some d.state) =
        (store.map.set c.key d.state).get? := by
      funext key
      rw [OrderedMap.get?_set, Function.update_apply, hkey]
    simp only [Function.update_idem, hset] at hwrite
    exact ⟨_, calls, c.writeMs, le_rfl, ((hdecided.append htick).append hwrite).append hsweep⟩

theorem leave_run {s : LimiterState} {t : ℕ} {d : RateLimitDecision}
    (hphase : s.phase t = .decided d) {l₃ l₄ l₅ : KeyLock} (hfinish : s.lock.finish t = some l₃)
    (hsettle : l₃.settle t = some l₄) (hrelease : l₄.release t = some l₅) :
    Leads r s [.finish t, .settle t, .release t] { s with lock := l₅ } := by
  have hfinished : Leads r s [.finish t] { s with lock := l₃ } := by
    refine .single trivial ?_
    rw [step, hphase, hfinish]
    rfl
  have hsettled : Leads r { s with lock := l₃ } [.settle t] { s with lock := l₄ } := by
    refine .single trivial ?_
    rw [step, hsettle]
    rfl
  have hreleased : Leads r { s with lock := l₄ } [.release t] { s with lock := l₅ } := by
    refine .single trivial ?_
    rw [step, hrelease]
    rfl
  exact (hfinished.append hsettled).append hreleased

theorem Resting.call_run {s : LimiterState} {store : InMemoryRateLimitStore} {last : ℤ}
    (h : s.Resting store last) {c : LimiterCall} (hclock : c.Clocked)
    (hlast : last ≤ c.limiterMs) : ∃ events s', Leads r s events s' ∧
      s'.Resting (r.readModifyWrite store c).2 c.answerMs ∧
      s'.lock.tickets.length = s.lock.tickets.length + 1 ∧
      s'.phase = Function.update s.phase s.lock.tickets.length
        (.decided (r.readModifyWrite store c).1) := by
  obtain ⟨k, l₁, l₂, l₃, l₄, l₅, hkey, hcall, hstart, hrunning, hfinish, hsettle, hrelease,
    hreleased⟩ := h.inv.lock.solo (h.free c.key)
  have hticked := clock_run r s (h.clock.trans hlast)
  have harrived : Leads r { s with clockMs := c.limiterMs } [.arrive c.key]
      { s with clockMs := c.limiterMs, lock := l₁ } := by
    refine .single trivial ?_
    simp only [step, hcall]
  have hstarted : Leads r { s with clockMs := c.limiterMs, lock := l₁ }
      [.start s.lock.tickets.length] { s with
        clockMs := c.limiterMs
        lock := l₂
        phase := Function.update s.phase s.lock.tickets.length
          (.reading (secondsOf c.limiterMs) none)
        starts := s.starts ++ [(s.lock.tickets.length, false)]
        calls := s.calls ++ [(s.lock.tickets.length, .read)] } := by
    refine .single trivial ?_
    simp only [step, hstart, Option.map_some, begin, h.willing, Bool.false_eq_true, if_false]
  have hk := KeyLock.lookup_last s.lock.tickets { k with stage := .running }
  rw [← hrunning] at hk
  obtain ⟨events, calls, ms, hms, hdecided⟩ := decided_run r (s := { s with
      clockMs := c.limiterMs
      lock := l₂
      phase := Function.update s.phase s.lock.tickets.length
        (.reading (secondsOf c.limiterMs) none)
      starts := s.starts ++ [(s.lock.tickets.length, false)]
      calls := s.calls ++ [(s.lock.tickets.length, .read)] })
    hk h.shows hkey hclock rfl (Function.update_self _ _ _)
  simp only [Function.update_idem] at hdecided
  have hleft := leave_run r (s := { s with
      clockMs := ms
      lock := l₂
      phase := Function.update s.phase s.lock.tickets.length
        (.decided (r.readModifyWrite store c).1)
      store := (r.readModifyWrite store c).2.map.get?
      starts := s.starts ++ [(s.lock.tickets.length, false)]
      calls }) (Function.update_self _ _ _) hfinish hsettle hrelease
  have hrun := (((hticked.append harrived).append hstarted).append hdecided).append hleft
  refine ⟨_, _, hrun, ⟨h.inv.run hrun, fun j hj => ?_, h.willing, rfl, hms.trans hclock.answer⟩,
    ?_, rfl⟩
  · rcases List.mem_append.mp (hreleased ▸ hj) with hold | hnew
    · exact h.released j hold
    · rw [List.mem_singleton.mp hnew]
  · rw [hreleased, List.length_append, List.length_singleton]

theorem Resting.calls_run {s : LimiterState} {store : InMemoryRateLimitStore} {last : ℤ}
    (h : s.Resting store last) {calls : List LimiterCall} (hclock : ClockedCalls calls)
    (hlast : ∀ c ∈ calls, last ≤ c.limiterMs) : ∃ events s', Leads r s events s' ∧
      (∀ t, t < s.lock.tickets.length → s'.phase t = s.phase t) ∧
      ∀ i o, (r.outcomes r.readModifyWrite store calls)[i]? = some o →
        s'.phase (s.lock.tickets.length + i) = .decided o.1 := by
  induction calls generalizing s store last with
  | nil => exact ⟨[], s, .start, fun _ _ => rfl, fun _ _ ho => by cases ho⟩
  | cons c calls ih =>
    obtain ⟨events, s', hrun, hresting, hlength, hphase⟩ :=
      h.call_run r (hclock.within c (.head _)) (hlast c (.head _))
    obtain ⟨events', s'', hrun', hkept, hdecided⟩ :=
      ih hresting hclock.tail.1 (List.pairwise_cons.mp hclock.order).1
    rw [hlength] at hkept hdecided
    refine ⟨events ++ events', s'', hrun.append hrun', fun t ht => ?_, fun i o ho => ?_⟩
    · rw [hkept t (by omega), hphase, Function.update_of_ne (Nat.ne_of_lt ht)]
    · rw [RateLimiter.outcomes_cons] at ho
      cases i with
      | zero =>
        cases ho
        rw [Nat.add_zero, hkept _ (Nat.lt_succ_self _), hphase, Function.update_self]
      | succ i =>
        rw [Nat.add_comm i 1, ← Nat.add_assoc]
        exact hdecided i o ho

theorem sequential_run {calls : List LimiterCall} (hclock : ClockedCalls calls) {startMs : ℤ}
    (hstart : ∀ c ∈ calls, startMs ≤ c.limiterMs) : ∃ events s',
      Leads r (idle (fun _ => none) startMs) events s' ∧
      ∀ i o, (r.outcomes r.readModifyWrite .empty calls)[i]? = some o →
        s'.phase i = .decided o.1 := by
  have hresting : (idle (fun _ => none) startMs).Resting .empty startMs := {
    inv := idle_inv _ _
    released := fun _ hk => by cases hk
    willing := fun _ => rfl
    shows := rfl
    clock := le_rfl }
  obtain ⟨events, s', hrun, _, hdecided⟩ := hresting.calls_run r hclock hstart
  refine ⟨events, s', hrun, fun i o ho => ?_⟩
  have hphase := hdecided i o ho
  rwa [show (idle (fun _ => none) startMs).lock.tickets.length = 0 from rfl, Nat.zero_add] at hphase

end LimiterState
end Guardian
