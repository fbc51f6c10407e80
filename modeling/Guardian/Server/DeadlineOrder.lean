import Guardian.Server.DeadlineTurns

/-!
# What the turns of a call keep

The wiring of the promises with the jobs that each settlement still has to make, the state of
the timer, and the value that is first in line for the race. Every turn keeps these, and what the
first of the two events has fixed.
-/

namespace Guardian
open Double EventLoop

namespace DeadlineCall
variable {T E : Type} {s : DeadlineCall T E} {p q : PromiseId} {r : Reaction}
  {x : Except E T} {j : Job Reaction PlainJob T E}
  {rest : List (Job Reaction PlainJob T E)}

def reactions (s : DeadlineCall T E) (p : PromiseId) : List Reaction :=
  (s.loop.promise p).reactions

def handled (s : DeadlineCall T E) (p : PromiseId) : Bool := (s.loop.promise p).handled

/-- What the task has settled to: the throw of `run`, or what its promise settled to. -/
def taskSettled (s : DeadlineCall T E) : Option (Except E T) :=
  match s.threw with
  | some error => some (.error error)
  | none => s.settled .host

theorem promise_settle (h : s.settled p = none) :
    (s.settle p x).loop.promise q =
      if q = p then ⟨some x, [], s.handled p⟩ else s.loop.promise q := by
  have hs : s.settle p x = { s with loop := s.loop.settle p x } := rfl
  rw [hs, Loop.settle_of_pending h]
  exact Function.update_apply _ _ _ _

theorem settled_settle (h : s.settled p = none) :
    (s.settle p x).settled q = if q = p then some x else s.settled q := by
  rw [settled, promise_settle h]
  split <;> rfl

theorem reactions_settle (h : s.settled p = none) :
    (s.settle p x).reactions q = if q = p then [] else s.reactions q := by
  rw [reactions, promise_settle h]
  split <;> rfl

theorem handled_settle (h : s.settled p = none) :
    (s.settle p x).handled q = s.handled q := by
  rw [handled, promise_settle h]
  split
  · rename_i hq
    rw [hq]
  · rfl

theorem queue_settle (h : s.settled p = none) :
    (s.settle p x).queue = s.queue ++ (s.reactions p).map fun r => .react r x := by
  have hs : s.settle p x = { s with loop := s.loop.settle p x } := rfl
  rw [hs, Loop.settle_of_pending h]
  rfl

theorem mem_settle (h : s.settled p = none) :
    j ∈ (s.settle p x).queue ↔ j ∈ s.queue ∨ ∃ r ∈ s.reactions p, .react r x = j := by
  rw [queue_settle h, List.mem_append, List.mem_map]

theorem settle_eq_self (h : s.settled p ≠ none) : s.settle p x = s := by
  obtain ⟨y, hy⟩ := Option.ne_none_iff_exists'.mp h
  rw [settle, Loop.settle_of_settled hy]

theorem settled_of_settle : (s.settle p x).settled p ≠ none := by
  by_cases hp : s.settled p = none
  · simp [settled_settle hp]
  · rwa [settle_eq_self hp]

theorem settle_taken (hq : s.queue = j :: rest) : ∃ rest',
    (s.settle p x).queue = j :: rest' ∧ (s.settle p x).taken rest' = (s.taken rest).settle p x := by
  cases hp : s.settled p with
  | some y =>
    have hne : s.settled p ≠ none := by simp [hp]
    have htaken : (s.taken rest).settled p ≠ none := hne
    exact ⟨rest, by rw [settle_eq_self hne, hq], by
      rw [settle_eq_self hne, settle_eq_self htaken]⟩
  | none =>
    have hs : s.settle p x = { s with loop := s.loop.settle p x } := rfl
    have ht : (s.taken rest).settle p x =
      { s.taken rest with loop := (s.taken rest).loop.settle p x } := rfl
    have htaken : ((s.taken rest).loop.promise p).settled = none := hp
    refine ⟨rest ++ (s.reactions p).map fun r => .react r x, ?_, ?_⟩
    · rw [queue_settle hp, hq, List.cons_append]
    · rw [hs, ht, Loop.settle_of_pending hp, Loop.settle_of_pending htaken]
      rfl

theorem promise_attach : (s.attach p r).loop.promise q =
    if q = p then ⟨s.settled p,
      if s.settled p = none then s.reactions p ++ [r] else s.reactions p, true⟩
    else s.loop.promise q := by
  have hs : s.attach p r = { s with loop := s.loop.attach p r } := rfl
  cases hp : s.settled p with
  | none =>
    rw [hs, Loop.attach_of_pending hp]
    exact Function.update_apply _ _ _ _
  | some y =>
    rw [hs, Loop.attach_of_settled hp]
    exact Function.update_apply _ _ _ _

theorem settled_attach : (s.attach p r).settled q = s.settled q := by
  rw [settled, promise_attach]
  split
  · rename_i hq
    rw [hq]
  · rfl

theorem reactions_attach : (s.attach p r).reactions q =
    if q = p ∧ s.settled p = none then s.reactions q ++ [r] else s.reactions q := by
  rw [reactions, promise_attach]
  by_cases hq : q = p
  · subst hq
    by_cases hp : s.settled q = none <;> simp [hp, reactions]
  · simp [hq, reactions]

theorem handled_attach :
    (s.attach p r).handled q = if q = p then true else s.handled q := by
  rw [handled, promise_attach]
  split <;> rfl

theorem queue_attach : (s.attach p r).queue =
    s.queue ++ ((s.settled p).map fun y => Job.react r y).toList := by
  have hs : s.attach p r = { s with loop := s.loop.attach p r } := rfl
  cases hp : s.settled p with
  | none =>
    rw [hs, Loop.attach_of_pending hp]
    exact (List.append_nil _).symm
  | some y =>
    rw [hs, Loop.attach_of_settled hp]
    rfl

theorem attach_taken (hq : s.queue = j :: rest) : ∃ rest',
    (s.attach p r).queue = j :: rest' ∧ (s.attach p r).taken rest' = (s.taken rest).attach p r := by
  have hs : s.attach p r = { s with loop := s.loop.attach p r } := rfl
  have ht : (s.taken rest).attach p r =
    { s.taken rest with loop := (s.taken rest).loop.attach p r } := rfl
  cases hp : s.settled p with
  | none =>
    have htaken : ((s.taken rest).loop.promise p).settled = none := hp
    refine ⟨rest, ?_, ?_⟩
    · rw [queue_attach, hq, hp]
      exact List.append_nil _
    · rw [hs, ht, Loop.attach_of_pending hp, Loop.attach_of_pending htaken]
      rfl
  | some y =>
    have htaken : ((s.taken rest).loop.promise p).settled = some y := hp
    refine ⟨rest ++ [.react r y], ?_, ?_⟩
    · rw [queue_attach, hq, hp]
      rfl
    · rw [hs, ht, Loop.attach_of_settled hp, Loop.attach_of_settled htaken]
      rfl

structure Wired (s : DeadlineCall T E) : Prop where
  host_reactions : ∀ r ∈ s.reactions .host, r = .resolveTask
  task_reactions : s.settled .task = none → s.reactions .task = [.swallow, .resolveRace]
  deadline_reactions : s.settled .deadline = none → s.reactions .deadline = [.resolveRace]
  race_reactions : s.settled .race = none → s.reactions .race = [.resume]
  result_reactions : s.reactions .result = []
  handled : ∀ p, p = .task ∨ p = .deadline ∨ p = .race → s.handled p = true
  linked : s.threw = none → .plain .resolveThenable ∈ s.queue ∨
    s.handled .host = true ∧ (s.settled .host = none → .resolveTask ∈ s.reactions .host)
  threw : ∀ e, s.threw = some e → s.settled .task = some (.error e) ∧ s.settled .host = none
  task : ∀ x, s.settled .task = some x → s.taskSettled = some x
  result : ∀ x, s.settled .result = some x → s.settled .race = some x
  resolveTask : ∀ x, .react .resolveTask x ∈ s.queue →
    s.threw = none ∧ s.settled .host = some x
  resume : ∀ x, .react .resume x ∈ s.queue → s.settled .race = some x
  -- A settlement that is not yet passed on has its job in the queue.
  host_moves : ∀ x, s.threw = none → s.settled .task = none → s.settled .host = some x →
    .plain .resolveThenable ∈ s.queue ∨ .react .resolveTask x ∈ s.queue
  task_moves : ∀ x, s.settled .race = none → s.settled .task = some x →
    .react .resolveRace x ∈ s.queue
  deadline_moves : ∀ x, s.settled .race = none → s.settled .deadline = some x →
    .react .resolveRace x ∈ s.queue
  race_moves : ∀ x, s.settled .result = none → s.settled .race = some x →
    .react .resume x ∈ s.queue

def Permits (s : DeadlineCall T E) : PromiseId → Except E T → Prop
  | .host, _ => s.threw = none
  | .task, x => s.taskSettled = some x
  | .deadline, _ => True
  | .race, _ => True
  | .result, x => s.settled .race = some x

def Spent (s : DeadlineCall T E) : Job Reaction PlainJob T E → Prop
  | .plain .foreign => True
  | .plain .resolveThenable => s.handled .host = true ∧
    (s.settled .host = none → .resolveTask ∈ s.reactions .host) ∧
    ∀ x, s.settled .host = some x → .react .resolveTask x ∈ s.queue
  | .react .swallow _ => True
  | .react .resolveTask _ => s.settled .task ≠ none
  | .react .resolveRace _ => s.settled .race ≠ none
  | .react .resume _ => s.settled .result ≠ none

theorem Wired.settle (h : s.Wired) (hp : s.settled p = none) (hx : s.Permits p x) :
    (s.settle p x).Wired := by
  have ht : (s.settle p x).threw = s.threw := rfl
  obtain ⟨h₁, h₂, h₃, h₄, h₅, h₆, h₇, h₈, h₉, h₁₀, h₁₁, h₁₂, h₁₃, h₁₄, h₁₅, h₁₆⟩ := h
  simp only [taskSettled] at h₉
  cases p <;> simp only [Permits, taskSettled] at hx <;> constructor <;>
    simp only [taskSettled, settled_settle hp, reactions_settle hp, handled_settle hp,
      mem_settle hp, ht, reduceCtorEq, if_true, if_false] <;> first | assumption | grind

theorem Wired.skip (h : s.Wired) (hq : s.queue = j :: rest) (hj : s.Spent j) :
    (s.taken rest).Wired := by
  have hmem : ∀ i, i ∈ s.queue ↔ i = j ∨ i ∈ (s.taken rest).queue := by
    intro i
    rw [hq, List.mem_cons]
    rfl
  have hs : ∀ p, (s.taken rest).settled p = s.settled p := fun p => rfl
  have hr : ∀ p, (s.taken rest).reactions p = s.reactions p := fun p => rfl
  have hh : ∀ p, (s.taken rest).handled p = s.handled p := fun p => rfl
  have ht : (s.taken rest).threw = s.threw := rfl
  obtain ⟨h₁, h₂, h₃, h₄, h₅, h₆, h₇, h₈, h₉, h₁₀, h₁₁, h₁₂, h₁₃, h₁₄, h₁₅, h₁₆⟩ := h
  simp only [taskSettled] at h₉
  simp only [hmem] at h₇ h₁₁ h₁₂ h₁₃ h₁₄ h₁₅ h₁₆
  rcases j with ⟨r, y⟩ | k
  · cases r <;> simp only [Spent] at hj <;> constructor <;>
      simp only [taskSettled, hs, hr, hh, ht] <;> first | assumption | grind
  · cases k <;> simp only [Spent, hmem] at hj <;> constructor <;>
      simp only [taskSettled, hs, hr, hh, ht] <;> first | assumption | grind

theorem Wired.leave (h : s.Wired) (jobs : ℕ) : (s.leave jobs).Wired := by
  have hmem : ∀ j : Job Reaction PlainJob T E, j ≠ .plain .foreign →
      (j ∈ (s.leave jobs).queue ↔ j ∈ s.queue) := by
    intro j hj
    have hq : (s.leave jobs).queue = s.queue ++ List.replicate jobs (.plain .foreign) := rfl
    rw [hq, List.mem_append, List.mem_replicate]
    exact or_iff_left fun hboth => hj hboth.2
  have hs : ∀ p, (s.leave jobs).settled p = s.settled p := fun p => rfl
  obtain ⟨h₁, h₂, h₃, h₄, h₅, h₆, h₇, h₈, h₉, h₁₀, h₁₁, h₁₂, h₁₃, h₁₄, h₁₅, h₁₆⟩ := h
  constructor <;> first
    | assumption
    | simp only [ne_eq, reduceCtorEq, not_false_eq_true, hmem, Job.plain.injEq]; assumption

theorem mem_attach : j ∈ (s.attach p r).queue ↔
    j ∈ s.queue ∨ ∃ y, s.settled p = some y ∧ .react r y = j := by
  rw [queue_attach, List.mem_append, Option.mem_toList, Option.map_eq_some_iff]

theorem Wired.link (h : s.Wired) : (s.attach .host .resolveTask).Wired ∧
    (s.attach .host .resolveTask).Spent (.plain .resolveThenable) := by
  have ht : (s.attach .host .resolveTask).threw = s.threw := rfl
  obtain ⟨h₁, h₂, h₃, h₄, h₅, h₆, h₇, h₈, h₉, h₁₀, h₁₁, h₁₂, h₁₃, h₁₄, h₁₅, h₁₆⟩ := h
  simp only [taskSettled] at h₉
  refine ⟨?_, ?_⟩
  · constructor <;>
      simp only [taskSettled, settled_attach, reactions_attach, handled_attach, mem_attach, ht,
        reduceCtorEq, if_true, if_false, false_and, true_and] <;> first | assumption | grind
  · simp only [Spent, settled_attach, reactions_attach, handled_attach, mem_attach, if_true,
      true_and]
    grind

theorem settleHost_cases (settles : Option (Except E T)) : s.settleHost settles = s ∨
    ∃ x, s.threw = none ∧ s.settled .host = none ∧ s.settleHost settles = s.settle .host x := by
  cases hthrew : s.threw with
  | some e =>
    refine .inl ?_
    unfold settleHost
    rw [hthrew]
  | none =>
    cases settles with
    | none =>
      refine .inl ?_
      unfold settleHost
      rw [hthrew]
    | some x =>
      have hsettle : s.settleHost (some x) = s.settle .host x := by
        unfold settleHost
        rw [hthrew]
      by_cases hp : s.settled .host = none
      · exact .inr ⟨x, rfl, hp, hsettle⟩
      · exact .inl (hsettle.trans (settle_eq_self hp))

theorem Wired.hostTurn (h : s.Wired) (turn : HostTurn T E) : (s.hostTurn turn).Wired := by
  have hsettle : ((s.leave turn.before).settleHost turn.settles).Wired := by
    rcases settleHost_cases (s := s.leave turn.before) turn.settles with hself | ⟨x, hthrew, hp, hx⟩
    · rw [hself]
      exact h.leave _
    · rw [hx]
      exact (h.leave _).settle hp hthrew
  exact hsettle.leave turn.after

theorem Wired.of_loop {s' : DeadlineCall T E} (h : s.Wired) (hloop : s'.loop = s.loop)
    (hthrew : s'.threw = s.threw) : s'.Wired := by
  obtain ⟨loop, timer, aborted, timeouts, uncaught, threw⟩ := s'
  dsimp only at hloop hthrew
  subst hloop hthrew
  exact ⟨h.1, h.2, h.3, h.4, h.5, h.6, h.7, h.8, h.9, h.10, h.11, h.12, h.13, h.14, h.15, h.16⟩

theorem Wired.clearTimeout (h : s.Wired) : s.clearTimeout.Wired := by
  unfold DeadlineCall.clearTimeout
  split
  · exact h.of_loop rfl rfl
  · exact h

theorem clearTimeout_taken : (s.taken rest).clearTimeout = s.clearTimeout.taken rest := by
  unfold clearTimeout
  have htimer : (s.taken rest).timer = s.timer := rfl
  rw [htimer]
  cases s.timer <;> rfl

theorem queue_clearTimeout : s.clearTimeout.queue = s.queue := by
  unfold clearTimeout
  cases s.timer <;> rfl

theorem settled_clearTimeout : s.clearTimeout.settled p = s.settled p := by
  unfold clearTimeout
  cases s.timer <;> rfl

def raceValue : Job Reaction PlainJob T E → Option (Except E T)
  | .react .resolveRace x => some x
  | _ => none

/-- What the race has settled to, or what the first job queued for it will settle it to. -/
def decided (s : DeadlineCall T E) : Option (Except E T) :=
  (s.settled .race).or (s.queue.findSome? raceValue)

theorem decided_of_append (s s' : DeadlineCall T E) {added : List (Job Reaction PlainJob T E)}
    (hrace : s'.settled .race = s.settled .race) (hq : s'.queue = s.queue ++ added) :
    s'.decided = s.decided.or (added.findSome? raceValue) := by
  rw [decided, decided, hrace, hq, List.findSome?_append, Option.or_assoc]

theorem decided_leave (jobs : ℕ) : (s.leave jobs).decided = s.decided := by
  have hnone : (List.replicate jobs (.plain .foreign : Job Reaction PlainJob T E)).findSome?
      raceValue = none := by
    rw [List.findSome?_eq_none_iff]
    intro j hj
    rw [List.eq_of_mem_replicate hj]
    rfl
  have happend := decided_of_append s (s.leave jobs) rfl rfl
  rwa [hnone, Option.or_none] at happend

theorem decided_settle (h : s.settled p = none) (hne : p ≠ .race) : (s.settle p x).decided =
    s.decided.or (((s.reactions p).map fun r => Job.react r x).findSome? raceValue) :=
  decided_of_append _ _ (by rw [settled_settle h, if_neg hne.symm]) (queue_settle h)

theorem Wired.decided_settle_host (h : s.Wired) (hp : s.settled .host = none) :
    (s.settle .host x).decided = s.decided := by
  have hnone : (((s.reactions .host).map fun r => Job.react r x).findSome? raceValue) = none := by
    rw [List.findSome?_eq_none_iff]
    intro j hj
    obtain ⟨r, hr, rfl⟩ := List.mem_map.mp hj
    rw [h.host_reactions r hr]
    rfl
  rw [decided_settle hp (by decide), hnone, Option.or_none]

theorem decided_race (h : s.settled .race = some x) : s.decided = some x := by
  rw [decided, h, Option.some_or]

theorem decided_skip (hq : s.queue = j :: rest) (hj : s.Spent j) :
    (s.taken rest).decided = s.decided := by
  have hrest : (s.taken rest).decided = (s.settled .race).or (rest.findSome? raceValue) := rfl
  rw [hrest, decided, hq]
  cases hrace : s.settled .race with
  | some y => rfl
  | none =>
    have hvalue : raceValue j = none := by
      unfold raceValue
      split
      · exact absurd hrace hj
      · rfl
    rw [List.findSome?_cons, hvalue]

theorem decided_attach (hr : r ≠ .resolveRace) : (s.attach p r).decided = s.decided := by
  have happend := decided_of_append s (s.attach p r) settled_attach queue_attach
  have hnone : (((s.settled p).map fun y => Job.react r y).toList).findSome?
      (raceValue (T := T) (E := E)) = none := by
    rw [List.findSome?_eq_none_iff]
    intro j hj
    obtain ⟨y, -, rfl⟩ := Option.map_eq_some_iff.mp (Option.mem_toList.mp hj)
    cases r with
    | resolveRace => exact absurd rfl hr
    | resolveTask => rfl
    | swallow => rfl
    | resume => rfl
  rwa [hnone, Option.or_none] at happend

section Timed
variable (tagged : GuardianError → E) (options : DeadlineOptions)

def expired : Except E T := .error (tagged (timeoutError options))

def outcome (s : DeadlineCall T E) : Option (Except E T) :=
  if s.timer = .fired then some (expired tagged options) else s.taskSettled

structure Timed (s : DeadlineCall T E) : Prop where
  waits : s.timer ≠ .fired → s.settled .deadline = none ∧ s.aborted = none ∧ s.timeouts = []
  cleared : s.timer = .armed ↔ s.timer ≠ .fired ∧ s.settled .result = none
  fired : s.timer = .fired → s.settled .deadline = some (expired tagged options) ∧
    s.aborted = some (abortMessage options) ∧
    s.timeouts = [(options.abstraction, options.ms)]
  uncaught : s.uncaught = []
  decided : ∀ x, s.decided = some x → s.outcome tagged options = some x

end Timed

variable {tagged : GuardianError → E} {options : DeadlineOptions}

theorem Timed.leave (h : s.Timed tagged options) (jobs : ℕ) :
    (s.leave jobs).Timed tagged options :=
  ⟨h.waits, h.cleared, h.fired, h.uncaught, fun x hx => h.decided x (decided_leave jobs ▸ hx)⟩

theorem Timed.skip (h : s.Timed tagged options) (hq : s.queue = j :: rest) (hj : s.Spent j) :
    (s.taken rest).Timed tagged options :=
  ⟨h.waits, h.cleared, h.fired, h.uncaught, fun x hx => h.decided x (decided_skip hq hj ▸ hx)⟩

theorem outcome_attach : (s.attach p r).outcome tagged options = s.outcome tagged options := by
  simp only [outcome, taskSettled, settled_attach]
  rfl

theorem Timed.link (h : s.Timed tagged options) :
    (s.attach .host .resolveTask).Timed tagged options where
  waits := settled_attach (s := s) (p := .host) ▸ h.waits
  cleared := settled_attach (s := s) (p := .host) ▸ h.cleared
  fired := settled_attach (s := s) (p := .host) ▸ h.fired
  uncaught := h.uncaught
  decided x hx := by
    rw [decided_attach (by decide)] at hx
    rw [outcome_attach]
    exact h.decided x hx

theorem outcome_settle {y : Except E T} (h : s.settled p = none)
    (hy : s.outcome tagged options = some y) : (s.settle p x).outcome tagged options = some y := by
  have htimer : (s.settle p x).timer = s.timer := rfl
  have hthrew : (s.settle p x).threw = s.threw := rfl
  unfold outcome at hy ⊢
  rw [htimer]
  split at hy
  · rename_i hfired
    rw [if_pos hfired, hy]
  · rename_i hfired
    rw [if_neg hfired]
    unfold taskSettled at hy ⊢
    rw [hthrew]
    cases hs : s.threw with
    | some e =>
      rw [hs] at hy
      exact hy
    | none =>
      rw [hs] at hy
      have hne : PromiseId.host ≠ p := by
        rintro rfl
        rw [h] at hy
        cases hy
      change (s.settle p x).settled .host = some y
      rw [settled_settle h, if_neg hne]
      exact hy

theorem Timed.not_fired (h : s.Timed tagged options) (hw : s.Wired) (hnone : s.decided = none) :
    s.timer ≠ .fired := by
  intro hfired
  obtain ⟨hrace, hqueue⟩ := Option.or_eq_none_iff.mp hnone
  have hjob := hw.deadline_moves _ hrace (h.fired hfired).1
  cases List.findSome?_eq_none_iff.mp hqueue _ hjob

theorem Timed.settle (h : s.Timed tagged options) (hw : s.Wired) (hp : s.settled p = none)
    (hx : s.Permits p x) (hkind : p = .host ∨ p = .task ∨ p = .race ∧ s.decided = some x) :
    (s.settle p x).Timed tagged options := by
  have htimer : (s.settle p x).timer = s.timer := rfl
  have hdeadline : (s.settle p x).settled .deadline = s.settled .deadline := by
    rw [settled_settle hp, if_neg (by rintro rfl; simp at hkind)]
  have hresult : (s.settle p x).settled .result = s.settled .result := by
    rw [settled_settle hp, if_neg (by rintro rfl; simp at hkind)]
  refine ⟨?_, ?_, ?_, h.uncaught, fun y hy => ?_⟩
  · rw [htimer, hdeadline]
    exact h.waits
  · rw [htimer, hresult]
    exact h.cleared
  · rw [htimer, hdeadline]
    exact h.fired
  · rcases hkind with rfl | rfl | ⟨rfl, hfirst⟩
    · rw [hw.decided_settle_host hp] at hy
      exact outcome_settle hp (h.decided y hy)
    · rw [decided_settle hp (by decide), hw.task_reactions hp] at hy
      cases hdecided : s.decided with
      | some z =>
        rw [hdecided, Option.some_or] at hy
        exact outcome_settle hp (h.decided y (hdecided.trans hy))
      | none =>
        rw [hdecided, Option.none_or] at hy
        obtain rfl : x = y := Option.some.inj hy
        refine outcome_settle hp ?_
        rw [outcome, if_neg (h.not_fired hw hdecided)]
        exact hx
    · have hsettled : (s.settle .race x).settled .race = some x := by simp [settled_settle hp]
      rw [decided_race hsettled] at hy
      obtain rfl : x = y := Option.some.inj hy
      exact outcome_settle hp (h.decided x hfirst)

theorem clearTimeout_timer : s.clearTimeout.timer ≠ .armed ∧
    (s.clearTimeout.timer = .fired ↔ s.timer = .fired) := by
  unfold clearTimeout
  cases htimer : s.timer <;> simp [htimer]

theorem clearTimeout_keeps : s.clearTimeout.aborted = s.aborted ∧
    s.clearTimeout.timeouts = s.timeouts ∧ s.clearTimeout.uncaught = s.uncaught ∧
      s.clearTimeout.threw = s.threw := by
  unfold clearTimeout
  cases s.timer <;> exact ⟨rfl, rfl, rfl, rfl⟩

theorem outcome_clearTimeout :
    s.clearTimeout.outcome tagged options = s.outcome tagged options := by
  simp only [outcome, clearTimeout_timer.2, taskSettled, clearTimeout_keeps.2.2.2,
    settled_clearTimeout]

theorem decided_clearTimeout : s.clearTimeout.decided = s.decided := by
  rw [decided, decided, settled_clearTimeout, queue_clearTimeout]

theorem Timed.resume (h : s.Timed tagged options) (hw : s.Wired) :
    (s.clearTimeout.settle .result x).Timed tagged options := by
  by_cases hp : s.settled .result = none
  · have hclear : s.clearTimeout.settled .result = none := settled_clearTimeout.trans hp
    obtain ⟨hnever, hfired⟩ := clearTimeout_timer (s := s)
    obtain ⟨haborted, htimeouts, huncaught, -⟩ := clearTimeout_keeps (s := s)
    have hdeadline : (s.clearTimeout.settle .result x).settled .deadline =
        s.settled .deadline := by
      rw [settled_settle hclear, if_neg (by decide), settled_clearTimeout]
    refine ⟨fun hne => ?_, ?_, fun hf => ?_, huncaught.trans h.uncaught, fun y hy => ?_⟩
    · rw [hdeadline]
      obtain ⟨hwaits, ha, ht⟩ := h.waits fun hf => hne (hfired.mpr hf)
      exact ⟨hwaits, haborted.trans ha, htimeouts.trans ht⟩
    · refine iff_of_false hnever fun hboth => ?_
      simp [settled_settle hclear] at hboth
    · rw [hdeadline]
      obtain ⟨hd, ha, ht⟩ := h.fired (hfired.mp hf)
      exact ⟨hd, haborted.trans ha, htimeouts.trans ht⟩
    · have hreactions : s.clearTimeout.reactions .result = [] := hw.clearTimeout.result_reactions
      rw [decided_settle hclear (by decide), hreactions, List.map_nil, List.findSome?_nil,
        Option.or_none, decided_clearTimeout] at hy
      exact outcome_settle hclear (outcome_clearTimeout.trans (h.decided y hy))
  · have hclear : s.clearTimeout = s := by
      unfold clearTimeout
      cases hs : s.timer with
      | armed => exact absurd (h.cleared.mp hs).2 hp
      | fired => rfl
      | cleared => rfl
    rw [hclear, settle_eq_self hp]
    exact h

structure InOrder (tagged : GuardianError → E) (options : DeadlineOptions)
    (s : DeadlineCall T E) : Prop where
  wired : s.Wired
  timed : s.Timed tagged options

/-- The order is kept, and so is what has settled or is fixed; the timer fires only before the
outcome is fixed. -/
structure Advances (tagged : GuardianError → E) (options : DeadlineOptions)
    (s s' : DeadlineCall T E) : Prop where
  order : s'.InOrder tagged options
  settled : ∀ p x, s.settled p = some x → s'.settled p = some x
  outcome : ∀ x, s.outcome tagged options = some x → s'.outcome tagged options = some x
  fired : s.timer = .fired → s'.timer = .fired
  first : s'.timer = .fired → s.timer = .fired ∨ s.outcome tagged options = none

theorem Advances.trans {s₁ s₂ s₃ : DeadlineCall T E} (h : Advances tagged options s₁ s₂)
    (h' : Advances tagged options s₂ s₃) : Advances tagged options s₁ s₃ :=
  { order := h'.order
    settled := fun p x hx => h'.settled p x (h.settled p x hx)
    outcome := fun x hx => h'.outcome x (h.outcome x hx)
    fired := fun hfired => h'.fired (h.fired hfired)
    first := fun hfired => by
      rcases h'.first hfired with hearlier | hnone
      · exact h.first hearlier
      · refine .inr (Option.eq_none_iff_forall_ne_some.mpr fun x hx => ?_)
        rw [h.outcome x hx] at hnone
        cases hnone }

theorem InOrder.refl (h : s.InOrder tagged options) : Advances tagged options s s :=
  ⟨h, fun _ _ hx => hx, fun _ hx => hx, id, .inl⟩

section Operations
variable (h : s.InOrder tagged options)
include h

theorem InOrder.leave (jobs : ℕ) : Advances tagged options s (s.leave jobs) :=
  ⟨⟨h.wired.leave jobs, h.timed.leave jobs⟩, fun _ _ hx => hx, fun _ hx => hx, id, .inl⟩

theorem InOrder.skip (hq : s.queue = j :: rest) (hj : s.Spent j) :
    Advances tagged options s (s.taken rest) :=
  ⟨⟨h.wired.skip hq hj, h.timed.skip hq hj⟩, fun _ _ hx => hx, fun _ hx => hx, id, .inl⟩

theorem InOrder.settle (hx : s.Permits p x) (hkind : p = .host ∨ p = .task ∨
    p = .race ∧ (s.settled .race = none → s.decided = some x)) :
    Advances tagged options s (s.settle p x) := by
  by_cases hp : s.settled p = none
  · refine ⟨⟨h.wired.settle hp hx, h.timed.settle h.wired hp hx ?_⟩,
      fun _ _ => Loop.settled_settle, fun y hy => outcome_settle hp hy, id, .inl⟩
    rcases hkind with hkind | hkind | ⟨rfl, hkind⟩
    · exact .inl hkind
    · exact .inr (.inl hkind)
    · exact .inr (.inr ⟨rfl, hkind hp⟩)
  · rw [settle_eq_self hp]
    exact h.refl

theorem InOrder.link : Advances tagged options s (s.attach .host .resolveTask) := by
  refine ⟨⟨h.wired.link.1, h.timed.link⟩, fun p x hx => ?_, fun x hx => ?_, id, .inl⟩
  · rwa [settled_attach]
  · rwa [outcome_attach]

theorem InOrder.resume (hx : s.settled .race = some x) :
    Advances tagged options s (s.clearTimeout.settle .result x) := by
  have hwired := h.wired.clearTimeout
  have hfired := (clearTimeout_timer (s := s)).2
  have hsettled : ∀ p y, s.settled p = some y →
      (s.clearTimeout.settle .result x).settled p = some y := fun p y hy =>
    Loop.settled_settle (settled_clearTimeout.trans hy)
  by_cases hp : s.clearTimeout.settled .result = none
  · have hpermits : s.clearTimeout.Permits .result x := settled_clearTimeout.trans hx
    exact ⟨⟨hwired.settle hp hpermits, h.timed.resume h.wired⟩, hsettled,
      fun y hy => outcome_settle hp (outcome_clearTimeout.trans hy), hfired.mpr,
      fun hf => .inl (hfired.mp hf)⟩
  · refine ⟨⟨?_, h.timed.resume h.wired⟩, hsettled, fun y hy => ?_, hfired.mpr,
      fun hf => .inl (hfired.mp hf)⟩
    · rwa [settle_eq_self hp]
    · rwa [settle_eq_self hp, outcome_clearTimeout]

theorem InOrder.hostTurn (turn : HostTurn T E) : Advances tagged options s (s.hostTurn turn) := by
  have hleave := h.leave turn.before
  have hsettle : Advances tagged options (s.leave turn.before)
      ((s.leave turn.before).settleHost turn.settles) := by
    rcases settleHost_cases (s := s.leave turn.before) turn.settles with hself | ⟨x, hthrew, -, hx⟩
    · rw [hself]
      exact hleave.order.refl
    · rw [hx]
      exact hleave.order.settle hthrew (.inl rfl)
  exact (hleave.trans hsettle).trans (hsettle.order.leave turn.after)

theorem InOrder.pass (hq : s.queue = j :: rest) (hx : s.Permits p x) (hkind : p = .task ∨
    p = .race ∧ (s.settled .race = none → s.decided = some x))
    (hspent : ∀ s' : DeadlineCall T E, s'.settled p ≠ none → s'.Spent j) :
    Advances tagged options s ((s.taken rest).settle p x) := by
  obtain ⟨rest', hq', htaken⟩ := settle_taken (p := p) (x := x) hq
  have hsettle := h.settle hx (.inr hkind)
  rw [← htaken]
  exact hsettle.trans (hsettle.order.skip hq' (hspent _ settled_of_settle))

theorem InOrder.runJob (turn : HostTurn T E) (hq : s.queue = j :: rest) :
    Advances tagged options s ((s.taken rest).runJob turn j) := by
  have hmem : j ∈ s.queue := hq ▸ .head _
  rcases j with ⟨r, x⟩ | k
  · cases r with
    | resolveTask =>
      obtain ⟨hthrew, hhost⟩ := h.wired.resolveTask x hmem
      refine h.pass (p := .task) hq ?_ (.inl rfl) fun s' hs' => hs'
      rw [Permits, taskSettled, hthrew]
      exact hhost
    | swallow => exact h.skip hq trivial
    | resolveRace =>
      refine h.pass (p := .race) hq trivial (.inr ⟨rfl, fun hrace => ?_⟩) fun s' hs' => hs'
      rw [decided, hrace, Option.none_or, hq]
      rfl
    | resume =>
      change Advances tagged options s
        (((s.taken rest).clearTimeout.settle .result x).leave turn.before)
      rw [clearTimeout_taken]
      obtain ⟨rest', hq', htaken⟩ := settle_taken (s := s.clearTimeout) (p := .result) (x := x)
        (queue_clearTimeout.trans hq)
      have hresume := h.resume (h.wired.resume x hmem)
      rw [← htaken]
      have hskip := hresume.order.skip hq' settled_of_settle
      exact (hresume.trans hskip).trans (hskip.order.leave turn.before)
  · cases k with
    | resolveThenable =>
      obtain ⟨rest', hq', htaken⟩ := attach_taken (p := .host) (r := .resolveTask) hq
      change Advances tagged options s ((s.taken rest).attach .host .resolveTask)
      rw [← htaken]
      exact h.link.trans (h.link.order.skip hq' h.wired.link.2)
    | foreign =>
      have hskip := h.skip hq trivial
      exact hskip.trans (hskip.order.hostTurn turn)

end Operations

theorem hostTurn_keeps (turn : HostTurn T E) : (s.hostTurn turn).timer = s.timer ∧
    (s.hostTurn turn).aborted = s.aborted ∧ (s.hostTurn turn).timeouts = s.timeouts ∧
      (s.hostTurn turn).uncaught = s.uncaught := by
  unfold hostTurn settleHost
  split <;> exact ⟨rfl, rfl, rfl, rfl⟩

theorem settled_hostTurn (turn : HostTurn T E) (hne : p ≠ .host) :
    (s.hostTurn turn).settled p = s.settled p := by
  change ((s.leave turn.before).settleHost turn.settles).settled p = _
  rcases settleHost_cases (s := s.leave turn.before) turn.settles with hself | ⟨x, -, hp, hx⟩
  · rw [hself]
    rfl
  · rw [hx, settled_settle hp, if_neg hne]
    rfl

theorem settled_mono_hostTurn (turn : HostTurn T E) (h : s.settled p = some x) :
    (s.hostTurn turn).settled p = some x := by
  change ((s.leave turn.before).settleHost turn.settles).settled p = _
  rcases settleHost_cases (s := s.leave turn.before) turn.settles with hself | ⟨y, -, -, hy⟩
  · rw [hself]
    exact h
  · rw [hy]
    exact Loop.settled_settle h

theorem decided_hostTurn (hw : s.Wired) (turn : HostTurn T E) :
    (s.hostTurn turn).decided = s.decided := by
  change (((s.leave turn.before).settleHost turn.settles).leave turn.after).decided = _
  rw [decided_leave]
  rcases settleHost_cases (s := s.leave turn.before) turn.settles with hself | ⟨x, -, hp, hx⟩
  · rw [hself, decided_leave]
  · rw [hx, (hw.leave turn.before).decided_settle_host hp, decided_leave]

theorem abort_eq (h : s.aborted = none) (reason : String) (listener : HostTurn T E) :
    abort reason listener s =
      (.ok (), { s with aborted := some reason }.hostTurn listener) := by
  obtain ⟨loop, timer, aborted, timeouts, uncaught, threw⟩ := s
  obtain rfl : aborted = none := h
  rfl

theorem callback_bind {α β : Type} {a : Callback T E α} {f : α → Callback T E β} {v : α}
    {s' : DeadlineCall T E} (h : a s = (.ok v, s')) : (a >>= f) s = f v s' := by
  have hrun : (a >>= f) s = ExceptT.bindCont f (a s).1 (a s).2 := rfl
  rw [hrun, h]
  rfl

theorem logged_eq (options : DeadlineOptions) (logger : LoggerCall T E) :
    (tryCatch (logTimeout options logger) fun _ => pure () : Callback T E Unit) s =
      (.ok (), { s with
        timeouts := s.timeouts ++ [(options.abstraction, options.ms)] }.hostTurn logger.turn) := by
  obtain ⟨turn, throws⟩ := logger
  cases throws <;> rfl

/-- The timer fires: the signal is aborted and the deadline rejected before the logger is called. -/
theorem fire_eq (h : s.aborted = none) (listener : HostTurn T E) (logger : LoggerCall T E) :
    let aborted := { s with timer := .fired, aborted := some (abortMessage options) }.hostTurn
      listener
    let rejected := aborted.settle .deadline (expired tagged options)
    s.fire tagged options listener logger =
      { rejected with
        timeouts := rejected.timeouts ++ [(options.abstraction, options.ms)] }.hostTurn
          logger.turn := by
  intro aborted rejected
  have habort := abort_eq (s := { s with timer := .fired }) h (abortMessage options) listener
  have hlogged := logged_eq (s := rejected) options logger
  have hrun : onTimeout tagged options listener logger { s with timer := .fired } = (.ok (),
      { rejected with
        timeouts := rejected.timeouts ++ [(options.abstraction, options.ms)] }.hostTurn
          logger.turn) := by
    have hreject : (modify (settle .deadline (expired tagged options)) : Callback T E Unit)
        aborted = (.ok (), rejected) := rfl
    rw [onTimeout]
    exact (callback_bind habort).trans ((callback_bind hreject).trans hlogged)
  rw [fire, hrun]

section Fire
variable (h : s.InOrder tagged options)
include h

theorem InOrder.result_outcome (hx : s.settled .result = some x) :
    s.outcome tagged options = some x :=
  h.timed.decided x (decided_race (h.wired.result x hx))

theorem InOrder.idle (hq : s.queue = []) : s.settled .result = s.outcome tagged options := by
  have hw := h.wired
  have hnojob : ∀ j, j ∉ s.queue := fun j => hq ▸ List.not_mem_nil
  cases hresult : s.settled .result with
  | some x => exact (h.result_outcome hresult).symm
  | none =>
    have hrace : s.settled .race = none := Option.eq_none_iff_forall_ne_some.mpr fun x hx =>
      hnojob _ (hw.race_moves x hresult hx)
    have htask : s.settled .task = none := Option.eq_none_iff_forall_ne_some.mpr fun x hx =>
      hnojob _ (hw.task_moves x hrace hx)
    have htimer : s.timer ≠ .fired := fun hfired =>
      hnojob _ (hw.deadline_moves _ hrace (h.timed.fired hfired).1)
    rw [outcome, if_neg htimer, taskSettled]
    cases hthrew : s.threw with
    | some e =>
      rw [(hw.threw e hthrew).1] at htask
      cases htask
    | none =>
      refine (Option.eq_none_iff_forall_ne_some.mpr fun x hx => ?_).symm
      rcases hw.host_moves x hthrew htask hx with hjob | hjob
      · exact hnojob _ hjob
      · exact hnojob _ hjob

omit h in
theorem Timed.of_fired (htimer : s.timer = .fired)
    (hdeadline : s.settled .deadline = some (expired tagged options))
    (haborted : s.aborted = some (abortMessage options))
    (htimeouts : s.timeouts = [(options.abstraction, options.ms)]) (huncaught : s.uncaught = [])
    (hdecided : s.decided = some (expired tagged options)) : s.Timed tagged options := by
  refine ⟨fun hne => absurd htimer hne, ?_, fun _ => ⟨hdeadline, haborted, htimeouts⟩, huncaught,
    fun x hx => ?_⟩
  · exact iff_of_false (by simp [htimer]) fun hboth => hboth.1 htimer
  · rw [outcome, if_pos htimer, ← hdecided, hx]

/-- When the timer fires, nothing is in line for the race but the rejection of the deadline. -/
theorem InOrder.fire (hq : s.queue = []) (htimer : s.timer = .armed) (listener : HostTurn T E)
    (logger : LoggerCall T E) :
    Advances tagged options s (s.fire tagged options listener logger) := by
  obtain ⟨hfresh, hresult⟩ := h.timed.cleared.mp htimer
  obtain ⟨hdeadline, haborted, htimeouts⟩ := h.timed.waits hfresh
  have hnothing : s.outcome tagged options = none := (h.idle hq).symm.trans hresult
  have hline : s.decided = none := Option.eq_none_iff_forall_ne_some.mpr fun x hx => by
    rw [h.timed.decided x hx] at hnothing
    cases hnothing
  rw [fire_eq haborted]
  generalize hs₁ : { s with timer := .fired, aborted := some (abortMessage options) } = s₁
  have hw₁ : s₁.Wired := h.wired.of_loop (hs₁ ▸ rfl) (hs₁ ▸ rfl)
  -- Whatever the listener does, the line stays empty.
  obtain ⟨htimer₂, haborted₂, htimeouts₂, huncaught₂⟩ := hostTurn_keeps (s := s₁) listener
  have hdeadline₂ : (s₁.hostTurn listener).settled .deadline = none := by
    rw [settled_hostTurn listener (by decide), ← hs₁]
    exact hdeadline
  have hline₂ : (s₁.hostTurn listener).decided = none := by
    rw [decided_hostTurn hw₁, ← hs₁]
    exact hline
  have hsettled₂ : ∀ p x, s.settled p = some x → (s₁.hostTurn listener).settled p = some x :=
    fun p x hx => settled_mono_hostTurn listener (by rw [← hs₁]; exact hx)
  have hw₂ := hw₁.hostTurn listener
  generalize s₁.hostTurn listener = s₂ at *
  have hdecided : (s₂.settle .deadline (expired tagged options)).decided =
      some (expired tagged options) := by
    rw [decided_settle hdeadline₂ (by decide), hline₂, hw₂.deadline_reactions hdeadline₂]
    rfl
  have horder : InOrder tagged options { s₂.settle .deadline (expired tagged options) with
      timeouts := (s₂.settle .deadline (expired tagged options)).timeouts ++
        [(options.abstraction, options.ms)] } := by
    refine ⟨(hw₂.settle hdeadline₂ trivial).of_loop rfl rfl, .of_fired ?_ ?_ ?_ ?_ ?_ hdecided⟩
    · exact htimer₂.trans (hs₁ ▸ rfl)
    · exact (settled_settle hdeadline₂).trans (if_pos rfl)
    · exact haborted₂.trans (hs₁ ▸ rfl)
    · change s₂.timeouts ++ _ = _
      rw [htimeouts₂, ← hs₁]
      exact congrArg (· ++ [(options.abstraction, options.ms)]) htimeouts
    · exact huncaught₂.trans (hs₁ ▸ h.timed.uncaught)
  have hlogged := horder.hostTurn logger.turn
  refine ⟨hlogged.order, fun p x hx => hlogged.settled p x ?_, fun x hx => ?_,
    fun hfired => absurd hfired hfresh, fun _ => .inr hnothing⟩
  · exact Loop.settled_settle (hsettled₂ p x hx)
  · rw [hnothing] at hx
    cases hx

end Fire

structure Called (s : DeadlineCall T E) : Prop where
  timer : s.timer = .armed
  quiet : s.aborted = none ∧ s.timeouts = [] ∧ s.uncaught = []
  pending : ∀ p, p ≠ .host → p ≠ .task → s.settled p = none
  reactions : ∀ p, s.reactions p = []
  queue : ∀ j ∈ s.queue, j = .plain .foreign ∨ j = .plain .resolveThenable
  linked : s.threw = none → s.settled .task = none ∧ .plain .resolveThenable ∈ s.queue
  threw : ∀ e, s.threw = some e → s.settled .task = some (.error e) ∧ s.settled .host = none

theorem foreign_of_leave {jobs : ℕ} (h : ∀ j ∈ s.queue, j = .plain .foreign) :
    ∀ j ∈ (s.leave jobs).queue, j = .plain .foreign := fun j hj => by
  rcases List.mem_append.mp hj with hj | hj
  · exact h j hj
  · exact List.eq_of_mem_replicate hj

theorem hostTurn_unwired (hreactions : ∀ p, s.reactions p = [])
    (hqueue : ∀ j ∈ s.queue, j = .plain .foreign) (turn : HostTurn T E) :
    (∀ p, (s.hostTurn turn).reactions p = []) ∧
      ∀ j ∈ (s.hostTurn turn).queue, j = .plain .foreign := by
  have hsettle : (∀ p, ((s.leave turn.before).settleHost turn.settles).reactions p = []) ∧
      ∀ j ∈ ((s.leave turn.before).settleHost turn.settles).queue, j = .plain .foreign := by
    rcases settleHost_cases (s := s.leave turn.before) turn.settles with hself | ⟨x, -, hp, hx⟩
    · rw [hself]
      exact ⟨hreactions, foreign_of_leave hqueue⟩
    · rw [hx]
      refine ⟨fun p => ?_, fun j hj => ?_⟩
      · rw [reactions_settle hp]
        split
        · rfl
        · exact hreactions p
      · rcases (mem_settle hp).mp hj with hj | ⟨r, hr, -⟩
        · exact foreign_of_leave hqueue j hj
        · exact absurd (hreactions .host ▸ hr) List.not_mem_nil
  exact ⟨hsettle.1, foreign_of_leave hsettle.2⟩

theorem called_start (queued : ℕ) (run : RunCall T E) : ((start queued).callRun run).Called := by
  have hstart : ∀ j ∈ (start queued : DeadlineCall T E).queue, j = .plain .foreign := fun j hj =>
    List.eq_of_mem_replicate hj
  cases run with
  | returned turn =>
    obtain ⟨htimer, haborted, htimeouts, huncaught⟩ :=
      hostTurn_keeps (s := (start queued : DeadlineCall T E)) turn
    obtain ⟨hreactions, hqueue⟩ := hostTurn_unwired (fun p => rfl) hstart turn
    have hthrew : ((start queued).hostTurn turn : DeadlineCall T E).threw = none := by
      unfold hostTurn settleHost
      split <;> rfl
    refine ⟨htimer, ⟨haborted, htimeouts, huncaught⟩, fun p hne _ => settled_hostTurn turn hne,
      hreactions, fun j hj => ?_, fun _ => ⟨settled_hostTurn turn (by decide), ?_⟩, fun e he => ?_⟩
    · rcases List.mem_append.mp hj with hj | hj
      · exact .inl (hqueue j hj)
      · exact .inr (List.mem_singleton.mp hj)
    · exact List.mem_append_right _ (.head _)
    · cases hthrew.symm.trans he
  | threw jobs error =>
    have hp : ({ (start queued : DeadlineCall T E).leave jobs with threw := some error } :
      DeadlineCall T E).settled .task = none := rfl
    refine ⟨rfl, ⟨rfl, rfl, rfl⟩, fun p _ hne => ?_, fun p => ?_, fun j hj => ?_, fun h => ?_,
      fun e he => ?_⟩
    · exact (settled_settle hp).trans (if_neg hne)
    · refine (reactions_settle hp).trans ?_
      split <;> rfl
    · rcases (mem_settle hp).mp hj with hj | ⟨r, hr, -⟩
      · exact .inl (foreign_of_leave hstart j hj)
      · cases hr
    · cases h
    · cases he
      exact ⟨(settled_settle hp).trans (if_pos rfl),
        (settled_settle hp).trans (if_neg (by decide))⟩

theorem Called.inOrder (h : s.Called) : (s.attach .task .swallow
    |>.attach .task .resolveRace
    |>.attach .deadline .resolveRace
    |>.attach .race .resume).InOrder tagged options := by
  obtain ⟨htimer, ⟨haborted, htimeouts, huncaught⟩, hpending, hreactions, hqueue, hlinked,
    hthrew⟩ := h
  have hdeadline := hpending .deadline (by decide) (by decide)
  have hrace := hpending .race (by decide) (by decide)
  have hresult := hpending .result (by decide) (by decide)
  generalize hs : (s.attach .task .swallow
    |>.attach .task .resolveRace
    |>.attach .deadline .resolveRace
    |>.attach .race .resume) = s'
  have ht : s'.threw = s.threw := hs ▸ rfl
  have hsettled : ∀ p, s'.settled p = s.settled p := by
    intro p
    rw [← hs, settled_attach, settled_attach, settled_attach, settled_attach]
  have hmem : ∀ j, j ∈ s'.queue ↔ j ∈ s.queue ∨
      ∃ y, s.settled .task = some y ∧ (j = .react .swallow y ∨ j = .react .resolveRace y) := by
    intro j
    rw [← hs]
    simp only [mem_attach, settled_attach, hdeadline, hrace]
    grind
  have hr : s'.reactions .host = [] ∧
      (s.settled .task = none → s'.reactions .task = [.swallow, .resolveRace]) ∧
      s'.reactions .deadline = [.resolveRace] ∧ s'.reactions .race = [.resume] ∧
      s'.reactions .result = [] := by
    rw [← hs]
    simp only [reactions_attach, settled_attach, hdeadline, hrace, hreactions, reduceCtorEq,
      false_and, true_and, if_true, if_false]
    grind
  have hh : ∀ p, p = .task ∨ p = .deadline ∨ p = .race → s'.handled p = true := by
    rw [← hs]
    simp only [handled_attach]
    grind
  have hw : s'.Wired := by
    obtain ⟨hr₁, hr₂, hr₃, hr₄, hr₅⟩ := hr
    constructor <;> grind [taskSettled]
  have htimer' : s'.timer = .armed := hs ▸ htimer
  refine ⟨hw, fun _ => ?_, ?_, fun hfired => ?_, hs ▸ huncaught, fun x hx => ?_⟩
  · exact ⟨(hsettled .deadline).trans hdeadline, hs ▸ haborted, hs ▸ htimeouts⟩
  · simp [htimer', hsettled, hresult]
  · rw [htimer'] at hfired
    cases hfired
  · have hjob : ∃ j ∈ s'.queue, raceValue j = some x := by
      rw [DeadlineCall.decided, hsettled, hrace, Option.none_or] at hx
      exact List.exists_of_findSome?_eq_some hx
    obtain ⟨j, hj, hvalue⟩ := hjob
    rw [outcome, htimer', if_neg (by decide)]
    rcases (hmem j).mp hj with hj | ⟨y, hy, rfl | rfl⟩
    · rcases hqueue j hj with rfl | rfl <;> cases hvalue
    · cases hvalue
    · cases hvalue
      exact hw.task x ((hsettled .task).trans hy)

theorem inOrder_start (queued : ℕ) (run : RunCall T E) :
    (withAbstractionDeadline queued run).InOrder tagged options :=
  (called_start queued run).inOrder

theorem step_cases {turn : Turn T E} {s' : DeadlineCall T E}
    (h : s.step tagged options turn = some s') :
    (∃ t j rest, turn = .job t ∧ s.queue = j :: rest ∧ s' = (s.taken rest).runJob t j) ∨
    (∃ t, turn = .host t ∧ s.queue = [] ∧ s' = s.hostTurn t) ∨
    ∃ listener logger, turn = .timer listener logger ∧ s.queue = [] ∧ s.timer = .armed ∧
      s' = s.fire tagged options listener logger := by
  unfold step at h
  split at h
  · split at h
    · cases h
    · rename_i j rest hq
      exact .inl ⟨_, j, rest, rfl, hq, (Option.some.inj h).symm⟩
  · split at h
    · rename_i hq
      exact .inr (.inl ⟨_, rfl, List.isEmpty_iff.mp hq, (Option.some.inj h).symm⟩)
    · cases h
  · split at h
    · rename_i hready
      exact .inr (.inr ⟨_, _, rfl, List.isEmpty_iff.mp hready.1, hready.2,
        (Option.some.inj h).symm⟩)
    · cases h

theorem InOrder.step (h : s.InOrder tagged options) {turn : Turn T E} {s' : DeadlineCall T E}
    (hstep : s.step tagged options turn = some s') : Advances tagged options s s' := by
  rcases step_cases hstep with ⟨t, j, rest, -, hq, rfl⟩ | ⟨t, -, -, rfl⟩ |
    ⟨listener, logger, -, hq, htimer, rfl⟩
  · exact h.runJob t hq
  · exact h.hostTurn t
  · exact h.fire hq htimer listener logger

end DeadlineCall
end Guardian
