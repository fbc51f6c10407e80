import Guardian.Server.DeadlineOrder

/-!
# The race of a host call with its deadline

Over every run of the event loop: the first of the two events, the settlement of the task and the
firing of the timer, fixes what the caller gets, and nothing that comes later changes it or
escapes.
-/

namespace Guardian
open Double EventLoop

namespace DeadlineCall
variable {T E : Type} {tagged : GuardianError → E} {options : DeadlineOptions}
  {s s' : DeadlineCall T E}

def Reaches (tagged : GuardianError → E) (options : DeadlineOptions) (s : DeadlineCall T E)
    (turns : List (Turn T E)) (s' : DeadlineCall T E) : Prop :=
  Machine.Run (step tagged options) (fun _ _ => True) s turns s'

theorem InOrder.reaches (h : s.InOrder tagged options) {turns : List (Turn T E)}
    (hrun : Reaches tagged options s turns s') : Advances tagged options s s' :=
  hrun.invariant (I := Advances tagged options s) h.refl fun hkept _ hstep =>
    hkept.trans (hkept.order.step hstep)

/-- A throw that leaves the callback of the timer, or a rejection that is still not handled when
no job is queued. The result is the caller's to handle. -/
def Escapes (s : DeadlineCall T E) : Prop :=
  s.uncaught ≠ [] ∨ s.queue = [] ∧ ∃ p, p ≠ .result ∧ s.loop.Unhandled p

theorem InOrder.not_escapes (h : s.InOrder tagged options) : ¬s.Escapes := by
  rintro (hthrown | ⟨hq, p, hresult, ⟨e, hrejected⟩, hunhandled⟩)
  · exact hthrown h.timed.uncaught
  · have hhandled := h.wired.handled p
    cases p with
    | host =>
      have hthrew : s.threw = none := Option.eq_none_iff_forall_ne_some.mpr fun e he => by
        have hnone := (h.wired.threw e he).2
        cases hrejected.symm.trans hnone
      rcases h.wired.linked hthrew with hjob | ⟨hhost, -⟩
      · exact absurd (hq ▸ hjob) List.not_mem_nil
      · cases hhost.symm.trans hunhandled
    | task => cases (hhandled (.inl rfl)).symm.trans hunhandled
    | deadline => cases (hhandled (.inr (.inl rfl))).symm.trans hunhandled
    | race => cases (hhandled (.inr (.inr rfl))).symm.trans hunhandled
    | result => exact hresult rfl

theorem InOrder.fires_first (h : s.InOrder tagged options) {listener : HostTurn T E}
    {logger : LoggerCall T E} (hstep : s.step tagged options (.timer listener logger) = some s') :
    s.taskSettled = none ∧ s'.timer = .fired := by
  rcases step_cases hstep with ⟨t, j, rest, hturn, -⟩ | ⟨t, hturn, -⟩ |
    ⟨listener', logger', hturn, hq, htimer, rfl⟩
  · cases hturn
  · cases hturn
  · obtain ⟨hfresh, hresult⟩ := h.timed.cleared.mp htimer
    refine ⟨?_, ?_⟩
    · have hidle := (h.idle hq).symm.trans hresult
      rwa [outcome, if_neg hfresh] at hidle
    · rw [fire_eq (h.timed.waits hfresh).2.1]
      exact (hostTurn_keeps _).1.trans (hostTurn_keeps listener').1

theorem outcome_fired (h : s.timer = .fired) :
    s.outcome tagged options = some (expired tagged options) := if_pos h

def Unending (tagged : GuardianError → E) (options : DeadlineOptions)
    (states : ℕ → DeadlineCall T E) : Prop :=
  ∀ n, ∃ turn, (states n).step tagged options turn = some (states (n + 1))

theorem settle_appends (p : PromiseId) (x : Except E T) :
    ∃ added, (s.settle p x).queue = s.queue ++ added := by
  by_cases hp : s.settled p = none
  · exact ⟨_, queue_settle hp⟩
  · exact ⟨[], by rw [settle_eq_self hp, List.append_nil]⟩

theorem hostTurn_appends (turn : HostTurn T E) :
    ∃ added, (s.hostTurn turn).queue = s.queue ++ added := by
  have hsettle : ∃ added, ((s.leave turn.before).settleHost turn.settles).queue =
      s.queue ++ added := by
    rcases settleHost_cases (s := s.leave turn.before) turn.settles with hself | ⟨x, -, -, hx⟩
    · exact ⟨_, by rw [hself]; rfl⟩
    · obtain ⟨added, hadded⟩ := settle_appends (s := s.leave turn.before) .host x
      refine ⟨List.replicate turn.before (.plain .foreign) ++ added, ?_⟩
      rw [hx, hadded, ← List.append_assoc]
      rfl
  obtain ⟨added, hadded⟩ := hsettle
  refine ⟨added ++ List.replicate turn.after (.plain .foreign), ?_⟩
  rw [← List.append_assoc, ← hadded]
  rfl

theorem runJob_appends (turn : HostTurn T E) (j : Job Reaction PlainJob T E) :
    ∃ added, (s.runJob turn j).queue = s.queue ++ added := by
  rcases j with ⟨r, x⟩ | k
  · cases r with
    | resolveTask => exact settle_appends .task x
    | swallow => exact ⟨[], (List.append_nil _).symm⟩
    | resolveRace => exact settle_appends .race x
    | resume =>
      obtain ⟨added, hadded⟩ := settle_appends (s := s.clearTimeout) .result x
      refine ⟨added ++ List.replicate turn.before (.plain .foreign), ?_⟩
      rw [queue_clearTimeout] at hadded
      rw [← List.append_assoc, ← hadded]
      rfl
  · cases k with
    | resolveThenable => exact ⟨_, queue_attach⟩
    | foreign => exact hostTurn_appends turn

theorem runJob_settles (turn : HostTurn T E) (x : Except E T) :
    (s.runJob turn (.react .resolveTask x)).settled .task ≠ none ∧
      (s.runJob turn (.react .resolveRace x)).settled .race ≠ none ∧
      (s.runJob turn (.react .resume x)).settled .result ≠ none :=
  ⟨settled_of_settle, settled_of_settle, settled_of_settle⟩

section Unending
variable {states : ℕ → DeadlineCall T E} (hrun : Unending tagged options states)
include hrun

theorem Unending.inOrder (h : (states 0).InOrder tagged options) (n : ℕ) :
    (states n).InOrder tagged options := by
  induction n with
  | zero => exact h
  | succ n ih =>
    obtain ⟨turn, hstep⟩ := hrun n
    exact (ih.step hstep).order

theorem Unending.advances (h : (states 0).InOrder tagged options) {n m : ℕ} (hle : n ≤ m) :
    Advances tagged options (states n) (states m) := by
  induction hle with
  | refl => exact (hrun.inOrder h n).refl
  | step _ ih =>
    obtain ⟨turn, hstep⟩ := hrun _
    exact ih.trans (ih.order.step hstep)

theorem Unending.runs {n : ℕ} {j : Job Reaction PlainJob T E} (hj : j ∈ (states n).queue) :
    ∃ m rest turn, n ≤ m ∧ (states m).queue = j :: rest ∧
      states (m + 1) = ((states m).taken rest).runJob turn j := by
  have hnext : ∀ n j rest, (states n).queue = j :: rest →
      ∃ turn, states (n + 1) = ((states n).taken rest).runJob turn j := by
    intro n j rest hq
    obtain ⟨turn, hstep⟩ := hrun n
    rcases step_cases hstep with ⟨t, j', rest', -, hq', hs⟩ | ⟨t, -, hq', -⟩ | ⟨_, _, -, hq', -⟩
    · obtain ⟨rfl, rfl⟩ := List.cons.inj (hq.symm.trans hq')
      exact ⟨t, hs⟩
    · cases hq.symm.trans hq'
    · cases hq.symm.trans hq'
  obtain ⟨m, rest, hle, hq⟩ := comes_to_front (fun n => (states n).queue)
    (fun n j rest hq => by
      obtain ⟨turn, hs⟩ := hnext n j rest hq
      rw [hs]
      exact runJob_appends turn j) hj
  obtain ⟨turn, hs⟩ := hnext m j rest hq
  exact ⟨m, rest, turn, hle, hq, hs⟩

theorem Unending.not_queued {n : ℕ} {p : PromiseId} {j : Job Reaction PlainJob T E}
    (hpending : ∀ m, n ≤ m → (states m).settled p = none)
    (hsettles : ∀ (s : DeadlineCall T E) turn, (s.runJob turn j).settled p ≠ none) {m : ℕ}
    (hle : n ≤ m) : j ∉ (states m).queue := fun hj => by
  obtain ⟨k, rest, turn, hk, -, hs⟩ := hrun.runs hj
  refine hsettles ((states k).taken rest) turn ?_
  rw [← hs]
  exact hpending (k + 1) (by omega)

theorem Unending.settles (h : (states 0).InOrder tagged options) {n : ℕ}
    (hfixed : (states n).outcome tagged options ≠ none) :
    ∃ m, n ≤ m ∧ (states m).settled .result ≠ none := by
  by_contra hnever
  have hw : ∀ m, (states m).Wired := fun m => (hrun.inOrder h m).wired
  have hresult : ∀ m, n ≤ m → (states m).settled .result = none := fun m hle => by
    by_contra hsettled
    exact hnever ⟨m, hle, hsettled⟩
  have hrace : ∀ m, n ≤ m → (states m).settled .race = none := fun m hle =>
    Option.eq_none_iff_forall_ne_some.mpr fun x hx =>
      hrun.not_queued hresult (fun _ turn => (runJob_settles turn x).2.2) hle
        ((hw m).race_moves x (hresult m hle) hx)
  have hline : ∀ x m, n ≤ m → .react .resolveRace x ∉ (states m).queue := fun x m =>
    hrun.not_queued hrace fun _ turn => (runJob_settles turn x).2.1
  have htask : ∀ m, n ≤ m → (states m).settled .task = none := fun m hle =>
    Option.eq_none_iff_forall_ne_some.mpr fun x hx =>
      hline x m hle ((hw m).task_moves x (hrace m hle) hx)
  have hwaiting : ∀ x m, n ≤ m → .react .resolveTask x ∉ (states m).queue := fun x m =>
    hrun.not_queued htask fun _ turn => (runJob_settles turn x).1
  -- Only the host's promise is left to have settled, and its wrapper learns of it.
  have htimer : (states n).timer ≠ .fired := fun hfired =>
    hline _ n le_rfl ((hw n).deadline_moves _ (hrace n le_rfl)
      ((hrun.inOrder h n).timed.fired hfired).1)
  rw [outcome, if_neg htimer, taskSettled] at hfixed
  cases hthrew : (states n).threw with
  | some e => cases ((hw n).threw e hthrew).1.symm.trans (htask n le_rfl)
  | none =>
    rw [hthrew] at hfixed
    obtain ⟨x, hx⟩ := Option.ne_none_iff_exists'.mp hfixed
    rcases (hw n).host_moves x hthrew (htask n le_rfl) hx with hjob | hjob
    · obtain ⟨m, rest, turn, hle, hq, hs⟩ := hrun.runs hjob
      refine hwaiting x (m + 1) (by omega) ?_
      rw [hs]
      refine mem_attach.mpr (.inr ⟨x, ?_, rfl⟩)
      exact (hrun.advances h hle).settled .host x hx
    · exact hwaiting x n le_rfl hjob

end Unending

/-- How the call ended, for the callers of `withAbstractionDeadline`. -/
def asRace (s : DeadlineCall T ThrownValue) : Race T :=
  if s.timer = .fired then .expired
  else match s.taskSettled with
    | some (.ok a) => .resolved a
    | some (.error thrown) => .rejected thrown
    | none => .expired

theorem InOrder.result_asRace {s : DeadlineCall T ThrownValue} {abstraction : String} {ms : ℚ}
    (h : s.InOrder .tagged ⟨.finite ms, abstraction⟩) (hms : 0 ≤ ms)
    {x : Except ThrownValue T} (hx : s.settled .result = some x) :
    Guardian.withAbstractionDeadline abstraction ms s.asRace = x := by
  have houtcome := h.result_outcome hx
  unfold outcome at houtcome
  unfold asRace
  split at houtcome
  · rename_i hfired
    rw [if_pos hfired, ← Option.some.inj houtcome]
    have htext : (JsNumber.finite ms).text = Double.text ms := if_neg (not_lt.mpr hms)
    simp only [Guardian.withAbstractionDeadline, expired, timeoutError, deadlineMessage, htext]
  · rename_i hfresh
    rw [if_neg hfresh, houtcome]
    cases x <;> rfl

/-- The first of the two events fixes what the caller gets. If the timer fires while the task is
pending, the signal is aborted and the caller gets the timeout, also when the task settles in that
turn; if the task settles first, the caller gets what it settled to and the timer never fires.
Nothing escapes, and in an unending run what is fixed reaches the caller. -/
theorem deadline_is_a_race (tagged : GuardianError → E) (options : DeadlineOptions) (queued : ℕ)
    (run : RunCall T E) (rest : HostTurn T E) :
    let start := (withAbstractionDeadline queued run).hostTurn rest
    (∀ turns s, Reaches tagged options start turns s →
      (∀ listener logger fired, s.step tagged options (.timer listener logger) = some fired →
        s.taskSettled = none ∧ ∀ later s', Reaches tagged options fired later s' →
          s'.aborted = some (abortMessage options) ∧
          s'.timeouts = [(options.abstraction, options.ms)] ∧ s'.timer = .fired ∧
          (∀ x, s'.settled .result = some x → x = expired tagged options) ∧
          (s'.queue = [] → s'.settled .result = some (expired tagged options))) ∧
      (∀ x, s.timer ≠ .fired → s.taskSettled = some x →
        ∀ later s', Reaches tagged options s later s' →
          s'.aborted = none ∧ s'.timeouts = [] ∧ s'.timer ≠ .fired ∧
          (∀ y, s'.settled .result = some y → y = x ∧ s'.timer = .cleared) ∧
          (s'.queue = [] → s'.settled .result = some x ∧ s'.timer = .cleared)) ∧
      (∀ x, s.settled .result = some x → s.timer = .fired ∨ s.taskSettled = some x) ∧
      ¬s.Escapes) ∧
    ∀ states : ℕ → DeadlineCall T E, states 0 = start → Unending tagged options states →
      ∀ n, (states n).timer = .fired ∨ (states n).taskSettled ≠ none →
        ∃ m, n ≤ m ∧ (states m).settled .result ≠ none := by
  intro start
  have hstart : start.InOrder tagged options := ((inOrder_start queued run).hostTurn rest).order
  refine ⟨fun turns s hrun => ?_, fun states hzero hunending n hevent => ?_⟩
  · have h := (hstart.reaches hrun).order
    refine ⟨fun listener logger fired hstep => ?_, fun x hfresh hsettled later s' hlater => ?_,
      fun x hx => ?_, h.not_escapes⟩
    · obtain ⟨hpending, hfired⟩ := h.fires_first hstep
      refine ⟨hpending, fun later s' hlater => ?_⟩
      have hafter := (h.step hstep).order.reaches hlater
      have htimer := hafter.fired hfired
      obtain ⟨-, haborted, htimeouts⟩ := hafter.order.timed.fired htimer
      refine ⟨haborted, htimeouts, htimer, fun x hx => ?_, fun hq => ?_⟩
      · have houtcome := hafter.order.result_outcome hx
        rw [outcome_fired htimer] at houtcome
        exact (Option.some.inj houtcome).symm
      · exact (hafter.order.idle hq).trans (outcome_fired htimer)
    · have hafter := h.reaches hlater
      have houtcome : s.outcome tagged options = some x := by
        rw [outcome, if_neg hfresh, hsettled]
      have htimer : s'.timer ≠ .fired := fun hfired => by
        rcases hafter.first hfired with hearlier | hnone
        · exact hfresh hearlier
        · cases houtcome.symm.trans hnone
      obtain ⟨-, haborted, htimeouts⟩ := hafter.order.timed.waits htimer
      have hresult : ∀ y, s'.settled .result = some y → y = x ∧ s'.timer = .cleared := by
        intro y hy
        refine ⟨Option.some.inj ((hafter.order.result_outcome hy).symm.trans
          (hafter.outcome x houtcome)), ?_⟩
        cases hs : s'.timer with
        | armed => cases hy.symm.trans (hafter.order.timed.cleared.mp hs).2
        | fired => exact absurd hs htimer
        | cleared => rfl
      refine ⟨haborted, htimeouts, htimer, hresult, fun hq => ?_⟩
      have hidle := (hafter.order.idle hq).trans (hafter.outcome x houtcome)
      exact ⟨hidle, (hresult x hidle).2⟩
    · have houtcome := h.result_outcome hx
      unfold outcome at houtcome
      split at houtcome
      · rename_i hfired
        exact .inl hfired
      · exact .inr houtcome
  · have hzero : (states 0).InOrder tagged options := hzero ▸ hstart
    refine hunending.settles hzero fun hnone => ?_
    unfold outcome at hnone
    split at hnone
    · cases hnone
    · rename_i hfresh
      rcases hevent with hfired | hsettled
      · exact hfresh hfired
      · exact hsettled hnone

end DeadlineCall

namespace Sample
open DeadlineCall

def signOptions : DeadlineOptions := ⟨.finite 6000, "sign"⟩

def quiet : HostTurn ℕ GuardianError := ⟨0, none, 0⟩

/-- The host answers in the listener of its signal, and the logger throws. -/
def lateTurns : List (Turn ℕ GuardianError) :=
  [.job quiet, .timer ⟨0, some (.ok 5), 0⟩ ⟨quiet, some (.internalError "log")⟩, .job quiet,
    .job quiet, .job quiet, .job quiet, .job quiet]

def lateCall : Option (DeadlineCall ℕ GuardianError) :=
  Machine.replay (step id signOptions)
    ((DeadlineCall.withAbstractionDeadline 0 (.returned quiet)).hostTurn quiet) lateTurns

end Sample

/-- An answer that the abort of the signal brings about comes too late. -/
theorem late_answer_dropped : ∃ s, Sample.lateCall = some s ∧
    s.settled .host = some (.ok 5) ∧
      s.settled .result = some (DeadlineCall.expired id Sample.signOptions) := by
  have hlater : ∀ {s s' : DeadlineCall ℕ GuardianError} {turns},
      Machine.replay (DeadlineCall.step id Sample.signOptions) s turns = some s' →
        DeadlineCall.Reaches id Sample.signOptions s turns s' := fun h =>
    Machine.run_of_replay h fun hstep => ⟨trivial, hstep⟩
  have hrace := (DeadlineCall.deadline_is_a_race id Sample.signOptions 0
    (.returned Sample.quiet) Sample.quiet).1 [.job Sample.quiet] _ (hlater rfl)
  obtain ⟨-, hafter⟩ := hrace.1 ⟨0, some (.ok 5), 0⟩ ⟨Sample.quiet, some (.internalError "log")⟩ _
    rfl
  obtain ⟨-, -, -, -, hresult⟩ := hafter [.job Sample.quiet, .job Sample.quiet, .job Sample.quiet,
    .job Sample.quiet, .job Sample.quiet] _ (hlater rfl)
  exact ⟨_, rfl, rfl, hresult rfl⟩

end Guardian
