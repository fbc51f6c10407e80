import Guardian.Defaults.Chain
import Guardian.Lib.Chunks

/-!
# The chunks of a role scan

Which spans of blocks a run of the scan asks logs for, whatever is answered: the chunks of the
window from its top down. An aborted signal and an exceeded budget stop it at a chunk boundary,
and a scan stopped before its window is read throws.
-/

namespace Guardian
open Effect Chunks

def span? : SigningEvent → Option Span
  | ⟨.getLogs _ _ fromBlock toBlock, _⟩ => some ⟨fromBlock, toBlock⟩
  | _ => none

def spans (tr : List SigningEvent) : List Span := tr.filterMap span?

def answeredLogs : SigningEvent → List Log
  | ⟨.getLogs .., answer⟩ =>
    match answer with
    | .ok logs => logs
    | .error _ => []
  | _ => []

def logsIn (tr : List SigningEvent) : List Log := tr.flatMap answeredLogs

def nextTop (args : ScanArgs) (tr : List SigningEvent) : ℤ := bottom args.latestBlock (spans tr)

def SeesDeployment (args : ScanArgs) (logs : List Log) : Prop :=
  ∃ l ∈ logs, ∃ f ∈ args.factories, l.deploys f args.requestContract

def Unfinished (args : ScanArgs) (top : ℤ) (logs : List Log) : Prop :=
  args.earliestAllowed ≤ top ∧ ¬ SeesDeployment args logs

def AbortedNow : SigningEvent → Prop
  | ⟨.signalAborted, aborted⟩ => aborted = true
  | _ => True

def OverBudgetNow (startedAt deadlineMs : ℤ) : SigningEvent → Prop
  | ⟨.dateNow, now⟩ => now - startedAt > deadlineMs
  | _ => True

section Loop
variable {args : ScanArgs} {startedAt toBlock : ℤ} {fuel : ℕ} {firstChunk : Bool}
  {st : ScanState} {seen : List Log} {tr : List SigningEvent}

theorem spans_append (tr tr' : List SigningEvent) : spans (tr ++ tr') = spans tr ++ spans tr' :=
  List.filterMap_append

theorem logsIn_append (tr tr' : List SigningEvent) :
    logsIn (tr ++ tr') = logsIn tr ++ logsIn tr' :=
  List.flatMap_append

theorem Seen.unmarked (h : Seen args seen st) :
    st.foundDeploymentBlock = none ↔ ¬ SeesDeployment args seen := by
  rcases h.marked with ⟨hnone, -, hnot⟩ | ⟨f, hf, l, hl, hsome, -, hdeploys⟩
  · refine iff_of_true hnone ?_
    rintro ⟨l, hl, f, hf, hdeploys⟩
    exact hnot l hl f hf hdeploys
  · rw [hsome]
    exact iff_of_false (by simp) (not_not.mpr ⟨l, hl, f, hf, hdeploys⟩)

def IsCheck : Op → Prop
  | .signalAborted => True
  | .dateNow => True
  | _ => False

theorem scanInterrupted_checks :
    (scanInterrupted args startedAt toBlock firstChunk).Performs IsCheck := by
  have haborted : (scanAborted args).Performs IsCheck := by
    rw [scanAborted]
    split
    · exact Program.performs_call.mpr trivial
    · trivial
  refine .bind haborted fun aborted => ?_
  cases aborted with
  | true => trivial
  | false =>
    cases args.deadlineMs with
    | none => trivial
    | some deadlineMs =>
      refine .bind ?_ fun exceeded => ?_
      · rw [scanOverBudget]
        split
        · trivial
        · exact .call_bind trivial fun _ => trivial
      · cases exceeded <;> trivial

theorem checks_ask_nothing (h : ∀ e ∈ tr, IsCheck e.op) : spans tr = [] ∧ logsIn tr = [] := by
  constructor
  · refine List.filterMap_eq_nil_iff.mpr fun e he => ?_
    obtain ⟨op, answer⟩ := e
    have hcheck := h _ he
    cases op <;> first | rfl | exact hcheck.elim
  · refine List.flatMap_eq_nil_iff.mpr fun e he => ?_
    obtain ⟨op, answer⟩ := e
    have hcheck := h _ he
    cases op <;> first | rfl | exact hcheck.elim

/-- What follows an answer: a throw, the end of the walk, or the next chunk. -/
def scanAnswered (args : ScanArgs) (startedAt : ℤ) (fuel : ℕ) (toBlock : ℤ) (st : ScanState) :
    Except RpcError (List Log) → Signing (Except Thrown ScanState)
  | .error _ => return .error ⟨"getLogs failed"⟩
  | .ok logs =>
    if args.fromBlock toBlock = 0 ∨ args.fromBlock toBlock = args.earliestAllowed then
      return .ok (logs.foldl (takeLog args) st)
    else scanLoop args startedAt fuel (args.fromBlock toBlock - 1) false
      (logs.foldl (takeLog args) st)

theorem scanLoop_succ (h : toBlock ≥ args.earliestAllowed ∧ st.foundDeploymentBlock = none) :
    scanLoop args startedAt (fuel + 1) toBlock firstChunk st =
      (scanInterrupted args startedAt toBlock firstChunk).bind fun
        | some e => .done (.error e)
        | none => .perform (.getLogs args.chain (args.factories ++ [args.requestContract])
            (args.fromBlock toBlock) toBlock) (scanAnswered args startedAt fuel toBlock st) := by
  rw [scanLoop, if_pos h]
  rfl

theorem scanLoop_done (h : ¬ (toBlock ≥ args.earliestAllowed ∧ st.foundDeploymentBlock = none)) :
    scanLoop args startedAt fuel toBlock firstChunk st = .done (.ok st) := by
  cases fuel with
  | zero => rfl
  | succ fuel => rw [scanLoop, if_neg h]; rfl

def asked (args : ScanArgs) (toBlock : ℤ) (answer : Except RpcError (List Log)) : SigningEvent :=
  ⟨.getLogs args.chain (args.factories ++ [args.requestContract]) (args.fromBlock toBlock) toBlock,
    answer⟩

/-- One round of the walk, up to any moment: no logs asked for yet, or the next chunk's logs
asked for after the checks have let it pass. -/
theorem scanLoop_round {q : Signing (Except Thrown ScanState)}
    (h : toBlock ≥ args.earliestAllowed ∧ st.foundDeploymentBlock = none)
    (hrun : Runs (scanLoop args startedAt (fuel + 1) toBlock firstChunk st) tr q) :
    (spans tr = [] ∧ ∀ st', q ≠ .done (.ok st')) ∨
      ∃ checks answer rest, tr = checks ++ asked args toBlock answer :: rest ∧
        Executes (scanInterrupted args startedAt toBlock firstChunk) checks none ∧
        Runs (scanAnswered args startedAt fuel toBlock st answer) rest q := by
  rw [scanLoop_succ h] at hrun
  rcases runs_bind hrun with ⟨p, hchecks, rfl⟩ | ⟨checks, tr', interrupted, rfl, hchecks, hrest⟩
  · refine .inl ⟨(checks_ask_nothing (scanInterrupted_checks.runs hchecks)).1, fun st' heq => ?_⟩
    cases p with
    | done interrupted => cases interrupted <;> cases heq
    | perform op next => cases heq
  · have hnothing := (checks_ask_nothing (scanInterrupted_checks.runs hchecks)).1
    cases interrupted with
    | some e =>
      obtain ⟨rfl, rfl⟩ := runs_done.mp hrest
      rw [List.append_nil]
      exact .inl ⟨hnothing, fun st' heq => by cases heq⟩
    | none =>
      rcases runs_perform.mp hrest with ⟨rfl, rfl⟩ | ⟨answer, rest, rfl, hanswered⟩
      · rw [List.append_nil]
        exact .inl ⟨hnothing, fun st' heq => by cases heq⟩
      · exact .inr ⟨checks, answer, rest, rfl, hchecks, hanswered⟩

theorem spans_round {checks : List SigningEvent}
    (hchecks : Executes (scanInterrupted args startedAt toBlock firstChunk) checks none)
    (answer : Except RpcError (List Log)) (rest : List SigningEvent) :
    spans (checks ++ asked args toBlock answer :: rest) =
        ⟨args.fromBlock toBlock, toBlock⟩ :: spans rest ∧
      logsIn (checks ++ asked args toBlock answer :: rest) =
        answer.toOption.getD [] ++ logsIn rest := by
  obtain ⟨hspans, hlogs⟩ := checks_ask_nothing (scanInterrupted_checks.runs hchecks)
  rw [spans_append, logsIn_append, hspans, hlogs]
  cases answer <;> exact ⟨rfl, rfl⟩

theorem chunk_eq : (⟨args.fromBlock toBlock, toBlock⟩ : Span) =
    chunk args.earliestAllowed args.blockRange toBlock := by
  simp only [chunk, ScanArgs.fromBlock, Span.mk.injEq, and_true]
  split <;> omega

theorem not_unfinished (hseen : Seen args seen st)
    (h : ¬ (toBlock ≥ args.earliestAllowed ∧ st.foundDeploymentBlock = none)) :
    ¬ Unfinished args toBlock seen :=
  fun hunfinished => h ⟨hunfinished.1, hseen.unmarked.mpr hunfinished.2⟩

theorem not_unfinished_last (h : args.fromBlock toBlock = 0 ∨
    args.fromBlock toBlock = args.earliestAllowed) {logs : List Log} :
    ¬ Unfinished args (args.fromBlock toBlock - 1) logs := by
  intro hunfinished
  have hle := hunfinished.1
  have h0 := earliestAllowed_nonneg args
  omega

/-- The walk asks for the chunks from its top down, and ends by itself only when no further
chunk is needed. -/
theorem scanLoop_chunks (hrange : 0 < args.blockRange) {q : Signing (Except Thrown ScanState)}
    (hseen : Seen args seen st) (hfuel : toBlock - args.earliestAllowed + 1 ≤ fuel)
    (hrun : Runs (scanLoop args startedAt fuel toBlock firstChunk st) tr q) :
    Descends args.earliestAllowed args.blockRange toBlock (spans tr) ∧
      ∀ st', q = .done (.ok st') →
        ¬ Unfinished args (bottom toBlock (spans tr)) (seen ++ logsIn tr) := by
  induction fuel generalizing toBlock firstChunk st seen tr with
  | zero =>
    obtain ⟨rfl, rfl⟩ := runs_done.mp hrun
    refine ⟨trivial, fun st' _ hunfinished => ?_⟩
    have hle : args.earliestAllowed ≤ toBlock := hunfinished.1
    push_cast at hfuel
    omega
  | succ fuel ih =>
    by_cases hcond : toBlock ≥ args.earliestAllowed ∧ st.foundDeploymentBlock = none
    · rcases scanLoop_round hcond hrun with ⟨hnothing, hq⟩ |
        ⟨checks, answer, rest, rfl, hchecks, hanswered⟩
      · rw [hnothing]
        exact ⟨trivial, fun st' heq => absurd heq (hq st')⟩
      · obtain ⟨hspans, hlogs⟩ := spans_round hchecks answer rest
        rw [hspans, hlogs, chunk_eq]
        cases answer with
        | error e =>
          obtain ⟨rfl, rfl⟩ := runs_done.mp hanswered
          exact ⟨⟨hcond.1, rfl, trivial⟩, fun st' heq => by cases heq⟩
        | ok logs =>
          rw [scanAnswered] at hanswered
          split at hanswered
          · rename_i hlast
            obtain ⟨rfl, rfl⟩ := runs_done.mp hanswered
            refine ⟨⟨hcond.1, rfl, trivial⟩, fun st' _ => ?_⟩
            rw [bottom_cons, ← chunk_eq]
            exact not_unfinished_last hlast
          · have hle := (fromBlock_bounds hrange hcond.1).2
            obtain ⟨hdescends, hended⟩ := ih (hseen.takeLogs logs) (by push_cast at hfuel; omega)
              hanswered
            rw [← chunk_eq]
            refine ⟨⟨hcond.1, chunk_eq, hdescends⟩, fun st' heq => ?_⟩
            rw [bottom_cons, ← List.append_assoc]
            exact hended st' heq
    · rw [scanLoop_done hcond] at hrun
      obtain ⟨rfl, rfl⟩ := runs_done.mp hrun
      refine ⟨trivial, fun st' _ => ?_⟩
      rw [show logsIn [] = [] from rfl, List.append_nil]
      exact not_unfinished hseen hcond

/-- Between two rounds: the last event, if any, is an answer to `getLogs`. -/
def AtBoundary (tr : List SigningEvent) : Prop := ∀ e ∈ tr.getLast?, (span? e).isSome = true

theorem spans_ne_nil (hboundary : AtBoundary tr) (hne : tr ≠ []) : spans tr ≠ [] := by
  intro hnil
  have hlast := List.getLast?_eq_some_getLast hne
  have hspan := hboundary _ hlast
  rw [List.filterMap_eq_nil_iff.mp hnil _ (List.getLast_mem hne)] at hspan
  cases hspan

theorem AtBoundary.tail {pre : List SigningEvent} {e : SigningEvent}
    (h : AtBoundary (pre ++ e :: tr)) : AtBoundary tr := by
  cases tr with
  | nil => exact fun _ he => by cases he
  | cons d tr =>
    intro c hc
    refine h c ?_
    rw [List.getLast?_append, List.getLast?_cons_cons, hc]
    rfl

theorem scanLoop_resumes (hrange : 0 < args.blockRange) {m : Signing (Except Thrown ScanState)}
    (hseen : Seen args seen st) (hfuel : toBlock - args.earliestAllowed + 1 ≤ fuel)
    (hboundary : AtBoundary tr)
    (hrun : Runs (scanLoop args startedAt fuel toBlock firstChunk st) tr m) :
    (∃ r, m = .done r) ∨ ∃ fuel' firstChunk' st',
      m = scanLoop args startedAt fuel' (bottom toBlock (spans tr)) firstChunk' st' ∧
      Seen args (seen ++ logsIn tr) st' ∧
      bottom toBlock (spans tr) - args.earliestAllowed + 1 ≤ fuel' ∧
      (firstChunk' = true → firstChunk = true ∧ spans tr = []) := by
  induction fuel generalizing toBlock firstChunk st seen tr with
  | zero => exact .inl ⟨_, (runs_done.mp hrun).2⟩
  | succ fuel ih =>
    by_cases hne : tr = []
    · subst hne
      refine .inr ⟨fuel + 1, firstChunk, st, runs_nil hrun, ?_, hfuel, fun hfirst => ⟨hfirst, rfl⟩⟩
      rw [show logsIn [] = [] from rfl, List.append_nil]
      exact hseen
    by_cases hcond : toBlock ≥ args.earliestAllowed ∧ st.foundDeploymentBlock = none
    · rcases scanLoop_round hcond hrun with ⟨hnothing, -⟩ |
        ⟨checks, answer, rest, rfl, hchecks, hanswered⟩
      · exact absurd hnothing (spans_ne_nil hboundary hne)
      · obtain ⟨hspans, hlogs⟩ := spans_round hchecks answer rest
        rw [hspans, hlogs, bottom_cons]
        cases answer with
        | error e => exact .inl ⟨_, (runs_done.mp hanswered).2⟩
        | ok logs =>
          rw [scanAnswered] at hanswered
          split at hanswered
          · exact .inl ⟨_, (runs_done.mp hanswered).2⟩
          · have hle := (fromBlock_bounds hrange hcond.1).2
            rcases ih (hseen.takeLogs logs) (by push_cast at hfuel; omega) hboundary.tail
              hanswered with hdone | ⟨fuel', first', st', rfl, hseen', hfuel', hfirst⟩
            · exact .inl hdone
            · rw [List.append_assoc] at hseen'
              refine .inr ⟨fuel', first', st', rfl, hseen', hfuel', fun htrue => ?_⟩
              exact absurd (hfirst htrue).1 Bool.false_ne_true
    · rw [scanLoop_done hcond] at hrun
      exact .inl ⟨_, (runs_done.mp hrun).2⟩

/-- What stops the walk at a boundary: the signal is aborted from there on, or the clock reads
more than the budget after the first chunk. -/
inductive Stops (args : ScanArgs) (startedAt : ℤ) (firstChunk : Bool) (tr : List SigningEvent) :
    Prop where
  | aborted (hsignal : args.hasSignal = true) (h : ∀ e ∈ tr, AbortedNow e)
  | overBudget (deadlineMs : ℤ) (hdeadline : args.deadlineMs = some deadlineMs)
      (hfirst : firstChunk = false) (h : ∀ e ∈ tr, OverBudgetNow startedAt deadlineMs e)

theorem interrupted_of_aborted (hsignal : args.hasSignal = true) :
    (scanInterrupted args startedAt toBlock firstChunk).Ensures AbortedNow (fun r => r ≠ none) := by
  have haborted : (scanAborted args).Ensures AbortedNow (fun r => r = true) := by
    rw [scanAborted, if_pos hsignal]
    exact Program.ensures_call.mpr fun _ h => h
  refine .bind haborted fun aborted h => ?_
  subst h
  exact .pure (by simp)

theorem interrupted_of_overBudget {deadlineMs : ℤ} (hdeadline : args.deadlineMs = some deadlineMs) :
    (scanInterrupted args startedAt toBlock false).Ensures (OverBudgetNow startedAt deadlineMs)
      (fun r => r ≠ none) := by
  refine .bind (Program.ensures_true _) fun aborted _ => ?_
  cases aborted with
  | true => exact .pure (by simp)
  | false =>
    rw [hdeadline]
    have hexceeded : (scanOverBudget startedAt false deadlineMs).Ensures
        (OverBudgetNow startedAt deadlineMs) (fun r => r = true) :=
      .call_bind fun now hnow => .pure (decide_eq_true hnow)
    refine .bind hexceeded fun exceeded h => ?_
    subst h
    exact .pure (by simp)

theorem scanLoop_stops {q : Signing (Except Thrown ScanState)} (hseen : Seen args seen st)
    (hfuel : toBlock - args.earliestAllowed + 1 ≤ fuel)
    (hrun : Runs (scanLoop args startedAt fuel toBlock firstChunk st) tr q)
    (hstops : Stops args startedAt firstChunk tr) :
    spans tr = [] ∧ (Unfinished args toBlock seen → ∀ st', q ≠ .done (.ok st')) := by
  by_cases hcond : toBlock ≥ args.earliestAllowed ∧ st.foundDeploymentBlock = none
  · cases fuel with
    | zero =>
      have hle := hcond.1
      push_cast at hfuel
      omega
    | succ fuel =>
      rcases scanLoop_round hcond hrun with ⟨hnothing, hq⟩ | ⟨checks, answer, rest, rfl, hchecks, -⟩
      · exact ⟨hnothing, fun _ => hq⟩
      · -- the checks did not let it pass
        exfalso
        cases hstops with
        | aborted hsignal h =>
          exact (interrupted_of_aborted hsignal).executes hchecks
            (fun e he => h e (List.mem_append_left _ he)) rfl
        | overBudget deadlineMs hdeadline hfirst h =>
          subst hfirst
          exact (interrupted_of_overBudget hdeadline).executes hchecks
            (fun e he => h e (List.mem_append_left _ he)) rfl
  · rw [scanLoop_done hcond] at hrun
    obtain ⟨rfl, rfl⟩ := runs_done.mp hrun
    exact ⟨rfl, fun hunfinished => absurd hunfinished (not_unfinished hseen hcond)⟩

theorem scanLoop_fuel (hrange : 0 < args.blockRange) {fuel' : ℕ}
    (hfuel : toBlock - args.earliestAllowed + 1 ≤ fuel) (hle : fuel ≤ fuel') :
    scanLoop args startedAt fuel' toBlock firstChunk st =
      scanLoop args startedAt fuel toBlock firstChunk st := by
  induction fuel generalizing toBlock firstChunk st fuel' with
  | zero =>
    refine scanLoop_done fun hcond => ?_
    have hge := hcond.1
    push_cast at hfuel
    omega
  | succ fuel ih =>
    obtain ⟨fuel', rfl⟩ : ∃ n, fuel' = n + 1 := ⟨fuel' - 1, by omega⟩
    by_cases hcond : toBlock ≥ args.earliestAllowed ∧ st.foundDeploymentBlock = none
    · have hdown := (fromBlock_bounds hrange hcond.1).2
      have hsame : scanAnswered args startedAt fuel' toBlock st =
          scanAnswered args startedAt fuel toBlock st := by
        funext answer
        cases answer with
        | error e => rfl
        | ok logs =>
          rw [scanAnswered, scanAnswered, ih (by push_cast at hfuel; omega) (by omega)]
      rw [scanLoop_succ hcond, scanLoop_succ hcond, hsame]
    · rw [scanLoop_done hcond, scanLoop_done hcond]

end Loop

def ScanStops (args : ScanArgs) (pre post : List SigningEvent) : Prop :=
  (args.hasSignal = true ∧ ∀ e ∈ post, AbortedNow e) ∨
    ∃ startedAt deadlineMs, args.deadlineMs = some deadlineMs ∧
      pre.head? = some ⟨.dateNow, startedAt⟩ ∧ spans pre ≠ [] ∧
      ∀ e ∈ post, OverBudgetNow startedAt deadlineMs e

section Scan
variable {args : ScanArgs} {tr : List SigningEvent} {p : Signing (Except Thrown RoleScanOutcome)}

theorem scanRoleHolders_runs (hargs : scanArgsError args = none)
    (hrun : Runs (scanRoleHolders args) tr p) :
    (tr = [] ∧ ∀ o, p ≠ .done o) ∨ ∃ startedAt walk q, tr = ⟨.dateNow, startedAt⟩ :: walk ∧
      Runs (scanLoop args startedAt (scanFuel args) args.latestBlock true .start) walk q ∧
      ∀ o, p = .done (.ok o) → ∃ st, q = .done (.ok st) := by
  unfold scanRoleHolders at hrun
  rw [hargs] at hrun
  rcases runs_perform.mp hrun with ⟨rfl, rfl⟩ | ⟨startedAt, walk, rfl, hrest⟩
  · exact .inl ⟨rfl, fun o heq => by cases heq⟩
  rw [Program.bind_done] at hrest
  right
  rcases runs_bind hrest with ⟨q, hwalk, rfl⟩ | ⟨walk', tail, r, rfl, hwalk, hlast⟩
  · refine ⟨startedAt, walk, q, rfl, hwalk, fun o heq => ?_⟩
    cases q with
    | perform op next => cases heq
    | done r =>
      cases r with
      | error e => cases heq
      | ok st => exact ⟨st, rfl⟩
  · cases r with
    | error e =>
      obtain ⟨rfl, rfl⟩ := runs_done.mp hlast
      rw [List.append_nil]
      exact ⟨startedAt, walk', _, rfl, hwalk, fun o heq => by cases heq⟩
    | ok st =>
      obtain ⟨rfl, rfl⟩ := runs_done.mp hlast
      rw [List.append_nil]
      exact ⟨startedAt, walk', _, rfl, hwalk, fun o heq => ⟨st, rfl⟩⟩

theorem earliestAllowed_le (hlookback : 0 < args.maxLookbackBlocks) :
    args.earliestAllowed ≤ args.latestBlock := by
  unfold ScanArgs.earliestAllowed
  split <;> omega

theorem scanFuel_enough : (args.latestBlock : ℤ) - args.earliestAllowed + 1 ≤ scanFuel args := by
  have h0 := earliestAllowed_nonneg args
  rw [scanFuel]
  push_cast
  omega

theorem scanArgs_refused (hargs : scanArgsError args ≠ none)
    (hrun : Runs (scanRoleHolders args) tr p) : tr = [] ∧ ∀ o, p ≠ .done (.ok o) := by
  obtain ⟨e, he⟩ := Option.ne_none_iff_exists'.mp hargs
  unfold scanRoleHolders at hrun
  rw [he] at hrun
  obtain ⟨rfl, rfl⟩ := runs_done.mp hrun
  exact ⟨rfl, fun o heq => by cases heq⟩

theorem scanRoleHolders_chunks (hargs : scanArgsError args = none)
    (hrun : Runs (scanRoleHolders args) tr p) :
    Descends args.earliestAllowed args.blockRange args.latestBlock (spans tr) ∧
      ∀ o, p = .done (.ok o) → ¬ Unfinished args (nextTop args tr) (logsIn tr) := by
  rcases scanRoleHolders_runs hargs hrun with ⟨rfl, hp⟩ | ⟨startedAt, walk, q, rfl, hwalk, hp⟩
  · exact ⟨trivial, fun o heq => absurd heq (hp _)⟩
  · obtain ⟨hdescends, hended⟩ := scanLoop_chunks (scanArgsError_none hargs).1 seen_start
      scanFuel_enough hwalk
    refine ⟨hdescends, fun o heq => ?_⟩
    obtain ⟨st, hst⟩ := hp o heq
    exact hended st hst

theorem scanRoleHolders_stops {pre post : List SigningEvent} (hargs : scanArgsError args = none)
    (hrun : Runs (scanRoleHolders args) (pre ++ post) p) (hboundary : AtBoundary pre)
    (hstops : ScanStops args pre post) :
    spans post = [] ∧
      (Unfinished args (nextTop args pre) (logsIn pre) → ∀ o, p ≠ .done (.ok o)) := by
  have hrange := (scanArgsError_none hargs).1
  rcases scanRoleHolders_runs hargs hrun with ⟨hnil, hp⟩ | ⟨startedAt, walk, q, htr, hwalk, hp⟩
  · obtain ⟨rfl, rfl⟩ := List.append_eq_nil_iff.mp hnil
    exact ⟨rfl, fun _ o => hp _⟩
  cases pre with
  | nil =>
    obtain rfl : post = _ := htr
    rcases hstops with ⟨hsignal, haborted⟩ | ⟨_, _, _, _, hne, _⟩
    · obtain ⟨hnothing, hended⟩ := scanLoop_stops seen_start scanFuel_enough hwalk
        (.aborted hsignal fun e he => haborted e (.tail _ he))
      refine ⟨hnothing, fun hunfinished o heq => ?_⟩
      obtain ⟨st, hst⟩ := hp o heq
      exact hended hunfinished st hst
    · exact absurd rfl hne
  | cons e pre =>
    obtain ⟨rfl, rfl⟩ := List.cons.inj htr
    obtain ⟨m, hpre, hpost⟩ := hwalk.append
    have hboundary : AtBoundary ([] ++ _ :: pre) := hboundary
    have htail : AtBoundary pre := hboundary.tail
    rcases scanLoop_resumes hrange seen_start scanFuel_enough htail hpre with
      ⟨r, rfl⟩ | ⟨fuel, firstChunk, st, rfl, hseen, hfuel, hfirst⟩
    · obtain ⟨rfl, rfl⟩ := runs_done.mp hpost
      refine ⟨rfl, fun hunfinished o heq => ?_⟩
      obtain ⟨st, hst⟩ := hp o heq
      exact (scanLoop_chunks hrange seen_start scanFuel_enough hpre).2 st hst hunfinished
    · have hloop : Stops args startedAt firstChunk post := by
        rcases hstops with ⟨hsignal, haborted⟩ | ⟨started, deadlineMs, hdeadline, hhead, hne, hover⟩
        · exact .aborted hsignal haborted
        · obtain rfl : startedAt = started := by simpa using hhead
          refine .overBudget deadlineMs hdeadline ?_ hover
          by_contra htrue
          exact hne (hfirst (eq_true_of_ne_false htrue)).2
      obtain ⟨hnothing, hended⟩ := scanLoop_stops hseen hfuel hpost hloop
      refine ⟨hnothing, fun hunfinished o heq => ?_⟩
      obtain ⟨st, hst⟩ := hp o heq
      exact hended hunfinished st hst

/-- The spans of a run of the scan, in any environment and up to any moment: chunks of the
window from its top down, which cover it when the scan returns without a deployment event;
none once the scan is stopped, which then throws if its window is not read. -/
theorem scan_spans (hrun : Runs (scanRoleHolders args) tr p) :
    (∀ s ∈ spans tr, 1 ≤ s.last - s.first + 1 ∧ s.last - s.first + 1 ≤ args.blockRange ∧
        args.earliestAllowed ≤ s.first ∧ 0 ≤ s.first) ∧
      (∀ s ∈ (spans tr).head?, s.last = args.latestBlock) ∧
      ((spans tr).IsChain fun s t => t.last = s.first - 1) ∧
      (spans tr).length ≤
        ⌈((args.latestBlock - args.earliestAllowed + 1 : ℤ) : ℚ) / args.blockRange⌉₊ ∧
      (∀ o, p = .done (.ok o) → ¬ SeesDeployment args (logsIn tr) →
        ∀ b, (∃ s ∈ spans tr, s.Has b) ↔ args.earliestAllowed ≤ b ∧ b ≤ args.latestBlock) ∧
      (∀ pre post, tr = pre ++ post → AtBoundary pre → ScanStops args pre post →
        spans post = [] ∧
          (Unfinished args (nextTop args pre) (logsIn pre) → ∀ o, p ≠ .done (.ok o))) ∧
      (scanArgsError args = none → ∀ startedAt fuel, scanFuel args ≤ fuel →
        scanLoop args startedAt fuel args.latestBlock true .start =
          scanLoop args startedAt (scanFuel args) args.latestBlock true .start) := by
  by_cases hargs : scanArgsError args = none
  · have hrange := (scanArgsError_none hargs).1
    have hwindow := earliestAllowed_le (scanArgsError_none hargs).2.1
    obtain ⟨hdescends, hended⟩ := scanRoleHolders_chunks hargs hrun
    refine ⟨fun s hs => ?_, hdescends.head, hdescends.contiguous, hdescends.length_le hrange,
      fun o heq hnone b => ?_, fun pre post heq hboundary hstops => ?_,
      fun _ startedAt fuel hle => scanLoop_fuel hrange scanFuel_enough hle⟩
    · obtain ⟨hlow, hone, hwidth⟩ := hdescends.bounded hrange s hs
      exact ⟨hone, hwidth, hlow, (earliestAllowed_nonneg args).trans hlow⟩
    · have hover : ¬ args.earliestAllowed ≤ nextTop args tr :=
        fun hle => hended o heq ⟨hle, hnone⟩
      have hlow := (hdescends.bottom_bounds hrange (by omega)).1
      rw [hdescends.covers hrange, ← nextTop]
      rw [← nextTop] at hlow
      omega
    · subst heq
      exact scanRoleHolders_stops hargs hrun hboundary hstops
  · obtain ⟨rfl, hp⟩ := scanArgs_refused hargs hrun
    refine ⟨by simp [spans], by simp [spans], .nil, Nat.zero_le _,
      fun o heq => absurd heq (hp o), fun pre post heq _ _ => ?_, fun hnone => absurd hnone hargs⟩
    obtain ⟨rfl, rfl⟩ := List.append_eq_nil_iff.mp heq.symm
    exact ⟨rfl, fun _ => hp⟩

end Scan

def eightBlocks : ScanArgs := ⟨1, ["0xfac"], "0xreq", 10, 4, 7, none, false⟩

def eightBlocksRun : List SigningEvent :=
  [⟨.dateNow, (0 : ℤ)⟩, ⟨.getLogs 1 ["0xfac", "0xreq"] 7 10, .ok []⟩,
    ⟨.getLogs 1 ["0xfac", "0xreq"] 3 6, .ok []⟩]

def budgetedBlocks : ScanArgs := { eightBlocks with deadlineMs := some 5 }

def firstChunkRun : List SigningEvent :=
  [⟨.dateNow, (0 : ℤ)⟩, ⟨.getLogs 1 ["0xfac", "0xreq"] 7 10, .ok []⟩]

def overBudgetRun : List SigningEvent := [⟨.dateNow, (6 : ℤ)⟩]

/-- Two chunks of four blocks are the whole window; a budget that is spent after the first
stops the scan before the second. -/
theorem scan_spans_eight :
    (spans eightBlocksRun = [⟨7, 10⟩, ⟨3, 6⟩] ∧
      ∀ b, (∃ s ∈ spans eightBlocksRun, s.Has b) ↔ 3 ≤ b ∧ b ≤ 10) ∧
    ∃ r, Executes (scanRoleHolders budgetedBlocks) (firstChunkRun ++ overBudgetRun) r ∧
      spans overBudgetRun = [] ∧ ∀ o, r ≠ .ok o := by
  have hrun : Executes (scanRoleHolders eightBlocks) eightBlocksRun
      (.ok (.tooOld (replayRoleState []))) := by
    refine executes_perform.mpr ⟨(0 : ℤ), _, rfl, ?_⟩
    refine executes_perform.mpr ⟨.ok [], _, rfl, ?_⟩
    refine executes_perform.mpr ⟨.ok [], _, rfl, ?_⟩
    exact .refl _
  have hlogs : ∀ {args : ScanArgs}, ¬ SeesDeployment args [] := by
    rintro args ⟨l, hl, -⟩
    cases hl
  have hstopped : Executes (scanRoleHolders budgetedBlocks) (firstChunkRun ++ overBudgetRun)
      (.error ⟨s!"role-events scan exceeded its {(5 : ℤ)}ms budget before reaching " ++
        s!"block {(3 : ℤ)} (stopped above {(6 : ℤ)})"⟩) := by
    refine executes_perform.mpr ⟨(0 : ℤ), _, rfl, ?_⟩
    refine executes_perform.mpr ⟨.ok [], _, rfl, ?_⟩
    refine executes_perform.mpr ⟨(6 : ℤ), _, rfl, ?_⟩
    exact .refl _
  refine ⟨⟨rfl, (scan_spans hrun).2.2.2.2.1 _ rfl hlogs⟩, _, hstopped, ?_⟩
  obtain ⟨hnothing, hthrows⟩ := (scan_spans hstopped).2.2.2.2.2.1 firstChunkRun overBudgetRun rfl
    (fun e he => by cases he; rfl)
    (.inr ⟨0, 5, rfl, rfl, List.cons_ne_nil _ _, fun e he => by
      rw [List.mem_singleton.mp he]
      exact (by decide : (6 : ℤ) - 0 > 5)⟩)
  exact ⟨hnothing, fun o h => hthrows ⟨by decide, hlogs⟩ o (congrArg Program.done h)⟩

end Guardian
