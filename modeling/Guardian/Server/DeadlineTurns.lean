import Guardian.Lib.EventLoop
import Guardian.Lib.Machine
import Guardian.Server.Deadline

/-!
# The turns of a host call under its deadline

The event loop of one call of `withAbstractionDeadline`. Host code runs inside `run`, in the
listeners of the signal, in the logger and between, and may do anything with the promise that
`run` returned; the timer fires at any time from its arming on, but only when no job is queued.
-/

namespace Guardian
open Double EventLoop

/-- The promise that `run` returned, its wrapper, the deadline's, the race and the result. The
promises of `then` and `catch` are left out: their handlers return and nothing waits on them. -/
inductive PromiseId where
  | host
  | task
  | deadline
  | race
  | result
  deriving DecidableEq

inductive Reaction where
  | resolveTask
  | swallow
  | resolveRace
  | resume
  deriving DecidableEq

inductive PlainJob where
  | resolveThenable
  | foreign
  deriving DecidableEq

structure DeadlineOptions where
  ms : JsNumber
  abstraction : String

/-- What host code does while it runs: it leaves jobs, may settle the promise that `run`
returned, and leaves jobs. -/
structure HostTurn (T E : Type) where
  before : ℕ
  settles : Option (Except E T)
  after : ℕ

inductive RunCall (T E : Type) where
  | returned (turn : HostTurn T E)
  | threw (jobs : ℕ) (error : E)

structure LoggerCall (T E : Type) where
  turn : HostTurn T E
  throws : Option E

inductive Timer where
  | armed
  | fired
  | cleared
  deriving DecidableEq

structure DeadlineCall (T E : Type) where
  loop : Loop PromiseId Reaction PlainJob T E
  timer : Timer
  aborted : Option String
  timeouts : List (String × JsNumber)
  uncaught : List E
  threw : Option E

def abortMessage (options : DeadlineOptions) : String :=
  s!"guardian: {options.abstraction} timed out after {options.ms.text}ms"

def timeoutError (options : DeadlineOptions) : GuardianError :=
  .upstreamUnavailable s!"{options.abstraction} did not complete within {options.ms.text}ms"
    503 none

namespace DeadlineCall
variable {T E : Type}

def settled (s : DeadlineCall T E) (p : PromiseId) : Option (Except E T) :=
  (s.loop.promise p).settled

def queue (s : DeadlineCall T E) : List (Job Reaction PlainJob T E) := s.loop.queue

def settle (p : PromiseId) (x : Except E T) (s : DeadlineCall T E) : DeadlineCall T E :=
  { s with loop := s.loop.settle p x }

def attach (p : PromiseId) (r : Reaction) (s : DeadlineCall T E) : DeadlineCall T E :=
  { s with loop := s.loop.attach p r }

def enqueue (jobs : List (Job Reaction PlainJob T E)) (s : DeadlineCall T E) : DeadlineCall T E :=
  { s with loop := s.loop.enqueue jobs }

def leave (jobs : ℕ) (s : DeadlineCall T E) : DeadlineCall T E :=
  s.enqueue (List.replicate jobs (.plain .foreign))

def settleHost (settles : Option (Except E T)) (s : DeadlineCall T E) : DeadlineCall T E :=
  match s.threw, settles with
  | none, some x => s.settle .host x
  | _, _ => s

def hostTurn (turn : HostTurn T E) (s : DeadlineCall T E) : DeadlineCall T E :=
  ((s.leave turn.before).settleHost turn.settles).leave turn.after

def clearTimeout (s : DeadlineCall T E) : DeadlineCall T E :=
  match s.timer with
  | .armed => { s with timer := .cleared }
  | _ => s

/-- Code that runs to its end or throws. -/
abbrev Callback (T E : Type) := ExceptT E (StateM (DeadlineCall T E))

section Callback
variable (tagged : GuardianError → E) (options : DeadlineOptions)

def abort (reason : String) (listener : HostTurn T E) : Callback T E Unit := do
  let s ← get
  match s.aborted with
  | some _ => pure ()
  | none => set ({ s with aborted := some reason }.hostTurn listener)

def logTimeout (logger : LoggerCall T E) : Callback T E Unit := do
  modify fun s =>
    { s with timeouts := s.timeouts ++ [(options.abstraction, options.ms)] }.hostTurn logger.turn
  match logger.throws with
  | some error => throw error
  | none => pure ()

def onTimeout (listener : HostTurn T E) (logger : LoggerCall T E) : Callback T E Unit := do
  abort (abortMessage options) listener
  modify (settle .deadline (.error (tagged (timeoutError options))))
  try logTimeout options logger catch _ => pure ()

def fire (listener : HostTurn T E) (logger : LoggerCall T E) (s : DeadlineCall T E) :
    DeadlineCall T E :=
  match onTimeout tagged options listener logger { s with timer := .fired } with
  | (.ok (), s) => s
  | (.error error, s) => { s with uncaught := s.uncaught ++ [error] }

end Callback

/-- The promise of the deadline is made and the timer armed, with jobs of the caller queued. -/
def start (queued : ℕ) : DeadlineCall T E where
  loop := ⟨fun _ => .pending, List.replicate queued (.plain .foreign)⟩
  timer := .armed
  aborted := none
  timeouts := []
  uncaught := []
  threw := none

def callRun : RunCall T E → DeadlineCall T E → DeadlineCall T E
  | .returned turn, s => (s.hostTurn turn).enqueue [.plain .resolveThenable]
  | .threw jobs error, s => { s.leave jobs with threw := some error }.settle .task (.error error)

def withAbstractionDeadline (queued : ℕ) (run : RunCall T E) : DeadlineCall T E :=
  (start queued).callRun run
    |>.attach .task .swallow
    |>.attach .task .resolveRace
    |>.attach .deadline .resolveRace
    |>.attach .race .resume

/-- The jobs that an awaiting caller gets are those host code leaves before it settles. -/
def react (turn : HostTurn T E) : Reaction → Except E T → DeadlineCall T E → DeadlineCall T E
  | .resolveTask, x, s => s.settle .task x
  | .swallow, _, s => s
  | .resolveRace, x, s => s.settle .race x
  | .resume, x, s => (s.clearTimeout.settle .result x).leave turn.before

def runJob (turn : HostTurn T E) : Job Reaction PlainJob T E → DeadlineCall T E → DeadlineCall T E
  | .react r x, s => s.react turn r x
  | .plain .resolveThenable, s => s.attach .host .resolveTask
  | .plain .foreign, s => s.hostTurn turn

inductive Turn (T E : Type) where
  | job (turn : HostTurn T E)
  | host (turn : HostTurn T E)
  | timer (listener : HostTurn T E) (logger : LoggerCall T E)

def taken (rest : List (Job Reaction PlainJob T E)) (s : DeadlineCall T E) : DeadlineCall T E :=
  { s with loop := { s.loop with queue := rest } }

/-- Queued jobs come before host events and the timer. -/
def step (tagged : GuardianError → E) (options : DeadlineOptions) (s : DeadlineCall T E) :
    Turn T E → Option (DeadlineCall T E)
  | .job turn =>
    match s.queue with
    | [] => none
    | j :: rest => some ((s.taken rest).runJob turn j)
  | .host turn => if s.queue.isEmpty then some (s.hostTurn turn) else none
  | .timer listener logger =>
    if s.queue.isEmpty ∧ s.timer = .armed then some (s.fire tagged options listener logger)
    else none

end DeadlineCall
end Guardian
