import Mathlib.Logic.Function.Basic
import Mathlib.Data.List.Basic
import Mathlib.Tactic.Common

/-!
# Promises and the queue of their reactions

A promise settles once and then queues its reactions; one that is attached later is queued at
once. Jobs are taken from the front of the queue and new ones put behind it, so in an unending
run every job is taken.
-/

namespace EventLoop

structure Promise (R V E : Type) where
  settled : Option (Except E V)
  reactions : List R
  handled : Bool

def Promise.pending {R V E : Type} : Promise R V E := ⟨none, [], false⟩

/-- A reaction with what its promise settled to, or a job of another kind. -/
inductive Job (R J V E : Type) where
  | react (r : R) (x : Except E V)
  | plain (j : J)

structure Loop (P R J V E : Type) where
  promise : P → Promise R V E
  queue : List (Job R J V E)

namespace Loop
variable {P R J V E : Type} [DecidableEq P]

def enqueue (jobs : List (Job R J V E)) (l : Loop P R J V E) : Loop P R J V E :=
  { l with queue := l.queue ++ jobs }

def settle (p : P) (x : Except E V) (l : Loop P R J V E) : Loop P R J V E :=
  match (l.promise p).settled with
  | some _ => l
  | none =>
    ⟨Function.update l.promise p ⟨some x, [], (l.promise p).handled⟩,
      l.queue ++ (l.promise p).reactions.map fun r => .react r x⟩

def attach (p : P) (r : R) (l : Loop P R J V E) : Loop P R J V E :=
  match (l.promise p).settled with
  | some x =>
    ⟨Function.update l.promise p ⟨some x, (l.promise p).reactions, true⟩,
      l.queue ++ [.react r x]⟩
  | none =>
    ⟨Function.update l.promise p ⟨none, (l.promise p).reactions ++ [r], true⟩, l.queue⟩

def Unhandled (l : Loop P R J V E) (p : P) : Prop :=
  (∃ e, (l.promise p).settled = some (.error e)) ∧ (l.promise p).handled = false

variable {l : Loop P R J V E} {p q : P} {r : R} {x y : Except E V}

theorem settle_of_settled (h : (l.promise p).settled = some y) : l.settle p x = l := by
  rw [settle, h]

theorem settle_of_pending (h : (l.promise p).settled = none) : l.settle p x =
    ⟨Function.update l.promise p ⟨some x, [], (l.promise p).handled⟩,
      l.queue ++ (l.promise p).reactions.map fun r => .react r x⟩ := by
  rw [settle, h]

theorem attach_of_pending (h : (l.promise p).settled = none) : l.attach p r =
    ⟨Function.update l.promise p ⟨none, (l.promise p).reactions ++ [r], true⟩, l.queue⟩ := by
  rw [attach, h]

theorem attach_of_settled (h : (l.promise p).settled = some x) : l.attach p r =
    ⟨Function.update l.promise p ⟨some x, (l.promise p).reactions, true⟩,
      l.queue ++ [.react r x]⟩ := by
  rw [attach, h]

theorem settled_settle (h : (l.promise q).settled = some y) :
    ((l.settle p x).promise q).settled = some y := by
  cases hp : (l.promise p).settled with
  | some z => rwa [settle_of_settled hp]
  | none =>
    have hne : q ≠ p := by
      rintro rfl
      rw [hp] at h
      cases h
    rw [settle_of_pending hp]
    dsimp only
    rwa [Function.update_of_ne hne]

theorem settled_attach : ((l.attach p r).promise q).settled = (l.promise q).settled := by
  cases hp : (l.promise p).settled with
  | none =>
    rw [attach_of_pending hp]
    by_cases hq : q = p
    · subst hq
      simp [hp]
    · simp [hq]
  | some z =>
    rw [attach_of_settled hp]
    by_cases hq : q = p
    · subst hq
      simp [hp]
    · simp [hq]

end Loop

theorem comes_to_front {A : Type} (queue : ℕ → List A)
    (hfifo : ∀ n j rest, queue n = j :: rest → ∃ added, queue (n + 1) = rest ++ added)
    {n : ℕ} {j : A} (hj : j ∈ queue n) : ∃ m rest, n ≤ m ∧ queue m = j :: rest := by
  obtain ⟨before, after, hqueue⟩ := List.append_of_mem hj
  induction before generalizing n after with
  | nil => exact ⟨n, after, Nat.le_refl n, hqueue⟩
  | cons i before ih =>
    obtain ⟨added, hnext⟩ := hfifo n i (before ++ j :: after) hqueue
    have hnext : queue (n + 1) = before ++ j :: (after ++ added) := by
      rw [hnext, List.append_assoc, List.cons_append]
    obtain ⟨m, rest, hle, hfront⟩ := ih (hnext ▸ by simp) _ hnext
    exact ⟨m, rest, by omega, hfront⟩

end EventLoop
