import Mathlib.Data.List.Basic
import Mathlib.Tactic.Common

/-!
# Effectful programs and the runs they allow

A program is a tree of requests to its environment. Nothing is assumed about
the environment: `Runs p tr q` says that `p`, answered as `tr` records, has
become `q`, so a run may stop anywhere and two equal requests may be answered
differently. A `Protocol` separates what the program must keep (`permits`) from
what it may rely on (`expects`); `Obeys` is the resulting weakest precondition
and `Obeys.runs` is its soundness on traces.
-/

namespace Effect

structure Signature where
  Op : Type
  Answer : Op → Type

structure Event (S : Signature) where
  op : S.Op
  answer : S.Answer op

inductive Program (S : Signature) (α : Type) where
  | done (a : α) : Program S α
  | perform (op : S.Op) (next : S.Answer op → Program S α) : Program S α

namespace Program
variable {S : Signature} {α β δ : Type}

def bind : Program S α → (α → Program S β) → Program S β
  | .done a, f => f a
  | .perform op next, f => .perform op (fun r => (next r).bind f)

instance : Monad (Program S) where
  pure := .done
  bind := bind

def call (op : S.Op) : Program S (S.Answer op) := .perform op .done

theorem pure_def (a : α) : (pure a : Program S α) = .done a := rfl

theorem bind_def (p : Program S α) (f : α → Program S β) : p >>= f = p.bind f := rfl

@[simp] theorem bind_done (a : α) (f : α → Program S β) : (Program.done a).bind f = f a := rfl

@[simp] theorem bind_perform (op : S.Op) (next : S.Answer op → Program S α)
    (f : α → Program S β) :
    (Program.perform op next).bind f = .perform op (fun r => (next r).bind f) := rfl

theorem bind_pure_right (p : Program S α) : p.bind .done = p := by
  induction p with
  | done a => rfl
  | perform op next ih => simp only [bind, ih]

theorem bind_bind (p : Program S α) (f : α → Program S β) (g : β → Program S δ) :
    (p.bind f).bind g = p.bind (fun a => (f a).bind g) := by
  induction p with
  | done a => rfl
  | perform op next ih => simp only [bind, ih]

instance : LawfulMonad (Program S) :=
  LawfulMonad.mk' (Program S) bind_pure_right (fun _ _ => rfl) bind_bind

end Program

section Runs
variable {S : Signature} {α β : Type}

/-- `p`, answered as the trace records, has become the last program. -/
inductive Runs : Program S α → List (Event S) → Program S α → Prop where
  | refl (p : Program S α) : Runs p [] p
  | step {op : S.Op} {next : S.Answer op → Program S α} {tr : List (Event S)}
      {q : Program S α} (r : S.Answer op) :
      Runs (next r) tr q → Runs (.perform op next) (⟨op, r⟩ :: tr) q

def Executes (p : Program S α) (tr : List (Event S)) (a : α) : Prop := Runs p tr (.done a)

theorem Runs.trans {p q r : Program S α} {tr tr' : List (Event S)}
    (h : Runs p tr q) (h' : Runs q tr' r) : Runs p (tr ++ tr') r := by
  induction h with
  | refl => exact h'
  | step a _ ih => exact .step a (ih h')

theorem Runs.snoc {p : Program S α} {tr : List (Event S)} {op : S.Op}
    {next : S.Answer op → Program S α} (h : Runs p tr (.perform op next)) (r : S.Answer op) :
    Runs p (tr ++ [⟨op, r⟩]) (next r) :=
  h.trans (.step r (.refl _))

theorem runs_done {a : α} {tr : List (Event S)} {q : Program S α} :
    Runs (.done a) tr q ↔ tr = [] ∧ q = .done a := by
  constructor
  · intro h
    cases h
    exact ⟨rfl, rfl⟩
  · rintro ⟨rfl, rfl⟩
    exact .refl _

theorem runs_nil {p q : Program S α} (h : Runs p [] q) : q = p := by
  cases h
  rfl

theorem Runs.split {p q : Program S α} {pre post : List (Event S)} {e : Event S}
    (h : Runs p (pre ++ e :: post) q) :
    ∃ next, Runs p pre (.perform e.op next) ∧ Runs (next e.answer) post q := by
  induction pre generalizing p with
  | nil =>
    cases h with
    | step r h => exact ⟨_, .refl _, h⟩
  | cons d pre ih =>
    cases h with
    | step r h =>
      obtain ⟨next, h₁, h₂⟩ := ih h
      exact ⟨next, .step r h₁, h₂⟩

theorem Runs.append {p q : Program S α} {pre post : List (Event S)}
    (h : Runs p (pre ++ post) q) : ∃ m, Runs p pre m ∧ Runs m post q := by
  induction pre generalizing p with
  | nil => exact ⟨p, .refl _, h⟩
  | cons e pre ih =>
    cases h with
    | step r h =>
      obtain ⟨m, h₁, h₂⟩ := ih h
      exact ⟨m, .step r h₁, h₂⟩

theorem runs_bind {p : Program S α} {f : α → Program S β} {tr : List (Event S)}
    {q : Program S β} (h : Runs (p.bind f) tr q) :
    (∃ p', Runs p tr p' ∧ q = p'.bind f) ∨
      ∃ tr₁ tr₂ a, tr = tr₁ ++ tr₂ ∧ Executes p tr₁ a ∧ Runs (f a) tr₂ q := by
  induction p generalizing tr with
  | done a => exact .inr ⟨[], tr, a, rfl, .refl _, h⟩
  | perform op next ih =>
    cases h with
    | refl => exact .inl ⟨_, .refl _, rfl⟩
    | step r h =>
      rcases ih r h with ⟨p', h₁, rfl⟩ | ⟨tr₁, tr₂, a, rfl, h₁, h₂⟩
      · exact .inl ⟨p', .step r h₁, rfl⟩
      · exact .inr ⟨⟨op, r⟩ :: tr₁, tr₂, a, rfl, .step r h₁, h₂⟩

theorem runs_bind_perform {p : Program S α} {f : α → Program S β} {tr : List (Event S)}
    {op : S.Op} {next : S.Answer op → Program S β} (h : Runs (p.bind f) tr (.perform op next)) :
    (∃ next', Runs p tr (.perform op next')) ∨
      ∃ tr₁ tr₂ a, tr = tr₁ ++ tr₂ ∧ Executes p tr₁ a ∧ Runs (f a) tr₂ (.perform op next) := by
  rcases runs_bind h with ⟨p', hp, hq⟩ | h
  · cases p' with
    | done a =>
      rw [Program.bind_done] at hq
      exact .inr ⟨tr, [], a, (List.append_nil tr).symm, hp, hq ▸ .refl _⟩
    | perform op' next' =>
      rw [Program.bind_perform] at hq
      cases hq
      exact .inl ⟨next', hp⟩
  · exact .inr h

theorem executes_bind {p : Program S α} {f : α → Program S β} {tr : List (Event S)} {b : β} :
    Executes (p.bind f) tr b ↔
      ∃ tr₁ tr₂ a, tr = tr₁ ++ tr₂ ∧ Executes p tr₁ a ∧ Executes (f a) tr₂ b := by
  constructor
  · intro h
    induction p generalizing tr with
    | done a => exact ⟨[], tr, a, rfl, .refl _, h⟩
    | perform op next ih =>
      cases h with
      | step r h =>
        obtain ⟨tr₁, tr₂, a, rfl, h₁, h₂⟩ := ih r h
        exact ⟨⟨op, r⟩ :: tr₁, tr₂, a, rfl, .step r h₁, h₂⟩
  · rintro ⟨tr₁, tr₂, a, rfl, h₁, h₂⟩
    induction p generalizing tr₁ with
    | done a' =>
      obtain ⟨rfl, ha⟩ := runs_done.mp h₁
      cases ha
      exact h₂
    | perform op next ih =>
      cases h₁ with
      | step r h₁ => exact .step r (ih r _ h₁)

theorem runs_perform {op : S.Op} {next : S.Answer op → Program S α} {tr : List (Event S)}
    {q : Program S α} : Runs (.perform op next) tr q ↔
      (tr = [] ∧ q = .perform op next) ∨ ∃ r tr', tr = ⟨op, r⟩ :: tr' ∧ Runs (next r) tr' q := by
  constructor
  · intro h
    cases h with
    | refl => exact .inl ⟨rfl, rfl⟩
    | step r h => exact .inr ⟨r, _, rfl, h⟩
  · rintro (⟨rfl, rfl⟩ | ⟨r, tr', rfl, h⟩)
    · exact .refl _
    · exact .step r h

theorem executes_perform {op : S.Op} {next : S.Answer op → Program S α} {tr : List (Event S)}
    {a : α} : Executes (.perform op next) tr a ↔
      ∃ r tr', tr = ⟨op, r⟩ :: tr' ∧ Executes (next r) tr' a := by
  constructor
  · intro h
    cases h with
    | step r h => exact ⟨r, _, rfl, h⟩
  · rintro ⟨r, tr', rfl, h⟩
    exact .step r h

end Runs

namespace Program
variable {S : Signature} {α β : Type}

def eval (answer : ∀ op, S.Answer op) : Program S α → α
  | .done a => a
  | .perform op next => (next (answer op)).eval answer

def trace (answer : ∀ op, S.Answer op) : Program S α → List (Event S)
  | .done _ => []
  | .perform op next => ⟨op, answer op⟩ :: (next (answer op)).trace answer

@[simp] theorem eval_done (answer : ∀ op, S.Answer op) (a : α) :
    (Program.done a).eval answer = a := rfl

@[simp] theorem eval_perform (answer : ∀ op, S.Answer op) (op : S.Op)
    (next : S.Answer op → Program S α) :
    (Program.perform op next).eval answer = (next (answer op)).eval answer := rfl

@[simp] theorem eval_bind (answer : ∀ op, S.Answer op) (p : Program S α)
    (f : α → Program S β) : (p.bind f).eval answer = (f (p.eval answer)).eval answer := by
  induction p with
  | done a => rfl
  | perform op next ih => exact ih (answer op)

theorem trace_bind (answer : ∀ op, S.Answer op) (p : Program S α) (f : α → Program S β) :
    (p.bind f).trace answer = p.trace answer ++ (f (p.eval answer)).trace answer := by
  induction p with
  | done a => rfl
  | perform op next ih => simp only [bind_perform, trace, ih, eval_perform, List.cons_append]

theorem executes_trace (answer : ∀ op, S.Answer op) (p : Program S α) :
    Executes p (p.trace answer) (p.eval answer) := by
  induction p with
  | done a => exact .refl _
  | perform op next ih => exact .step (answer op) (ih (answer op))

theorem eval_of_executes {answer : ∀ op, S.Answer op} {p : Program S α} {tr : List (Event S)}
    {a : α} (h : Executes p tr a) (hanswer : ∀ e ∈ tr, e.answer = answer e.op) :
    p.eval answer = a := by
  induction p generalizing tr with
  | done b =>
    cases (runs_done.mp h).2
    rfl
  | perform op next ih =>
    obtain ⟨r, tr', rfl, hrest⟩ := executes_perform.mp h
    obtain rfl : r = answer op := hanswer ⟨op, r⟩ (.head _)
    exact ih _ hrest fun e he => hanswer e (.tail _ he)

theorem trace_answered (answer : ∀ op, S.Answer op) (p : Program S α) :
    ∀ e ∈ p.trace answer, e.answer = answer e.op := by
  induction p with
  | done a => simp [trace]
  | perform op next ih =>
    intro e he
    rcases List.mem_cons.mp he with rfl | he
    · rfl
    · exact ih (answer op) e he

end Program

/-- `permits` is what the program guarantees, `expects` what it relies on; both
may depend on a ghost state that follows the events. -/
structure Protocol (S : Signature) (γ : Type) where
  permits : γ → S.Op → Prop
  expects : γ → Event S → Prop
  advance : γ → Event S → γ

namespace Protocol
variable {S : Signature} {γ : Type}

def state (P : Protocol S γ) (g : γ) (tr : List (Event S)) : γ := tr.foldl P.advance g

def Follows (P : Protocol S γ) : γ → List (Event S) → Prop
  | _, [] => True
  | g, e :: tr => P.expects g e ∧ P.Follows (P.advance g e) tr

theorem follows_append (P : Protocol S γ) {g : γ} {tr tr' : List (Event S)} :
    P.Follows g (tr ++ tr') ↔ P.Follows g tr ∧ P.Follows (P.state g tr) tr' := by
  induction tr generalizing g with
  | nil => simp [Follows, state]
  | cons e tr ih => simp only [List.cons_append, Follows, ih, state, List.foldl_cons, and_assoc]

def relying (rely : Event S → Prop) : Protocol S Unit :=
  ⟨fun _ _ => True, fun _ => rely, fun _ _ => ()⟩

def history (permits : List (Event S) → S.Op → Prop) (rely : Event S → Prop) :
    Protocol S (List (Event S)) :=
  ⟨permits, fun _ => rely, fun tr e => tr ++ [e]⟩

theorem follows_of_forall {P : Protocol S γ} {rely : Event S → Prop}
    (hP : ∀ g e, rely e → P.expects g e) {g : γ} {tr : List (Event S)}
    (h : ∀ e ∈ tr, rely e) : P.Follows g tr := by
  induction tr generalizing g with
  | nil => trivial
  | cons e tr ih =>
    exact ⟨hP g e (h e (by simp)), ih (fun d hd => h d (by simp [hd]))⟩

theorem history_state (permits : List (Event S) → S.Op → Prop) (rely : Event S → Prop)
    (g tr : List (Event S)) : (history permits rely).state g tr = g ++ tr := by
  induction tr generalizing g with
  | nil => simp [state]
  | cons e tr ih =>
    have h : (history permits rely).state g (e :: tr) =
        (history permits rely).state (g ++ [e]) tr := rfl
    rw [h, ih, List.append_assoc, List.singleton_append]

end Protocol

namespace Program
variable {S : Signature} {γ α β : Type}

/-- Weakest precondition of a program under a protocol. -/
def Obeys (P : Protocol S γ) (post : γ → α → Prop) : Program S α → γ → Prop
  | .done a, g => post g a
  | .perform op next, g => P.permits g op ∧
      ∀ r, P.expects g ⟨op, r⟩ → (next r).Obeys P post (P.advance g ⟨op, r⟩)

variable {P : Protocol S γ} {post : γ → α → Prop}

@[simp] theorem obeys_done {a : α} {g : γ} : (Program.done a).Obeys P post g ↔ post g a := Iff.rfl

@[simp] theorem obeys_pure {a : α} {g : γ} :
    (pure a : Program S α).Obeys P post g ↔ post g a := Iff.rfl

@[simp] theorem obeys_perform {op : S.Op} {next : S.Answer op → Program S α} {g : γ} :
    (Program.perform op next).Obeys P post g ↔ P.permits g op ∧
      ∀ r, P.expects g ⟨op, r⟩ → (next r).Obeys P post (P.advance g ⟨op, r⟩) := Iff.rfl

theorem obeys_bind' {p : Program S α} {f : α → Program S β} {post : γ → β → Prop} {g : γ} :
    (p.bind f).Obeys P post g ↔ p.Obeys P (fun g a => (f a).Obeys P post g) g := by
  induction p generalizing g with
  | done a => rfl
  | perform op next ih => simp only [bind_perform, obeys_perform, ih]

@[simp] theorem obeys_bind {p : Program S α} {f : α → Program S β} {post : γ → β → Prop} {g : γ} :
    (p >>= f).Obeys P post g ↔ p.Obeys P (fun g a => (f a).Obeys P post g) g :=
  obeys_bind'

@[simp] theorem obeys_call {op : S.Op} {post : γ → S.Answer op → Prop} {g : γ} :
    (call op).Obeys P post g ↔ P.permits g op ∧
      ∀ r, P.expects g ⟨op, r⟩ → post (P.advance g ⟨op, r⟩) r := Iff.rfl

theorem Obeys.mono {post' : γ → α → Prop} {p : Program S α} {g : γ}
    (h : p.Obeys P post g) (hpost : ∀ g a, post g a → post' g a) : p.Obeys P post' g := by
  induction p generalizing g with
  | done a => exact hpost g a h
  | perform op next ih => exact ⟨h.1, fun r hr => ih r (h.2 r hr)⟩

theorem Obeys.change {P' : Protocol S γ} {p : Program S α} {g : γ}
    (h : p.Obeys P post g) (hpermits : ∀ g op, P.permits g op → P'.permits g op)
    (hexpects : ∀ g e, P'.expects g e → P.expects g e)
    (hadvance : ∀ g e, P'.advance g e = P.advance g e) : p.Obeys P' post g := by
  induction p generalizing g with
  | done a => exact h
  | perform op next ih =>
    refine ⟨hpermits _ _ h.1, fun r hr => ?_⟩
    rw [hadvance]
    exact ih r (h.2 r (hexpects _ _ hr))

theorem Obeys.runs {p q : Program S α} {g : γ} {tr : List (Event S)}
    (h : p.Obeys P post g) (hr : Runs p tr q) (hf : P.Follows g tr) :
    q.Obeys P post (P.state g tr) := by
  induction hr generalizing g with
  | refl => exact h
  | step r _ ih => exact ih (h.2 r hf.1) hf.2

theorem Obeys.executes {p : Program S α} {g : γ} {tr : List (Event S)} {a : α}
    (h : p.Obeys P post g) (hr : Executes p tr a) (hf : P.Follows g tr) :
    post (P.state g tr) a :=
  h.runs hr hf

theorem Obeys.permits {p q : Program S α} {g : γ} {pre tr : List (Event S)} {e : Event S}
    (h : p.Obeys P post g) (hr : Runs p (pre ++ e :: tr) q) (hf : P.Follows g pre) :
    P.permits (P.state g pre) e.op := by
  obtain ⟨next, h₁, _⟩ := hr.split
  exact (h.runs h₁ hf).1

theorem Obeys.permits_mem {P : Protocol S Unit} {post : Unit → α → Prop} {p q : Program S α}
    {tr : List (Event S)} (h : p.Obeys P post ()) (hr : Runs p tr q) (hf : P.Follows () tr) :
    ∀ e ∈ tr, P.permits () e.op := by
  intro e he
  obtain ⟨pre, suffix, rfl⟩ := List.append_of_mem he
  exact h.permits hr (P.follows_append.mp hf).1

theorem obeys_of_runs {p : Program S α} {g : γ}
    (hpermits : ∀ tr op next, Runs p tr (.perform op next) → P.permits (P.state g tr) op)
    (hpost : ∀ tr a, Executes p tr a → post (P.state g tr) a) : p.Obeys P post g := by
  induction p generalizing g with
  | done a => exact hpost [] a (.refl _)
  | perform op next ih =>
    refine ⟨hpermits [] op next (.refl _), fun r _ => ih r ?_ ?_⟩
    · exact fun tr op' next' h => hpermits (⟨op, r⟩ :: tr) op' next' (.step r h)
    · exact fun tr a h => hpost (⟨op, r⟩ :: tr) a (.step r h)

theorem Obeys.extends {permits : List (Event S) → S.Op → Prop} {rely : Event S → Prop}
    {post : List (Event S) → α → Prop} {p : Program S α} {g : List (Event S)}
    (h : p.Obeys (.history permits rely) post g) :
    p.Obeys (.history permits rely) (fun g' a => g <+: g' ∧ post g' a) g := by
  suffices hsuff : ∀ g₀, g₀ <+: g →
      p.Obeys (.history permits rely) (fun g' a => g₀ <+: g' ∧ post g' a) g from
    hsuff g List.prefix_rfl
  intro g₀ hg
  induction p generalizing g with
  | done a => exact ⟨hg, h⟩
  | perform op next ih =>
    exact ⟨h.1, fun r hr => ih r (h.2 r hr) (hg.trans (List.prefix_append _ _))⟩

theorem Obeys.bind {mid : γ → α → Prop} {post : γ → β → Prop} {p : Program S α}
    {f : α → Program S β} {g : γ} (hp : p.Obeys P mid g)
    (hf : ∀ g a, mid g a → (f a).Obeys P post g) : (p >>= f).Obeys P post g :=
  obeys_bind.mpr (hp.mono hf)

theorem Obeys.call_bind {op : S.Op} {post : γ → β → Prop} {f : S.Answer op → Program S β} {g : γ}
    (hpermits : P.permits g op)
    (hf : ∀ r, P.expects g ⟨op, r⟩ → (f r).Obeys P post (P.advance g ⟨op, r⟩)) :
    (call op >>= f).Obeys P post g :=
  ⟨hpermits, hf⟩

theorem Obeys.pure {post : γ → α → Prop} {a : α} {g : γ} (h : post g a) :
    (Pure.pure a : Program S α).Obeys P post g := h

@[simp] theorem eval_pure (answer : ∀ op, S.Answer op) (a : α) :
    (Pure.pure a : Program S α).eval answer = a := rfl

@[simp] theorem eval_bind_def (answer : ∀ op, S.Answer op) (p : Program S α)
    (f : α → Program S β) : (p >>= f).eval answer = (f (p.eval answer)).eval answer :=
  eval_bind answer p f

@[simp] theorem eval_call (answer : ∀ op, S.Answer op) (op : S.Op) :
    (call op).eval answer = answer op := rfl

section AndThen
variable {ε : Type}

/-- `p`, and `f` on its value; an error of `p` ends the sequence. -/
def andThen (p : Program S (Except ε α)) (f : α → Program S (Except ε β)) :
    Program S (Except ε β) :=
  p.bind fun
    | .error e => .done (.error e)
    | .ok a => f a

theorem executes_andThen {p : Program S (Except ε α)} {f : α → Program S (Except ε β)}
    {tr : List (Event S)} {b : β} : Executes (p.andThen f) tr (.ok b) ↔
      ∃ tr₁ tr₂ a, tr = tr₁ ++ tr₂ ∧ Executes p tr₁ (.ok a) ∧ Executes (f a) tr₂ (.ok b) := by
  constructor
  · intro h
    obtain ⟨tr₁, tr₂, r, rfl, h₁, h₂⟩ := executes_bind.mp h
    cases r with
    | error e => cases (runs_done.mp h₂).2
    | ok a => exact ⟨tr₁, tr₂, a, rfl, h₁, h₂⟩
  · rintro ⟨tr₁, tr₂, a, rfl, h₁, h₂⟩
    exact executes_bind.mpr ⟨tr₁, tr₂, .ok a, rfl, h₁, h₂⟩

theorem runs_andThen_perform {p : Program S (Except ε α)} {f : α → Program S (Except ε β)}
    {tr : List (Event S)} {op : S.Op} {next : S.Answer op → Program S (Except ε β)}
    (h : Runs (p.andThen f) tr (.perform op next)) :
    (∃ next', Runs p tr (.perform op next')) ∨ ∃ tr₁ tr₂ a, tr = tr₁ ++ tr₂ ∧
      Executes p tr₁ (.ok a) ∧ Runs (f a) tr₂ (.perform op next) := by
  rcases runs_bind_perform h with h | ⟨tr₁, tr₂, r, rfl, h₁, h₂⟩
  · exact .inl h
  · cases r with
    | error e => cases (runs_done.mp h₂).2
    | ok a => exact .inr ⟨tr₁, tr₂, a, rfl, h₁, h₂⟩

theorem Obeys.andThen {mid : γ → Except ε α → Prop} {post : γ → Except ε β → Prop}
    {p : Program S (Except ε α)} {f : α → Program S (Except ε β)} {g : γ} (hp : p.Obeys P mid g)
    (herror : ∀ g e, mid g (.error e) → post g (.error e))
    (hf : ∀ g a, mid g (.ok a) → (f a).Obeys P post g) : (p.andThen f).Obeys P post g := by
  refine .bind hp fun g r h => ?_
  cases r with
  | error e => exact herror g e h
  | ok a => exact hf g a h

end AndThen

theorem Obeys.eval {P : Protocol S Unit} {post : Unit → α → Prop} {answer : ∀ op, S.Answer op}
    {p : Program S α} (h : p.Obeys P post ()) (hanswer : ∀ op, P.expects () ⟨op, answer op⟩) :
    post () (p.eval answer) := by
  induction p with
  | done a => exact h
  | perform op next ih => exact ih _ (h.2 _ (hanswer op))

/-- The stateless case: a postcondition under a property of single answers. -/
abbrev Ensures (rely : Event S → Prop) (post : α → Prop) (p : Program S α) : Prop :=
  p.Obeys (.relying rely) (fun _ => post) ()

theorem ensures_perform {rely : Event S → Prop} {post : α → Prop} {op : S.Op}
    {next : S.Answer op → Program S α} :
    (Program.perform op next).Ensures rely post ↔
      ∀ r, rely ⟨op, r⟩ → (next r).Ensures rely post :=
  ⟨fun h => h.2, fun h => ⟨trivial, h⟩⟩

theorem ensures_call {rely : Event S → Prop} {op : S.Op} {post : S.Answer op → Prop} :
    (call op).Ensures rely post ↔ ∀ r, rely ⟨op, r⟩ → post r :=
  ⟨fun h => h.2, fun h => ⟨trivial, h⟩⟩

theorem ensures_bind {rely : Event S → Prop} {post : β → Prop} {p : Program S α}
    {f : α → Program S β} :
    (p >>= f).Ensures rely post ↔ p.Ensures rely (fun a => (f a).Ensures rely post) :=
  obeys_bind

theorem Ensures.bind {rely : Event S → Prop} {mid : α → Prop} {post : β → Prop}
    {p : Program S α} {f : α → Program S β} (hp : p.Ensures rely mid)
    (hf : ∀ a, mid a → (f a).Ensures rely post) : (p >>= f).Ensures rely post :=
  ensures_bind.mpr (hp.mono fun _ => hf)

theorem Ensures.pure {rely : Event S → Prop} {post : α → Prop} {a : α} (h : post a) :
    (Pure.pure a : Program S α).Ensures rely post := h

theorem ensures_true {rely : Event S → Prop} (p : Program S α) :
    p.Ensures rely (fun _ => True) := by
  induction p with
  | done a => trivial
  | perform op next ih => exact ⟨trivial, fun r _ => ih r⟩

theorem Ensures.call_bind {rely : Event S → Prop} {op : S.Op} {post : β → Prop}
    {f : S.Answer op → Program S β} (h : ∀ r, rely ⟨op, r⟩ → (f r).Ensures rely post) :
    (call op >>= f).Ensures rely post :=
  ensures_perform.mpr h

theorem Ensures.relax {rely rely' : Event S → Prop} {post : α → Prop} {p : Program S α}
    (h : p.Ensures rely post) (hrely : ∀ e, rely' e → rely e) : p.Ensures rely' post :=
  h.change (fun _ _ _ => trivial) (fun _ e he => hrely e he) (fun _ _ => rfl)

theorem Ensures.and {rely rely' : Event S → Prop} {post post' : α → Prop} {p : Program S α}
    (h : p.Ensures rely post) (h' : p.Ensures rely' post') :
    p.Ensures (fun e => rely e ∧ rely' e) (fun a => post a ∧ post' a) := by
  induction p with
  | done a => exact ⟨h, h'⟩
  | perform op next ih =>
    exact ⟨trivial, fun r hr => ih r (h.2 r hr.1) (h'.2 r hr.2)⟩

theorem Ensures.executes {rely : Event S → Prop} {post : α → Prop} {p : Program S α}
    {tr : List (Event S)} {a : α} (h : p.Ensures rely post) (hr : Executes p tr a)
    (hf : ∀ e ∈ tr, rely e) : post a :=
  Obeys.executes h hr (Protocol.follows_of_forall (fun _ _ he => he) hf)

/-- Every request of the program, however it is answered, satisfies `ok`. -/
def Performs (ok : S.Op → Prop) : Program S α → Prop
  | .done _ => True
  | .perform op next => ok op ∧ ∀ r, (next r).Performs ok

@[simp] theorem performs_done {ok : S.Op → Prop} {a : α} :
    (Program.done a : Program S α).Performs ok := trivial

@[simp] theorem performs_pure {ok : S.Op → Prop} {a : α} :
    (pure a : Program S α).Performs ok := trivial

@[simp] theorem performs_perform {ok : S.Op → Prop} {op : S.Op}
    {next : S.Answer op → Program S α} :
    (Program.perform op next).Performs ok ↔ ok op ∧ ∀ r, (next r).Performs ok := Iff.rfl

@[simp] theorem performs_call {ok : S.Op → Prop} {op : S.Op} :
    (call op : Program S (S.Answer op)).Performs ok ↔ ok op :=
  ⟨fun h => h.1, fun h => ⟨h, fun _ => trivial⟩⟩

theorem Performs.bind {ok : S.Op → Prop} {p : Program S α} {f : α → Program S β}
    (hp : p.Performs ok) (hf : ∀ a, (f a).Performs ok) : (p >>= f).Performs ok := by
  induction p with
  | done a => exact hf a
  | perform op next ih => exact ⟨hp.1, fun r => ih r (hp.2 r)⟩

theorem Performs.call_bind {ok : S.Op → Prop} {op : S.Op} {f : S.Answer op → Program S β}
    (hop : ok op) (hf : ∀ r, (f r).Performs ok) : (call op >>= f).Performs ok :=
  ⟨hop, hf⟩

theorem Performs.runs {ok : S.Op → Prop} {p q : Program S α} {tr : List (Event S)}
    (h : p.Performs ok) (hr : Runs p tr q) : ∀ e ∈ tr, ok e.op := by
  induction hr with
  | refl => simp
  | step r _ ih =>
    intro e he
    rcases List.mem_cons.mp he with rfl | he
    · exact h.1
    · exact ih (h.2 r) e he

theorem Performs.rest {ok : S.Op → Prop} {p q : Program S α} {tr : List (Event S)}
    (h : p.Performs ok) (hr : Runs p tr q) : q.Performs ok := by
  induction hr with
  | refl => exact h
  | step r _ ih => exact ih (h.2 r)

theorem performs_of_runs {ok : S.Op → Prop} {p : Program S α}
    (h : ∀ tr op next, Runs p tr (.perform op next) → ok op) : p.Performs ok := by
  induction p with
  | done a => trivial
  | perform op next ih =>
    exact ⟨h [] op next (.refl _), fun r => ih r fun tr op' next' hr =>
      h (⟨op, r⟩ :: tr) op' next' (.step r hr)⟩

theorem Performs.eval_congr {answer answer' : ∀ op, S.Answer op} {p : Program S α}
    (h : p.Performs fun op => answer op = answer' op) : p.eval answer = p.eval answer' := by
  induction p with
  | done a => rfl
  | perform op next ih =>
    rw [eval_perform, eval_perform, ← h.1]
    exact ih _ (h.2 _)

theorem Performs.mono {ok ok' : S.Op → Prop} {p : Program S α} (h : p.Performs ok)
    (hok : ∀ op, ok op → ok' op) : p.Performs ok' := by
  induction p with
  | done a => trivial
  | perform op next ih => exact ⟨hok op h.1, fun r => ih r (h.2 r)⟩

theorem Performs.permitted {ok : S.Op → Prop} {p : Program S α} {g : γ} (h : p.Performs ok)
    (hpermits : ∀ g op, ok op → P.permits g op) : p.Obeys P (fun _ _ => True) g := by
  induction p generalizing g with
  | done a => trivial
  | perform op next ih => exact ⟨hpermits g op h.1, fun r _ => ih r (h.2 r)⟩

theorem Performs.obeys {ok : S.Op → Prop} {p : Program S α} {g : γ}
    (answer : ∀ op, S.Answer op) (h : p.Performs ok)
    (hpermits : ∀ op, ok op → P.permits g op)
    (hexpects : ∀ op r, ok op → P.expects g ⟨op, r⟩ → r = answer op)
    (hadvance : ∀ op r, ok op → P.advance g ⟨op, r⟩ = g)
    (hpost : post g (p.eval answer)) : p.Obeys P post g := by
  induction p with
  | done a => exact hpost
  | perform op next ih =>
    refine ⟨hpermits op h.1, fun r hr => ?_⟩
    obtain rfl := hexpects op r h.1 hr
    rw [hadvance op _ h.1]
    exact ih _ (h.2 _) hpost

end Program
end Effect
