import Mathlib.Algebra.BigOperators.Group.Finset.Piecewise
import Mathlib.Tactic.Common

/-!
# Machines that take labelled steps

A run is a list of events, each accepted by the step function and allowed in the state it
meets. An invariant of the allowed steps holds in every state a run reaches, and a measure
that every step lowers bounds the length of a run. Two machines that answer requests are
compared by a relation between their states.
-/

namespace Machine
variable {S E : Type} {step : S → E → Option S} {allowed allowed' : S → E → Prop} {s s' : S}
  {events : List E}

inductive Run (step : S → E → Option S) (allowed : S → E → Prop) (s : S) : List E → S → Prop where
  | start : Run step allowed s [] s
  | next {events : List E} {s' s'' : S} {e : E} (earlier : Run step allowed s events s')
      (permitted : allowed s' e) (stepped : step s' e = some s'') :
      Run step allowed s (events ++ [e]) s''

theorem Run.single {e : E} (permitted : allowed s e) (stepped : step s e = some s') :
    Run step allowed s [e] s' := .next .start permitted stepped

theorem Run.append {events' : List E} {s'' : S} (h : Run step allowed s events s')
    (h' : Run step allowed s' events' s'') : Run step allowed s (events ++ events') s'' := by
  induction h' with
  | start => rwa [List.append_nil]
  | next _ permitted stepped ih =>
    rw [← List.append_assoc]
    exact .next ih permitted stepped

theorem Run.mono (h : Run step allowed s events s') (hle : ∀ s e, allowed s e → allowed' s e) :
    Run step allowed' s events s' := by
  induction h with
  | start => exact .start
  | next _ permitted stepped ih => exact .next ih (hle _ _ permitted) stepped

theorem Run.invariant {I : S → Prop} (h : Run step allowed s events s') (hinit : I s)
    (hstep : ∀ {s e s'}, I s → allowed s e → step s e = some s' → I s') : I s' := by
  induction h with
  | start => exact hinit
  | next _ permitted stepped ih => exact hstep ih permitted stepped

theorem Run.length_le {I : S → Prop} {measure : S → ℕ} (h : Run step allowed s events s')
    (hinit : I s) (hstep : ∀ {s e s'}, I s → allowed s e → step s e = some s' → I s')
    (hlower : ∀ {s e s'}, I s → allowed s e → step s e = some s' → measure s' < measure s) :
    events.length + measure s' ≤ measure s := by
  induction h with
  | start => simp
  | next earlier permitted stepped ih =>
    have hlast := hlower (earlier.invariant hinit hstep) permitted stepped
    rw [List.length_append, List.length_singleton]
    omega

def replay (step : S → E → Option S) : S → List E → Option S
  | s, [] => some s
  | s, e :: events => (step s e).bind fun s' => replay step s' events

theorem run_of_replay {replayed : S → E → Option S} (h : replay replayed s events = some s')
    (hstep : ∀ {s e s'}, replayed s e = some s' → allowed s e ∧ step s e = some s') :
    Run step allowed s events s' := by
  induction events generalizing s with
  | nil =>
    cases h
    exact .start
  | cons e events ih =>
    obtain ⟨s₁, hfirst, hrest⟩ := Option.bind_eq_some_iff.mp h
    obtain ⟨hallowed, hstepped⟩ := hstep hfirst
    exact (Run.single hallowed hstepped).append (ih hrest)

section Serve
variable {S' R A : Type}

def serve (step : S → R → A × S) : S → List R → List A × S
  | s, [] => ([], s)
  | s, r :: requests =>
    let (answers, s') := serve step (step s r).2 requests
    ((step s r).1 :: answers, s')

theorem serve_snoc (step : S → R → A × S) (s : S) (requests : List R) (r : R) :
    (serve step s (requests ++ [r])).2 = (step (serve step s requests).2 r).2 := by
  induction requests generalizing s with
  | nil => rfl
  | cons _ requests ih => exact ih _

theorem serve_eq {step : S → R → A × S} {step' : S' → R → A × S'}
    {related : List R → S → S' → Prop}
    (hstep : ∀ {r requests s s'}, related (r :: requests) s s' →
      (step s r).1 = (step' s' r).1 ∧ related requests (step s r).2 (step' s' r).2)
    {requests rest : List R} {s : S} {s' : S'} (h : related (requests ++ rest) s s') :
    (serve step s requests).1 = (serve step' s' requests).1 ∧
      related rest (serve step s requests).2 (serve step' s' requests).2 := by
  induction requests generalizing s s' with
  | nil => exact ⟨rfl, h⟩
  | cons r requests ih =>
    obtain ⟨hanswer, hrest⟩ := hstep h
    obtain ⟨hanswers, hfinal⟩ := ih hrest
    exact ⟨congrArg₂ List.cons hanswer hanswers, hfinal⟩

end Serve

theorem sum_replace {n t : ℕ} (ht : t < n) {f g : ℕ → ℕ} (h : ∀ u, u ≠ t → g u = f u) :
    ∑ u ∈ Finset.range n, g u + f t = ∑ u ∈ Finset.range n, f u + g t := by
  have hmem := Finset.mem_range.mpr ht
  have hrest : ∑ u ∈ (Finset.range n).erase t, g u = ∑ u ∈ (Finset.range n).erase t, f u :=
    Finset.sum_congr rfl fun u hu => h u (Finset.ne_of_mem_erase hu)
  have hf := Finset.add_sum_erase _ f hmem
  have hg := Finset.add_sum_erase _ g hmem
  omega

theorem card_replace {n t : ℕ} (ht : t < n) {p q : ℕ → Bool} (h : ∀ u, u ≠ t → q u = p u) :
    ((Finset.range n).filter fun u => q u).card + (p t).toNat =
      ((Finset.range n).filter fun u => p u).card + (q t).toNat := by
  have hcard : ∀ r : ℕ → Bool, ((Finset.range n).filter fun u => r u).card =
      ∑ u ∈ Finset.range n, (r u).toNat := by
    intro r
    rw [Finset.card_filter]
    exact Finset.sum_congr rfl fun u _ => by cases r u <;> rfl
  rw [hcard, hcard]
  exact sum_replace ht fun u hu => congrArg Bool.toNat (h u hu)

end Machine
