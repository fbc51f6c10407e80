import Guardian.Lib.Program
import Mathlib.Data.List.Forall2

/-!
# Two programs, run side by side

A `Likeness` says which requests count as the same and which answers to them do.
`Alike` is the relational counterpart of `Obeys`: like requests, answered alike, lead
to like programs and at the end to related values. `Alike.executes` is its soundness on
pairs of runs.
-/

namespace Effect

structure Likeness (S : Signature) where
  op : S.Op → S.Op → Prop
  answer : (op op' : S.Op) → S.Answer op → S.Answer op' → Prop

namespace Likeness
variable {S : Signature} (L : Likeness S)

def Request (e e' : Event S) : Prop := L.op e.op e'.op

/-- As long as the requests are alike, so are the answers. -/
def Agree (tr tr' : List (Event S)) : Prop :=
  ∀ p ∈ tr.zip tr', L.op p.1.op p.2.op → L.answer p.1.op p.2.op p.1.answer p.2.answer

end Likeness

namespace Program
variable {S : Signature} {L : Likeness S} {α β α' β' : Type}

def Alike (L : Likeness S) (post : α → α' → Prop) : Program S α → Program S α' → Prop
  | .done a, .done a' => post a a'
  | .perform op next, .perform op' next' => L.op op op' ∧
      ∀ r r', L.answer op op' r r' → (next r).Alike L post (next' r')
  | _, _ => False

theorem Alike.pure {post : α → α' → Prop} {a : α} {a' : α'} (h : post a a') :
    (Pure.pure a : Program S α).Alike L post (Pure.pure a') := h

theorem Alike.mono {post post' : α → α' → Prop} {p : Program S α} {p' : Program S α'}
    (h : p.Alike L post p') (hpost : ∀ a a', post a a' → post' a a') : p.Alike L post' p' := by
  induction p generalizing p' with
  | done a =>
    cases p' with
    | done a' => exact hpost a a' h
    | perform op' next' => exact h.elim
  | perform op next ih =>
    cases p' with
    | done a' => exact h.elim
    | perform op' next' => exact ⟨h.1, fun r r' hr => ih r (h.2 r r' hr)⟩

theorem Alike.bind {mid : α → α' → Prop} {post : β → β' → Prop} {p : Program S α}
    {p' : Program S α'} {f : α → Program S β} {f' : α' → Program S β'} (hp : p.Alike L mid p')
    (hf : ∀ a a', mid a a' → (f a).Alike L post (f' a')) :
    (p >>= f).Alike L post (p' >>= f') := by
  induction p generalizing p' with
  | done a =>
    cases p' with
    | done a' => exact hf a a' hp
    | perform op' next' => exact hp.elim
  | perform op next ih =>
    cases p' with
    | done a' => exact hp.elim
    | perform op' next' => exact ⟨hp.1, fun r r' hr => ih r (hp.2 r r' hr)⟩

theorem Alike.call_bind {post : β → β' → Prop} {op op' : S.Op} {f : S.Answer op → Program S β}
    {f' : S.Answer op' → Program S β'} (hop : L.op op op')
    (hf : ∀ r r', L.answer op op' r r' → (f r).Alike L post (f' r')) :
    (call op >>= f).Alike L post (call op' >>= f') :=
  ⟨hop, hf⟩

theorem Alike.map {mid : α → α' → Prop} {post : β → β' → Prop} {p : Program S α}
    {p' : Program S α'} {f : α → β} {f' : α' → β'} (hp : p.Alike L mid p')
    (hf : ∀ a a', mid a a' → post (f a) (f' a')) : (f <$> p).Alike L post (f' <$> p') := by
  rw [map_eq_pure_bind, map_eq_pure_bind]
  exact hp.bind fun a a' h => .pure (hf a a' h)

theorem Alike.executes {post : α → α' → Prop} {p : Program S α} {p' : Program S α'}
    (h : p.Alike L post p') {tr tr' : List (Event S)} {a : α} {a' : α'} (hrun : Executes p tr a)
    (hrun' : Executes p' tr' a') (hagree : L.Agree tr tr') :
    List.Forall₂ L.Request tr tr' ∧ post a a' := by
  induction p generalizing p' tr tr' with
  | done b =>
    cases p' with
    | done b' =>
      obtain ⟨rfl, hb⟩ := runs_done.mp hrun
      obtain ⟨rfl, hb'⟩ := runs_done.mp hrun'
      cases hb
      cases hb'
      exact ⟨.nil, h⟩
    | perform op' next' => exact h.elim
  | perform op next ih =>
    cases p' with
    | done b' => exact h.elim
    | perform op' next' =>
      obtain ⟨r, tr₁, rfl, hrest⟩ := executes_perform.mp hrun
      obtain ⟨r', tr₁', rfl, hrest'⟩ := executes_perform.mp hrun'
      have hanswer : L.answer op op' r r' := hagree _ (.head _) h.1
      obtain ⟨hrequests, ha⟩ := ih r (h.2 r r' hanswer) hrest hrest'
        fun p hp hlike => hagree p (.tail _ hp) hlike
      exact ⟨.cons h.1 hrequests, ha⟩

end Program
end Effect
