import Guardian.Lib.Program
import Mathlib.Logic.Relation
import Mathlib.Logic.Function.Basic

/-!
# Programs that share a world

Any number of programs run against one world. A step lets one program issue
its next request, which the world serves, or lets the world move on its own; a
program that is never scheduled again has crashed. `reachable_obeys` is the
rely/guarantee rule: if the world, kept by the guarantees of all programs,
answers every request as its program's protocol expects, then every reachable
configuration keeps the world's invariant and every program its protocol.
-/

namespace Effect

/-- How a world in one state may serve a request of program `i`, and how it may
move between requests. -/
structure World (S : Signature) (ι σ : Type) where
  serves : ι → σ → Event S → σ → Prop
  evolves : σ → σ → Prop

structure Config (S : Signature) (ι σ α : Type) where
  world : σ
  procs : ι → Program S α
  log : List (ι × Event S)

namespace Config
variable {S : Signature} {ι σ α γ : Type} [DecidableEq ι]

def eventsOf (i : ι) (log : List (ι × Event S)) : List (Event S) :=
  (log.filter (fun x => x.1 = i)).map Prod.snd

theorem eventsOf_snoc_self (i : ι) (log : List (ι × Event S)) (e : Event S) :
    eventsOf i (log ++ [(i, e)]) = eventsOf i log ++ [e] := by
  simp [eventsOf]

theorem eventsOf_snoc_other {i j : ι} (h : i ≠ j) (log : List (ι × Event S)) (e : Event S) :
    eventsOf j (log ++ [(i, e)]) = eventsOf j log := by
  simp [eventsOf, h]

theorem mem_eventsOf {i : ι} {log : List (ι × Event S)} {e : Event S} :
    e ∈ eventsOf i log ↔ (i, e) ∈ log := by
  simp [eventsOf]

theorem eventsOf_split {i : ι} {pre post : List (ι × Event S)} {e : Event S} :
    eventsOf i (pre ++ (i, e) :: post) = eventsOf i pre ++ e :: eventsOf i post := by
  simp [eventsOf]

inductive Step (W : World S ι σ) : Config S ι σ α → Config S ι σ α → Prop where
  | serve {c : Config S ι σ α} (i : ι) {op : S.Op} {next : S.Answer op → Program S α}
      (r : S.Answer op) {s' : σ} (issued : c.procs i = .perform op next)
      (served : W.serves i c.world ⟨op, r⟩ s') :
      Step W c ⟨s', Function.update c.procs i (next r), c.log ++ [(i, ⟨op, r⟩)]⟩
  | evolve {c : Config S ι σ α} {s' : σ} (moved : W.evolves c.world s') :
      Step W c ⟨s', c.procs, c.log⟩

def start (s : σ) (procs : ι → Program S α) : Config S ι σ α := ⟨s, procs, []⟩

def Reachable (W : World S ι σ) (s : σ) (procs : ι → Program S α) (c : Config S ι σ α) : Prop :=
  Relation.ReflTransGen (Step W) (start s procs) c

theorem Reachable.serve {W : World S ι σ} {s : σ} {procs : ι → Program S α}
    {c : Config S ι σ α} (h : Reachable W s procs c) (i : ι) (op : S.Op) (r : S.Answer op) (s' : σ)
    {next : S.Answer op → Program S α} (issued : c.procs i = .perform op next)
    (served : W.serves i c.world ⟨op, r⟩ s') :
    Reachable W s procs
      ⟨s', Function.update c.procs i (next r), c.log ++ [(i, ⟨op, r⟩)]⟩ :=
  h.tail (.serve i r issued served)

inductive Served (W : World S ι σ) (i : ι) : σ → List (Event S) → σ → Prop where
  | nil (s : σ) : Served W i s [] s
  | cons {s s' s'' : σ} {e : Event S} {tr : List (Event S)} (h : W.serves i s e s')
      (rest : Served W i s' tr s'') : Served W i s (e :: tr) s''

omit [DecidableEq ι] in
theorem served_of {W : World S ι σ} {i : ι} {answer : ∀ op, S.Answer op} {I : σ → Prop}
    {P : S.Op → Prop}
    (serve : ∀ s op, I s → P op → ∃ s', W.serves i s ⟨op, answer op⟩ s' ∧ I s')
    {tr : List (Event S)} (answered : ∀ e ∈ tr, e.answer = answer e.op)
    (admitted : ∀ e ∈ tr, P e.op) {s : σ} (hs : I s) : ∃ s', Served W i s tr s' ∧ I s' := by
  induction tr generalizing s with
  | nil => exact ⟨s, .nil s, hs⟩
  | cons e tr ih =>
    obtain ⟨op, r⟩ := e
    obtain ⟨hr, hanswered⟩ := List.forall_mem_cons.mp answered
    obtain ⟨hop, hadmitted⟩ := List.forall_mem_cons.mp admitted
    obtain rfl : r = answer op := hr
    obtain ⟨s₁, hserves, h₁⟩ := serve s op hs hop
    obtain ⟨s₂, hserved, h₂⟩ := ih hanswered hadmitted h₁
    exact ⟨s₂, .cons hserves hserved, h₂⟩

theorem steps_run {W : World S ι σ} {c : Config S ι σ α} {i : ι} {tr : List (Event S)}
    {q : Program S α} {s' : σ} (hrun : Runs (c.procs i) tr q)
    (hserved : Served W i c.world tr s') :
    Relation.ReflTransGen (Step W) c
      ⟨s', Function.update c.procs i q, c.log ++ tr.map fun e => (i, e)⟩ := by
  generalize hp : c.procs i = p at hrun
  induction hrun generalizing c with
  | refl p =>
    cases hserved
    rw [← hp, Function.update_eq_self, List.map_nil, List.append_nil]
  | step r _ ih =>
    cases hserved with
    | cons hs hserved =>
      have hnext := Relation.ReflTransGen.head (Step.serve i r hp hs)
        (ih hserved (Function.update_self ..))
      simpa only [Function.update_idem, List.append_assoc, List.singleton_append,
        List.map_cons] using hnext

theorem Reachable.run {W : World S ι σ} {s : σ} {procs : ι → Program S α} {c : Config S ι σ α}
    (h : Reachable W s procs c) {i : ι} {tr : List (Event S)} {q : Program S α} {s' : σ}
    (hrun : Runs (c.procs i) tr q) (hserved : Served W i c.world tr s') :
    Reachable W s procs
      ⟨s', Function.update c.procs i q, c.log ++ tr.map fun e => (i, e)⟩ :=
  h.trans (steps_run hrun hserved)

theorem reachable_runs {W : World S ι σ} {s : σ} {procs : ι → Program S α}
    {c : Config S ι σ α} (h : Reachable W s procs c) (i : ι) :
    Runs (procs i) (eventsOf i c.log) (c.procs i) := by
  induction h with
  | refl => exact .refl _
  | tail _ step ih =>
    cases step with
    | serve j r issued served =>
      by_cases hij : j = i
      · subst j
        rw [issued] at ih
        simpa only [eventsOf_snoc_self, Function.update_self] using ih.snoc r
      · simpa only [eventsOf_snoc_other hij, Function.update_of_ne (Ne.symm hij)] using ih
    | evolve => exact ih

theorem reachable_issued {W : World S ι σ} {s : σ} {procs : ι → Program S α}
    {c : Config S ι σ α} (h : Reachable W s procs c) {i : ι} {e : Event S}
    {pre post : List (ι × Event S)} (hlog : c.log = pre ++ (i, e) :: post) :
    ∃ next, Runs (procs i) (eventsOf i pre) (.perform e.op next) := by
  have hruns := reachable_runs h i
  rw [hlog, eventsOf_split] at hruns
  obtain ⟨next, hissued, _⟩ := hruns.split
  exact ⟨next, hissued⟩

theorem reachable_invariant {W : World S ι σ} {s : σ} {procs : ι → Program S α}
    {I : σ → List (ι × Event S) → Prop} (init : I s [])
    (serve : ∀ i s log e s', I s log → W.serves i s e s' → I s' (log ++ [(i, e)]))
    (evolve : ∀ s log s', I s log → W.evolves s s' → I s' log)
    {c : Config S ι σ α} (h : Reachable W s procs c) : I c.world c.log := by
  induction h with
  | refl => exact init
  | tail _ step ih =>
    cases step with
    | serve i r _ served => exact serve i _ _ _ _ ih served
    | evolve moved => exact evolve _ _ _ ih moved

section RelyGuarantee
variable {W : World S ι σ} {s : σ} {procs : ι → Program S α}
  {I : σ → List (ι × Event S) → Prop} {P : ι → Protocol S γ}
  {post : ι → γ → α → Prop} {g : ι → γ}

theorem reachable_obeys (init : I s [])
    (serve : ∀ i s log e s', I s log →
      (P i).permits ((P i).state (g i) (eventsOf i log)) e.op → W.serves i s e s' →
      (P i).expects ((P i).state (g i) (eventsOf i log)) e ∧ I s' (log ++ [(i, e)]))
    (evolve : ∀ s log s', I s log → W.evolves s s' → I s' log)
    (progs : ∀ i, (procs i).Obeys (P i) (post i) (g i))
    {c : Config S ι σ α} (h : Reachable W s procs c) :
    I c.world c.log ∧
      ∀ i, (c.procs i).Obeys (P i) (post i) ((P i).state (g i) (eventsOf i c.log)) := by
  induction h with
  | refl => exact ⟨init, progs⟩
  | @tail b c _ step ih =>
    obtain ⟨hI, hobeys⟩ := ih
    cases step with
    | @serve i op next r s' issued served =>
      have hi := hobeys i
      rw [issued] at hi
      obtain ⟨hexpects, hI'⟩ := serve i b.world b.log ⟨op, r⟩ s' hI hi.1 served
      refine ⟨hI', fun j => ?_⟩
      by_cases hij : i = j
      · subst j
        simp only [Function.update_self, eventsOf_snoc_self, Protocol.state, List.foldl_append,
          List.foldl_cons, List.foldl_nil]
        exact hi.2 r hexpects
      · simpa only [eventsOf_snoc_other hij, Function.update_of_ne (Ne.symm hij)] using hobeys j
    | evolve moved => exact ⟨evolve _ _ _ hI moved, hobeys⟩

end RelyGuarantee

section Alone
variable (answer : σ → ∀ op, S.Answer op) (next : σ → S.Op → σ)

/-- What a program does in a world that answers each request in one way, and the world then. -/
def alone : σ → Program S α → List (Event S) × σ
  | s, .done _ => ([], s)
  | s, .perform op k =>
    let rest := alone (next s op) (k (answer s op))
    (⟨op, answer s op⟩ :: rest.1, rest.2)

def aloneResult : σ → Program S α → α
  | _, .done a => a
  | s, .perform op k => aloneResult (next s op) (k (answer s op))

omit [DecidableEq ι] in
theorem alone_runs {W : World S ι σ} {i : ι}
    (hserves : ∀ s op, W.serves i s ⟨op, answer s op⟩ (next s op)) (s : σ) (p : Program S α) :
    Executes p (alone answer next s p).1 (aloneResult answer next s p) ∧
      Served W i s (alone answer next s p).1 (alone answer next s p).2 := by
  induction p generalizing s with
  | done a => exact ⟨.refl _, .nil s⟩
  | perform op k ih =>
    obtain ⟨hexecutes, hserved⟩ := ih (answer s op) (next s op)
    exact ⟨.step _ hexecutes, .cons (hserves s op) hserved⟩

theorem Reachable.alone {W : World S ι σ} {s : σ} {procs : ι → Program S α} {c : Config S ι σ α}
    (h : Reachable W s procs c) (i : ι)
    (hserves : ∀ s op, W.serves i s ⟨op, answer s op⟩ (next s op)) : ∃ c',
      Reachable W s procs c' ∧ c'.world = (Config.alone answer next c.world (c.procs i)).2 ∧
        c'.log = c.log ++ (Config.alone answer next c.world (c.procs i)).1.map (fun e => (i, e)) ∧
        (∀ j, j ≠ i → c'.procs j = c.procs j) ∧
        c'.procs i = .done (aloneResult answer next c.world (c.procs i)) := by
  obtain ⟨hexecutes, hserved⟩ := alone_runs answer next hserves c.world (c.procs i)
  exact ⟨_, h.run hexecutes hserved, rfl, rfl, fun j hj => Function.update_of_ne hj _ _,
    Function.update_self ..⟩

end Alone
end Config
end Effect
