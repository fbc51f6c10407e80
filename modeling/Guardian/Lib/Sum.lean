import Guardian.Lib.Program

/-!
# Programs over two environments

A program that only talks to one environment runs unchanged beside another.
`inLeft` is that program over the sum of the two signatures: its runs are the
runs of the original, and it obeys a protocol of the sum exactly when the
original obeys the left half of it. `inRight` puts a program on the other side.
-/

namespace Effect

namespace Signature

abbrev sum (S T : Signature) : Signature where
  Op := S.Op ⊕ T.Op
  Answer
    | .inl op => S.Answer op
    | .inr op => T.Answer op

end Signature

variable {S T : Signature} {α β γ : Type}

def Event.inLeft (e : Event S) : Event (S.sum T) := ⟨.inl e.op, e.answer⟩

theorem Event.inLeft_injective : Function.Injective (Event.inLeft (S := S) (T := T)) := by
  intro d e h
  obtain ⟨op, answer⟩ := d
  obtain ⟨op', answer'⟩ := e
  cases h
  rfl

namespace Program

def inLeft : Program S α → Program (S.sum T) α
  | .done a => .done a
  | .perform op next => .perform (.inl op) fun r => (next r).inLeft

def inRight : Program T α → Program (S.sum T) α
  | .done a => .done a
  | .perform op next => .perform (.inr op) fun r => (next r).inRight

end Program

theorem runs_inLeft {p : Program S α} {tr : List (Event (S.sum T))} {q : Program (S.sum T) α} :
    Runs p.inLeft tr q ↔ ∃ tr' q', tr = tr'.map Event.inLeft ∧ q = q'.inLeft ∧ Runs p tr' q' := by
  constructor
  · intro h
    induction p generalizing tr with
    | done a =>
      obtain ⟨rfl, rfl⟩ := runs_done.mp h
      exact ⟨[], .done a, rfl, rfl, .refl _⟩
    | perform op next ih =>
      cases h with
      | refl => exact ⟨[], .perform op next, rfl, rfl, .refl _⟩
      | step r h =>
        obtain ⟨tr', q', rfl, rfl, h'⟩ := ih r h
        exact ⟨⟨op, r⟩ :: tr', q', rfl, rfl, @Runs.step S _ op next tr' q' r h'⟩
  · rintro ⟨tr', q', rfl, rfl, h⟩
    induction h with
    | refl => exact .refl _
    | @step op _ _ _ r _ ih => exact @Runs.step (S.sum T) _ (.inl op) _ _ _ r ih

theorem executes_inLeft {p : Program S α} {tr : List (Event (S.sum T))} {a : α} :
    Executes p.inLeft tr a ↔ ∃ tr', tr = tr'.map Event.inLeft ∧ Executes p tr' a := by
  constructor
  · intro h
    obtain ⟨tr', q', rfl, hq, h'⟩ := runs_inLeft.mp h
    cases q' with
    | done b =>
      cases hq
      exact ⟨tr', rfl, h'⟩
    | perform => cases hq
  · rintro ⟨tr', rfl, h⟩
    exact runs_inLeft.mpr ⟨tr', _, rfl, rfl, h⟩

theorem runs_inLeft_perform {p : Program S α} {tr : List (Event (S.sum T))}
    {op : (S.sum T).Op} {next : (S.sum T).Answer op → Program (S.sum T) α}
    (h : Runs p.inLeft tr (.perform op next)) :
    ∃ tr' op' next', tr = tr'.map Event.inLeft ∧ op = .inl op' ∧
      Runs p tr' (.perform op' next') := by
  obtain ⟨tr', q', rfl, hq, h'⟩ := runs_inLeft.mp h
  cases q' with
  | done => cases hq
  | perform op' next' =>
    cases hq
    exact ⟨tr', op', next', rfl, rfl, h'⟩

def Protocol.left (P : Protocol (S.sum T) γ) : Protocol S γ :=
  ⟨fun g op => P.permits g (.inl op), fun g e => P.expects g e.inLeft,
    fun g e => P.advance g e.inLeft⟩

theorem obeys_inLeft {P : Protocol (S.sum T) γ} {post : γ → α → Prop} {p : Program S α} {g : γ} :
    p.inLeft.Obeys P post g ↔ p.Obeys P.left post g := by
  induction p generalizing g with
  | done a => rfl
  | perform op next ih =>
    constructor
    · exact fun h => ⟨h.1, fun r hr => (ih r).mp (h.2 r hr)⟩
    · exact fun h => ⟨h.1, fun r hr => (ih r).mpr (h.2 r hr)⟩

end Effect
