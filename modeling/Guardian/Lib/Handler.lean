import Guardian.Lib.Program

/-!
# Requests carried out by programs

`handle f` runs a program with each of its requests carried out by a program over another
environment. Its traces are those of the program, with every event in them replaced by the
trace of what carried it out; a run that stops in between has carried out all but its last
request.
-/

namespace Effect

variable {S T : Signature} {α β : Type}

namespace Program

def handle (f : ∀ op, Program T (S.Answer op)) : Program S α → Program T α
  | .done a => .done a
  | .perform op next => (f op).bind fun r => (next r).handle f

end Program

open Program

/-- The second trace carries out the first, event by event. -/
inductive Carries (f : ∀ op, Program T (S.Answer op)) : List (Event S) → List (Event T) → Prop
  | nil : Carries f [] []
  | cons {e : Event S} {tr : List (Event S)} {walk walk' : List (Event T)} :
    Executes (f e.op) walk e.answer → Carries f tr walk' → Carries f (e :: tr) (walk ++ walk')

section Carries
variable {f : ∀ op, Program T (S.Answer op)}

theorem Carries.append {tr tr' : List (Event S)} {walk walk' : List (Event T)}
    (h : Carries f tr walk) (h' : Carries f tr' walk') : Carries f (tr ++ tr') (walk ++ walk') := by
  induction h with
  | nil => exact h'
  | cons he _ ih =>
    rw [List.cons_append, List.append_assoc]
    exact .cons he ih

theorem Carries.split {tr tr' : List (Event S)} {walk : List (Event T)}
    (h : Carries f (tr ++ tr') walk) :
    ∃ w w', walk = w ++ w' ∧ Carries f tr w ∧ Carries f tr' w' := by
  induction tr generalizing walk with
  | nil => exact ⟨[], walk, rfl, .nil, h⟩
  | cons e tr ih =>
    cases h with
    | cons he hrest =>
      obtain ⟨w, w', rfl, hw, hw'⟩ := ih hrest
      exact ⟨_, w', (List.append_assoc _ _ _).symm, .cons he hw, hw'⟩

end Carries

section Handled
variable {f : ∀ op, Program T (S.Answer op)} {p : Program S α} {walk : List (Event T)}

theorem executes_handle {a : α} : Executes (p.handle f) walk a ↔
    ∃ tr, Executes p tr a ∧ Carries f tr walk := by
  constructor
  · intro h
    induction p generalizing walk with
    | done b =>
      obtain ⟨rfl, hb⟩ := runs_done.mp h
      cases hb
      exact ⟨[], .refl _, .nil⟩
    | perform op next ih =>
      obtain ⟨w, w', r, rfl, hop, hrest⟩ := executes_bind.mp h
      obtain ⟨tr, htr, hcarries⟩ := ih r hrest
      exact ⟨⟨op, r⟩ :: tr, .step r htr, .cons hop hcarries⟩
  · intro h
    obtain ⟨tr, htr, hcarries⟩ := h
    induction hcarries generalizing p with
    | nil =>
      obtain rfl := runs_nil htr
      exact .refl _
    | cons hop _ ih =>
      cases htr with
      | step r htr => exact executes_bind.mpr ⟨_, _, r, rfl, hop, ih htr⟩

theorem runs_handle_perform {op : T.Op} {next : T.Answer op → Program T α}
    (h : Runs (p.handle f) walk (.perform op next)) :
    ∃ tr asked rest w last next', walk = w ++ last ∧ Runs p tr (.perform asked rest) ∧
      Carries f tr w ∧ Runs (f asked) last (.perform op next') := by
  induction p generalizing walk with
  | done a => cases (runs_done.mp h).2
  | perform asked rest ih =>
    rcases runs_bind_perform h with hop | hrest
    · obtain ⟨next', hop⟩ := hop
      exact ⟨[], asked, rest, [], walk, next', rfl, .refl _, .nil, hop⟩
    · obtain ⟨w, w', r, rfl, hop, hrest⟩ := hrest
      obtain ⟨tr, asked', rest', w₁, last, next', rfl, hruns, hcarries, hlast⟩ := ih r hrest
      exact ⟨⟨asked, r⟩ :: tr, asked', rest', w ++ w₁, last, next',
        (List.append_assoc _ _ _).symm, .step r hruns, .cons hop hcarries, hlast⟩

theorem Program.Performs.handle {ok : S.Op → Prop} {ok' : T.Op → Prop} (h : p.Performs ok)
    (hf : ∀ op, ok op → (f op).Performs ok') : (p.handle f).Performs ok' := by
  induction p with
  | done a => trivial
  | perform op next ih => exact .bind (hf op h.1) fun r => ih r (h.2 r)

theorem Program.Ensures.handle {rely : Event S → Prop} {rely' : Event T → Prop} {post : α → Prop}
    (h : p.Ensures rely post)
    (hf : ∀ op, (f op).Ensures rely' fun r : S.Answer op => rely ⟨op, r⟩) :
    (p.handle f).Ensures rely' post := by
  induction p with
  | done a => exact h
  | perform op next ih => exact .bind (hf op) fun r hr => ih r (h.2 r hr)

end Handled

end Effect
