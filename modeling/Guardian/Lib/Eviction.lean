import Guardian.Lib.OrderedMap
import Mathlib.Logic.Function.Basic

/-!
# Eviction of dead values

A store may lose values that are dead, against a record that keeps every value. Whoever
treats a dead value as none cannot tell the two apart, and sweeping the dead ones away
keeps it so.
-/

namespace Eviction
variable {K V : Type} {dead dead' : V → Prop} {stored full : Option V}

/-- What is stored is what was recorded, or a dead value is missing. -/
inductive Evicted (dead : V → Prop) : Option V → Option V → Prop where
  | kept (full : Option V) : Evicted dead full full
  | lost {v : V} (h : dead v) : Evicted dead none (some v)

theorem Evicted.mono (h : Evicted dead stored full) (hle : ∀ v, dead v → dead' v) :
    Evicted dead' stored full := by
  cases h with
  | kept => exact .kept _
  | lost h => exact .lost (hle _ h)

theorem Evicted.trans {earlier : Option V} (h : Evicted dead stored full)
    (h' : Evicted dead full earlier) : Evicted dead stored earlier := by
  cases h with
  | kept => exact h'
  | lost h =>
    cases h' with
    | kept => exact .lost h

theorem Evicted.read_eq {β : Type} (h : Evicted dead stored full) (f : Option V → β)
    (hf : ∀ v, dead v → f (some v) = f none) : f stored = f full := by
  cases h with
  | kept => rfl
  | lost h => exact (hf _ h).symm

theorem Evicted.filter (h : Evicted dead stored full) (hle : ∀ v, dead v → dead' v)
    {keep : V → Bool} (hkeep : ∀ v, keep v = false → dead' v) :
    Evicted dead' (stored.filter keep) full := by
  cases h with
  | lost h => exact .lost (hle _ h)
  | kept =>
    cases stored with
    | none => exact .kept _
    | some v =>
      rw [Option.filter_some]
      split
      · exact .kept _
      · rename_i hdrop
        exact .lost (hkeep v (by simpa using hdrop))

section Maps
variable [DecidableEq K] {m : OrderedMap K V} {record : K → Option V}

def Evicts (dead : V → Prop) (m : OrderedMap K V) (record : K → Option V) : Prop :=
  ∀ k, Evicted dead (m.get? k) (record k)

theorem Evicts.mono (h : Evicts dead m record) (hle : ∀ v, dead v → dead' v) :
    Evicts dead' m record := fun k => (h k).mono hle

theorem Evicts.filter (h : Evicts dead m record) (hle : ∀ v, dead v → dead' v)
    {keep : K × V → Bool} (hkeep : ∀ e, keep e = false → dead' e.2) :
    Evicts dead' (m.filter keep) record := fun k => by
  rw [OrderedMap.get?_filter]
  exact (h k).filter hle fun v => hkeep (k, v)

theorem Evicts.delete (h : Evicts dead m record) {k : K} {v : V} (hk : record k = some v)
    (hdead : dead v) : Evicts dead (m.delete k) record := fun j => by
  rw [OrderedMap.get?_delete]
  split
  · rename_i hj
    subst hj
    exact hk ▸ .lost hdead
  · exact h j

theorem Evicts.set (h : Evicts dead m record) (k : K) (v : V) :
    Evicts dead (m.set k v) (Function.update record k (some v)) := fun j => by
  rw [OrderedMap.get?_set, Function.update_apply]
  split
  · exact .kept _
  · exact h j

end Maps
end Eviction
