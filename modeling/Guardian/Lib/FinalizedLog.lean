import Mathlib.Data.List.Basic
import Mathlib.Order.Lattice
import Mathlib.Tactic.Common

/-!
# Logs with a finalized prefix

A log that may lose and regrow its tail, but keeps its finalized prefix. Blocks
are numbered from zero, so block `n` is the log's first `n + 1` entries.
-/

structure FinalizedLog (β : Type) where
  blocks : List β
  finalized : ℕ
  finalized_le : finalized ≤ blocks.length

namespace FinalizedLog
variable {β : Type}

def final (c : FinalizedLog β) : List β := c.blocks.take c.finalized

def upTo (c : FinalizedLog β) (number : ℕ) : List β := c.blocks.take (number + 1)

/-- What may happen between two reads: a reorganisation above the finalized
prefix, growth, and finality. -/
structure Moves (c c' : FinalizedLog β) : Prop where
  kept : c'.blocks.take c.finalized = c.final
  finality : c.finalized ≤ c'.finalized

theorem Moves.refl (c : FinalizedLog β) : Moves c c := ⟨rfl, le_rfl⟩

theorem Moves.final_extends {c c' : FinalizedLog β} (h : Moves c c') : c.final <+: c'.final := by
  have htake : c.final = c'.final.take c.finalized := by
    rw [final, final, List.take_take, min_eq_left h.finality]
    exact h.kept.symm
  rw [htake]
  exact List.take_prefix _ _

theorem upTo_prefix (c : FinalizedLog β) (number : ℕ) : c.upTo number <+: c.blocks :=
  List.take_prefix _ _

theorem upTo_final {c : FinalizedLog β} {number : ℕ} (h : number < c.finalized) :
    c.upTo number <+: c.final := by
  rw [upTo, final, show number + 1 = min (number + 1) c.finalized by omega, ← List.take_take]
  exact List.take_prefix _ _

end FinalizedLog
