import Mathlib.Data.List.Basic
import Mathlib.Data.List.TakeWhile
import Mathlib.Tactic.Common

/-!
# Global replacement

A matcher says how much it takes at the head of a text, zero for no match. Scanning with it
from left to right cuts the text into single characters and matches, and a replacement writes
a marker for each match.
-/

namespace Replace
variable {α : Type}

structure Matcher (α : Type) where
  length : List α → ℕ
  bounded : ∀ cs, length cs ≤ cs.length

inductive Piece (α : Type) where
  | text (c : α)
  | found (u : List α)
  deriving DecidableEq, Repr

namespace Piece

def hide : Piece α → Option α
  | text c => some c
  | found _ => none

def write (marker : List α) (p : Piece α) : List α := p.hide.elim marker fun c => [c]

end Piece

namespace Matcher
variable (m : Matcher α)

/-- The first argument counts the characters of the current match still to be passed. -/
def scanFrom : ℕ → List α → List (Piece α)
  | _, [] => []
  | k + 1, _ :: cs => scanFrom k cs
  | 0, c :: cs =>
    match m.length (c :: cs) with
    | 0 => .text c :: scanFrom 0 cs
    | n + 1 => .found ((c :: cs).take (n + 1)) :: scanFrom n cs

def scan (cs : List α) : List (Piece α) := m.scanFrom 0 cs

def replace (marker cs : List α) : List α := (m.scan cs).flatMap (Piece.write marker)

theorem scanFrom_eq (k : ℕ) (cs : List α) : m.scanFrom k cs = m.scan (cs.drop k) := by
  induction cs generalizing k with
  | nil =>
    rw [List.drop_nil]
    cases k <;> rfl
  | cons c cs ih =>
    cases k with
    | zero => rfl
    | succ k => exact ih k

@[simp] theorem scan_nil : m.scan [] = [] := rfl

theorem scan_text {c : α} {cs : List α} (h : m.length (c :: cs) = 0) :
    m.scan (c :: cs) = .text c :: m.scan cs := by
  rw [scan, scanFrom, h]
  rfl

theorem scan_found {cs : List α} (h : m.length cs ≠ 0) :
    m.scan cs = .found (cs.take (m.length cs)) :: m.scan (cs.drop (m.length cs)) := by
  cases cs with
  | nil => exact absurd (Nat.le_zero.mp (m.bounded [])) h
  | cons c cs =>
    obtain ⟨n, hn⟩ := Nat.exists_eq_succ_of_ne_zero h
    rw [scan, scanFrom, hn]
    dsimp only
    rw [scanFrom_eq, List.drop_succ_cons]

/-- Induction along a scan: a character that starts no match, or a whole match. -/
@[elab_as_elim]
theorem scan_induction {motive : List α → Prop} (cs : List α) (nil : motive [])
    (text : ∀ c cs, m.length (c :: cs) = 0 → motive cs → motive (c :: cs))
    (found : ∀ cs, m.length cs ≠ 0 → motive (cs.drop (m.length cs)) → motive cs) :
    motive cs := by
  induction hn : cs.length using Nat.strongRecOn generalizing cs with
  | _ n ih =>
    cases cs with
    | nil => exact nil
    | cons c cs =>
      subst hn
      by_cases h : m.length (c :: cs) = 0
      · exact text c cs h (ih cs.length (Nat.lt_succ_self _) cs rfl)
      · refine found _ h (ih _ ?_ _ rfl)
        rw [List.length_drop]
        have hpos : 0 < (c :: cs).length := Nat.succ_pos _
        omega

theorem scan_append {u rest : List α}
    (h : ∀ v, v ≠ [] → v <:+ u → m.length (v ++ rest) = m.length v) :
    m.scan (u ++ rest) = m.scan u ++ m.scan rest := by
  induction u using m.scan_induction with
  | nil => rfl
  | text c cs hzero ih =>
    have hall := h (c :: cs) (List.cons_ne_nil _ _) List.suffix_rfl
    rw [List.cons_append] at hall ⊢
    rw [m.scan_text (hall.trans hzero), m.scan_text hzero, List.cons_append,
      ih fun v hv hsuffix => h v hv (hsuffix.trans (List.suffix_cons c cs))]
  | found cs hfound ih =>
    have hne : cs ≠ [] := by
      rintro rfl
      exact hfound (Nat.le_zero.mp (m.bounded []))
    have hall := h cs hne List.suffix_rfl
    rw [m.scan_found (by rwa [hall]), m.scan_found hfound, hall,
      List.take_append_of_le_length (m.bounded cs), List.drop_append_of_le_length (m.bounded cs),
      List.cons_append, ih fun v hv hsuffix => h v hv (hsuffix.trans (List.drop_suffix _ cs))]

theorem replace_append {u rest : List α} (marker : List α)
    (h : ∀ v, v ≠ [] → v <:+ u → m.length (v ++ rest) = m.length v) :
    m.replace marker (u ++ rest) = m.replace marker u ++ m.replace marker rest := by
  rw [replace, m.scan_append h, List.flatMap_append]
  rfl

theorem replace_text {c : α} {cs marker : List α} (h : m.length (c :: cs) = 0) :
    m.replace marker (c :: cs) = c :: m.replace marker cs := by
  rw [replace, m.scan_text h]
  rfl

theorem replace_found {cs marker : List α} (h : m.length cs ≠ 0) :
    m.replace marker cs = marker ++ m.replace marker (cs.drop (m.length cs)) := by
  rw [replace, m.scan_found h]
  rfl

theorem mem_replace {marker cs : List α} {c : α} (h : c ∈ m.replace marker cs) :
    c ∈ cs ∨ c ∈ marker := by
  induction cs using m.scan_induction with
  | nil => cases h
  | text d cs hzero ih =>
    rw [m.replace_text hzero] at h
    rcases List.mem_cons.mp h with rfl | h
    · exact .inl (.head _)
    · exact (ih h).imp_left (.tail _)
  | found cs hfound ih =>
    rw [m.replace_found hfound] at h
    rcases List.mem_append.mp h with h | h
    · exact .inr h
    · exact (ih h).imp_left fun hmem => (List.drop_sublist _ _).subset hmem

theorem replace_ne_nil (marker : List α) {cs : List α} (hmarker : marker ≠ []) (h : cs ≠ []) :
    m.replace marker cs ≠ [] := by
  obtain ⟨c, cs, rfl⟩ := List.exists_cons_of_ne_nil h
  by_cases hzero : m.length (c :: cs) = 0
  · rw [m.replace_text hzero]
    exact List.cons_ne_nil _ _
  · rw [m.replace_found hzero]
    exact List.append_ne_nil_of_left_ne_nil hmarker _

end Matcher
end Replace
