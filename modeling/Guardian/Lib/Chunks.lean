import Mathlib.Data.List.Chain
import Mathlib.Data.Rat.Floor
import Mathlib.Tactic.Common
import Mathlib.Tactic.Linarith

/-!
# Reading an interval backwards in chunks

Spans of at most `size` numbers each, from the top of an interval down to its bottom: every
span ends right below the one before, and only the last may be shorter.
-/

namespace Chunks

structure Span where
  first : ℤ
  last : ℤ
  deriving DecidableEq, Repr

def Span.Has (s : Span) (b : ℤ) : Prop := s.first ≤ b ∧ b ≤ s.last

def chunk (lo size top : ℤ) : Span := ⟨max lo (top - size + 1), top⟩

def Descends (lo size : ℤ) : ℤ → List Span → Prop
  | _, [] => True
  | top, s :: spans => lo ≤ top ∧ s = chunk lo size top ∧ Descends lo size (s.first - 1) spans

def bottom (top : ℤ) (spans : List Span) : ℤ := spans.foldl (fun _ s => s.first - 1) top

section Descent
variable {lo size top : ℤ} {spans : List Span}

@[simp] theorem bottom_nil : bottom top [] = top := rfl

@[simp] theorem bottom_cons {s : Span} : bottom top (s :: spans) = bottom (s.first - 1) spans :=
  rfl

theorem chunk_bounds (hsize : 0 < size) (h : lo ≤ top) :
    lo ≤ (chunk lo size top).first ∧ (chunk lo size top).first ≤ top ∧
      top - (chunk lo size top).first + 1 ≤ size := by
  simp only [chunk]
  omega

theorem Descends.bounded (hsize : 0 < size) (h : Descends lo size top spans) :
    ∀ s ∈ spans, lo ≤ s.first ∧ 1 ≤ s.last - s.first + 1 ∧ s.last - s.first + 1 ≤ size := by
  induction spans generalizing top with
  | nil => simp
  | cons s spans ih =>
    obtain ⟨hlo, rfl, hrest⟩ := h
    obtain ⟨hfirst, hle, hwidth⟩ := chunk_bounds hsize hlo
    refine List.forall_mem_cons.mpr ⟨⟨hfirst, ?_, hwidth⟩, ih hrest⟩
    change 1 ≤ top - (chunk lo size top).first + 1
    omega

theorem Descends.head (h : Descends lo size top spans) : ∀ s ∈ spans.head?, s.last = top := by
  cases spans with
  | nil => simp
  | cons s spans =>
    intro t ht
    obtain rfl : s = t := by simpa using ht
    rw [h.2.1]
    rfl

theorem Descends.contiguous (h : Descends lo size top spans) :
    spans.IsChain fun s t => t.last = s.first - 1 := by
  induction spans generalizing top with
  | nil => exact .nil
  | cons s spans ih =>
    exact List.isChain_cons.mpr ⟨h.2.2.head, ih h.2.2⟩

theorem Descends.bottom_bounds (hsize : 0 < size) (h : Descends lo size top spans)
    (hlo : lo ≤ top + 1) : lo ≤ bottom top spans + 1 ∧ bottom top spans ≤ top := by
  induction spans generalizing top with
  | nil => exact ⟨hlo, le_rfl⟩
  | cons s spans ih =>
    obtain ⟨hge, rfl, hrest⟩ := h
    obtain ⟨hfirst, hle, -⟩ := chunk_bounds hsize hge
    obtain ⟨hlow, hhigh⟩ := ih hrest (by omega)
    rw [bottom_cons]
    omega

theorem Descends.covers (hsize : 0 < size) (h : Descends lo size top spans) (b : ℤ) :
    (∃ s ∈ spans, s.Has b) ↔ bottom top spans < b ∧ b ≤ top := by
  induction spans generalizing top with
  | nil =>
    rw [bottom_nil]
    simp only [List.not_mem_nil, false_and, exists_false, false_iff]
    omega
  | cons s spans ih =>
    obtain ⟨hge, rfl, hrest⟩ := h
    obtain ⟨hfirst, hle, -⟩ := chunk_bounds hsize hge
    obtain ⟨-, hhigh⟩ := hrest.bottom_bounds hsize (by omega)
    have hhead : (chunk lo size top).Has b ↔ (chunk lo size top).first ≤ b ∧ b ≤ top := Iff.rfl
    simp only [List.mem_cons, exists_eq_or_imp]
    rw [ih hrest, bottom_cons, hhead]
    omega

theorem Descends.append {spans' : List Span} (h : Descends lo size top spans)
    (h' : Descends lo size (bottom top spans) spans') :
    Descends lo size top (spans ++ spans') := by
  induction spans generalizing top with
  | nil => exact h'
  | cons s spans ih => exact ⟨h.1, h.2.1, ih h.2.2 h'⟩

theorem Descends.length_lt (h : Descends lo size top spans)
    (hne : spans ≠ []) : (spans.length - 1) * size < top - lo + 1 := by
  induction spans generalizing top with
  | nil => exact absurd rfl hne
  | cons s spans ih =>
    obtain ⟨hge, rfl, hrest⟩ := h
    rw [List.length_cons, Nat.cast_succ, add_sub_cancel_right]
    cases spans with
    | nil =>
      simp only [List.length_nil, Nat.cast_zero, zero_mul]
      omega
    | cons t spans =>
      have hfull := hrest.1
      have hlt := ih hrest (List.cons_ne_nil _ _)
      have hwidth : (chunk lo size top).first = top - size + 1 := by
        simp only [chunk] at hfull ⊢
        omega
      rw [hwidth] at hlt
      rw [List.length_cons, Nat.cast_succ, add_sub_cancel_right] at hlt
      rw [List.length_cons, Nat.cast_succ, add_mul, one_mul]
      omega

theorem Descends.length_le (hsize : 0 < size) (h : Descends lo size top spans) :
    spans.length ≤ ⌈((top - lo + 1 : ℤ) : ℚ) / size⌉₊ := by
  by_cases hne : spans = []
  · rw [hne]
    exact Nat.zero_le _
  have hlt := h.length_lt hne
  have hpos := List.length_pos_iff.mpr hne
  have hcast : ((spans.length - 1 : ℕ) : ℤ) = spans.length - 1 := by omega
  rw [← hcast] at hlt
  have hbelow : spans.length - 1 < ⌈((top - lo + 1 : ℤ) : ℚ) / size⌉₊ := by
    rw [Nat.lt_ceil, lt_div_iff₀ (by exact_mod_cast hsize)]
    exact_mod_cast hlt
  omega

end Descent
end Chunks
