import Mathlib.Algebra.Order.Floor.Ring
import Mathlib.Tactic.Linarith
import Mathlib.Tactic.Ring

/-!
# Tolerances across a rounding

Two integers agree up to a tolerance of `bps` parts in `scale` of the second, or up to one
unit when the tolerance is not zero. When one side is the floor of an exact value, the
exact error is known up to one unit, and an exact error two units inside is accepted.
-/

namespace Tolerance

/-- Within `bps / scale` of `expected`, or within one unit when `bps` is positive. -/
def Within (scale bps observed expected : ℤ) : Prop :=
  |observed - expected| * scale ≤ expected * bps ∨ (0 < bps ∧ |observed - expected| ≤ 1)

section Integers
variable {scale bps bps' observed expected : ℤ}

instance : Decidable (Within scale bps observed expected) :=
  inferInstanceAs (Decidable (_ ∨ _))

theorem Within.mono (h : Within scale bps observed expected) (hexpected : 0 ≤ expected)
    (hle : bps ≤ bps') : Within scale bps' observed expected := by
  rcases h with h | h
  · exact .inl (h.trans (mul_le_mul_of_nonneg_left hle hexpected))
  · exact .inr ⟨h.1.trans_le hle, h.2⟩

theorem le_tolerance_iff {d : ℤ} (hscale : 0 < scale) (hbps : 0 ≤ bps) :
    d ≤ (if 0 < expected * bps / scale then expected * bps / scale
      else if 0 < bps then 1 else 0) ↔ d * scale ≤ expected * bps ∨ (0 < bps ∧ d ≤ 1) := by
  have hd : d * scale ≤ expected * bps ↔ d ≤ expected * bps / scale :=
    (Int.le_ediv_iff_mul_le hscale).symm
  rw [hd]
  by_cases hpositive : 0 < bps
  · rw [if_pos hpositive]
    split <;> omega
  · obtain rfl : bps = 0 := by omega
    simp

end Integers

section Exact
variable {K : Type*} [Field K] [LinearOrder K] [IsStrictOrderedRing K] [FloorRing K]
  {scale bps n : ℤ} {x b : K}

theorem abs_sub_lt (h : |(n : K) - ⌊x⌋| ≤ b) : |(n : K) - x| < b + 1 := by
  have hfloor := Int.floor_le x
  have hnext := Int.lt_floor_add_one x
  obtain ⟨hlo, hhi⟩ := abs_le.mp h
  exact abs_lt.mpr ⟨by linarith, by linarith⟩

theorem abs_sub_floor_lt (h : |(n : K) - x| ≤ b) : |(n : K) - ⌊x⌋| < b + 1 := by
  have hfloor := Int.floor_le x
  have hnext := Int.lt_floor_add_one x
  obtain ⟨hlo, hhi⟩ := abs_le.mp h
  exact abs_lt.mpr ⟨by linarith, by linarith⟩

theorem Within.abs_le {observed expected : ℤ} (h : Within scale bps observed expected)
    (hscale : 0 < scale) (hbps : 0 ≤ bps) (hle : (expected : K) ≤ x) :
    |(observed : K) - expected| ≤ max (x * bps / scale) 1 := by
  have hscaleK : (0 : K) < scale := by exact_mod_cast hscale
  have hbpsK : (0 : K) ≤ bps := by exact_mod_cast hbps
  rcases h with h | ⟨_, h⟩
  · refine le_max_of_le_left ((le_div_iff₀ hscaleK).mpr ?_)
    calc |(observed : K) - expected| * scale ≤ expected * bps := by exact_mod_cast h
      _ ≤ x * bps := mul_le_mul_of_nonneg_right hle hbpsK
  · exact le_max_of_le_right (by exact_mod_cast h)

theorem Within.eq_of_zero {observed expected : ℤ} (h : Within scale 0 observed expected)
    (hscale : 0 < scale) : observed = expected := by
  rcases h with h | ⟨h, _⟩
  · have hzero : |observed - expected| = 0 := by
      have hnonneg := abs_nonneg (observed - expected)
      nlinarith
    exact sub_eq_zero.mp (abs_eq_zero.mp hzero)
  · exact absurd h (lt_irrefl 0)

theorem Within.error_of_floor_expected (h : Within scale bps n ⌊x⌋) (hscale : 0 < scale)
    (hbps : 0 ≤ bps) :
    |(n : K) - x| < max (x * bps / scale) 1 + 1 ∧ (bps = 0 → |(n : K) - x| < 1) := by
  refine ⟨abs_sub_lt (h.abs_le hscale hbps (Int.floor_le x)), fun hzero => ?_⟩
  subst hzero
  rw [h.eq_of_zero hscale, abs_sub_comm, abs_of_nonneg (sub_nonneg.mpr (Int.floor_le x))]
  linarith [Int.lt_floor_add_one x]

theorem within_floor_expected (hscale : 0 < scale) (hbps : 0 ≤ bps) (hle : bps ≤ scale)
    (h : |(n : K) - x| ≤ x * bps / scale - 2) : Within scale bps n ⌊x⌋ := by
  have hscaleK : (0 : K) < scale := by exact_mod_cast hscale
  have hbpsK : (0 : K) ≤ bps := by exact_mod_cast hbps
  have hratio : (bps : K) / scale ≤ 1 := by
    rw [div_le_one hscaleK]
    exact_mod_cast hle
  have hnext : x - 1 ≤ (⌊x⌋ : K) := by linarith [Int.lt_floor_add_one x]
  have herror := (abs_sub_floor_lt h).le
  have hfloor : x * bps / scale - 1 ≤ ⌊x⌋ * (bps / scale) := by
    have hscaled := mul_le_mul_of_nonneg_right hnext (div_nonneg hbpsK hscaleK.le)
    rw [mul_div_assoc]
    linarith
  have hbound : |(n : K) - ⌊x⌋| * scale ≤ ⌊x⌋ * bps := by
    rw [← le_div_iff₀ hscaleK, mul_div_assoc]
    linarith
  exact .inl (by exact_mod_cast hbound)

theorem Within.error_of_floor_observed (h : Within scale bps ⌊x⌋ n) (hscale : 0 < scale)
    (hbps : 0 ≤ bps) :
    |(n : K) - x| < max ((n : K) * bps / scale) 1 + 1 ∧ (bps = 0 → |(n : K) - x| < 1) := by
  have hbound := h.abs_le hscale hbps (le_refl (n : K))
  rw [abs_sub_comm] at hbound
  refine ⟨abs_sub_lt hbound, fun hzero => ?_⟩
  subst hzero
  rw [← h.eq_of_zero hscale, abs_sub_comm, abs_of_nonneg (sub_nonneg.mpr (Int.floor_le x))]
  linarith [Int.lt_floor_add_one x]

theorem within_floor_observed (hscale : 0 < scale) (h : |(n : K) - x| ≤ n * bps / scale - 2) :
    Within scale bps ⌊x⌋ n := by
  have hscaleK : (0 : K) < scale := by exact_mod_cast hscale
  have herror := (abs_sub_floor_lt h).le
  rw [abs_sub_comm] at herror
  have hbound : |(⌊x⌋ : K) - n| * scale ≤ n * bps := by
    rw [← le_div_iff₀ hscaleK]
    linarith
  exact .inl (by exact_mod_cast hbound)

end Exact

end Tolerance
