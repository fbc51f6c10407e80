import Mathlib.Data.Int.Log
import Mathlib.Data.Rat.Floor
import Mathlib.Tactic.Linarith
import Mathlib.Tactic.NormNum

/-!
# JavaScript numbers

A finite number is the rational it denotes. Decimal text is read by rounding to the nearest
double, ties to even; an integer below 10^21 is printed with all its digits, and every other
number with the fewest digits that read back as it, so that its text holds a point or an
exponent. A value beyond the largest double stands for infinity.
-/

namespace Double

/-- The nearest integer, ties to even. -/
def halfEven (q : ℚ) : ℤ :=
  if q - ⌊q⌋ < 1 / 2 then ⌊q⌋
  else if 1 / 2 < q - ⌊q⌋ then ⌊q⌋ + 1
  else if ⌊q⌋ % 2 = 0 then ⌊q⌋ else ⌊q⌋ + 1

/-- The spacing of the doubles around a positive number. -/
def ulp (q : ℚ) : ℚ := 2 ^ max (Int.log 2 q - 52) (-1074)

def nearest (q : ℚ) : ℚ := halfEven (q / ulp q) * ulp q

def sum (a b : ℚ) : ℚ := if 0 ≤ a + b then nearest (a + b) else -nearest (-(a + b))

def mul (a b : ℚ) : ℚ := if 0 ≤ a * b then nearest (a * b) else -nearest (-(a * b))

theorem halfEven_intCast (n : ℤ) : halfEven n = n := by
  simp [halfEven]

theorem floor_le_halfEven (q : ℚ) : ⌊q⌋ ≤ halfEven q := by
  unfold halfEven
  split
  · exact le_rfl
  · split
    · omega
    · split <;> omega

theorem halfEven_le (q : ℚ) : halfEven q ≤ ⌊q⌋ + 1 := by
  unfold halfEven
  split
  · omega
  · split
    · exact le_rfl
    · split <;> omega

theorem halfEven_mono {q r : ℚ} (h : q ≤ r) : halfEven q ≤ halfEven r := by
  rcases (Int.floor_mono h).lt_or_eq with hlt | heq
  · have hq := halfEven_le q
    have hr := floor_le_halfEven r
    omega
  · unfold halfEven
    rw [← heq]
    split_ifs <;> first | omega | linarith

theorem ulp_pos (q : ℚ) : 0 < ulp q := zpow_pos two_pos _

theorem nearest_of_multiple {q : ℚ} {n : ℤ} (h : q = n * ulp q) : nearest q = q := by
  have hdiv : q / ulp q = n := by
    rw [div_eq_iff (ulp_pos q).ne']
    exact h
  rw [nearest, hdiv, halfEven_intCast, ← h]

theorem nearest_nonneg {q : ℚ} (h : 0 ≤ q) : 0 ≤ nearest q := by
  have hfloor : 0 ≤ ⌊q / ulp q⌋ := Int.floor_nonneg.mpr (div_nonneg h (ulp_pos q).le)
  exact mul_nonneg (by exact_mod_cast hfloor.trans (floor_le_halfEven _)) (ulp_pos q).le

theorem nearest_mono {q r : ℚ} (hq : 0 ≤ q) (h : q ≤ r) : nearest q ≤ nearest r := by
  rcases hq.eq_or_lt with rfl | hpos
  · rw [show nearest 0 = 0 by simp [nearest, halfEven]]
    exact nearest_nonneg h
  have hlog : Int.log 2 q ≤ Int.log 2 r := Int.log_mono_right hpos h
  rcases (show max (Int.log 2 q - 52) (-1074) ≤ max (Int.log 2 r - 52) (-1074) by
    omega).lt_or_eq with hlt | heq
  · -- `q` rounds to the next power of two at most, `r` to its own at least
    have hbelow : halfEven (q / ulp q) ≤ 2 ^ 53 := by
      have hlt53 : q / ulp q < 2 ^ 53 := by
        rw [div_lt_iff₀ (ulp_pos q), ulp, ← zpow_natCast, ← zpow_add₀ two_ne_zero]
        refine (Int.lt_zpow_succ_log_self one_lt_two q).trans_le ?_
        exact zpow_le_zpow_right₀ (by norm_num) (by push_cast; omega)
      have hfloor : ⌊q / ulp q⌋ < 2 ^ 53 := Int.floor_lt.mpr (by exact_mod_cast hlt53)
      have hle := halfEven_le (q / ulp q)
      omega
    have habove : 2 ^ 52 ≤ halfEven (r / ulp r) := by
      have hle52 : (2 : ℚ) ^ 52 ≤ r / ulp r := by
        rw [le_div_iff₀ (ulp_pos r), ulp, ← zpow_natCast, ← zpow_add₀ two_ne_zero]
        refine le_trans ?_ (Int.zpow_log_le_self one_lt_two (hpos.trans_le h))
        exact zpow_le_zpow_right₀ (by norm_num) (by push_cast; omega)
      exact (Int.le_floor.mpr (by exact_mod_cast hle52)).trans (floor_le_halfEven _)
    have hulp : ulp q * 2 ≤ ulp r := by
      rw [ulp, ulp, ← zpow_add_one₀ two_ne_zero]
      exact zpow_le_zpow_right₀ (by norm_num) (by omega)
    have hbelow' : (halfEven (q / ulp q) : ℚ) ≤ 2 ^ 53 := by exact_mod_cast hbelow
    have habove' : (2 : ℚ) ^ 52 ≤ halfEven (r / ulp r) := by exact_mod_cast habove
    calc nearest q ≤ 2 ^ 53 * ulp q := mul_le_mul_of_nonneg_right hbelow' (ulp_pos q).le
      _ = 2 ^ 52 * (ulp q * 2) := by ring
      _ ≤ 2 ^ 52 * ulp r := mul_le_mul_of_nonneg_left hulp (by norm_num)
      _ ≤ nearest r := mul_le_mul_of_nonneg_right habove' (ulp_pos r).le
  · have hulp : ulp q = ulp r := by rw [ulp, ulp, heq]
    have hround := halfEven_mono (div_le_div_of_nonneg_right h (ulp_pos r).le)
    rw [nearest, nearest, hulp]
    exact mul_le_mul_of_nonneg_right (by exact_mod_cast hround) (ulp_pos r).le

theorem mul_mono {a b c : ℚ} (ha : 0 ≤ a) (hb : 0 ≤ b) (h : b ≤ c) : mul a b ≤ mul a c := by
  have hproduct : a * b ≤ a * c := mul_le_mul_of_nonneg_left h ha
  have hnonneg : 0 ≤ a * b := mul_nonneg ha hb
  rw [mul, mul, if_pos hnonneg, if_pos (hnonneg.trans hproduct)]
  exact nearest_mono hnonneg hproduct

theorem sum_nonpos {a b : ℚ} (h : a + b < 0) : sum a b ≤ 0 := by
  rw [sum, if_neg (not_le.mpr h)]
  exact neg_nonpos.mpr (nearest_nonneg (by linarith))

theorem log_natCast (n : ℕ) : Int.log 2 (n : ℚ) = Nat.log 2 n := Int.log_natCast ..

theorem ulp_natCast (n : ℕ) : ulp n = 2 ^ ((Nat.log 2 n : ℤ) - 52) := by
  rw [ulp, log_natCast, max_eq_left (by omega)]

theorem nearest_natCast {n : ℕ} (h : n ≤ 2 ^ 53) : nearest n = n := by
  rcases h.eq_or_lt with rfl | hlt
  · refine nearest_of_multiple (n := 2 ^ 52) ?_
    rw [ulp_natCast, Nat.log_pow (by norm_num)]
    norm_num
  · have hlog : Nat.log 2 n ≤ 52 := by
      have := Nat.log_lt_of_lt_pow' (b := 2) (by norm_num) hlt
      omega
    refine nearest_of_multiple (n := n * 2 ^ (52 - Nat.log 2 n)) ?_
    rw [ulp_natCast]
    push_cast
    rw [mul_assoc, ← zpow_natCast, ← zpow_add₀ two_ne_zero, Nat.cast_sub hlog]
    simp

theorem le_nearest {n : ℕ} (h : 2 ^ 53 ≤ n) : (2 ^ 53 : ℚ) ≤ nearest n := by
  have hlog : 53 ≤ Nat.log 2 n := Nat.le_log_of_pow_le (by norm_num) h
  have hpow : (2 : ℚ) ^ 52 ≤ n / ulp n := by
    rw [le_div_iff₀ (ulp_pos _), ulp_natCast, ← zpow_natCast, ← zpow_add₀ two_ne_zero]
    have hle : 2 ^ Nat.log 2 n ≤ n := Nat.pow_log_le_self 2 (by omega)
    have hexp : ((52 : ℕ) : ℤ) + ((Nat.log 2 n : ℤ) - 52) = (Nat.log 2 n : ℕ) := by omega
    rw [hexp, zpow_natCast]
    exact_mod_cast hle
  have hround : (2 : ℚ) ^ 52 ≤ halfEven (n / ulp n) := by
    have hfloor : (2 ^ 52 : ℤ) ≤ ⌊(n : ℚ) / ulp n⌋ := Int.le_floor.mpr (by exact_mod_cast hpow)
    exact_mod_cast hfloor.trans (floor_le_halfEven _)
  have hulp : (2 : ℚ) ≤ ulp n := by
    rw [ulp_natCast]
    calc (2 : ℚ) = 2 ^ (1 : ℤ) := by norm_num
      _ ≤ 2 ^ ((Nat.log 2 n : ℤ) - 52) := zpow_le_zpow_right₀ (by norm_num) (by omega)
  calc (2 ^ 53 : ℚ) = 2 ^ 52 * 2 := by norm_num
    _ ≤ halfEven (n / ulp n) * ulp n := mul_le_mul hround hulp (by norm_num) (by
        exact le_trans (by positivity) hround)

/-- A product of natural numbers reaches a total a double counts exactly when the doubles' does. -/
theorem le_mul_natCast {m n total : ℕ} (h : total ≤ 2 ^ 53) :
    (total : ℚ) ≤ mul m n ↔ total ≤ m * n := by
  rw [mul, if_pos (by positivity), ← Nat.cast_mul]
  rcases Nat.le_total (m * n) (2 ^ 53) with hsmall | hlarge
  · rw [nearest_natCast hsmall, Nat.cast_le]
  · refine iff_of_true (le_trans ?_ (le_nearest hlarge)) (h.trans hlarge)
    exact_mod_cast h

theorem sum_one_natCast {n : ℕ} (h : n ≤ 2 ^ 53) : sum n 1 = (min (n + 1) (2 ^ 53) : ℕ) := by
  rcases h.eq_or_lt with rfl | hlt
  · decide +kernel
  · rw [sum, if_pos (by positivity), min_eq_left hlt, ← Nat.cast_one, ← Nat.cast_add,
      nearest_natCast hlt]

theorem mul_zero_eq (a : ℚ) : mul a 0 = 0 := by simp [mul, nearest, halfEven]

/-- Below 2^53 a natural number is subtracted from a double that is not smaller without
rounding. -/
theorem sum_neg_natCast {q : ℚ} {m : ℤ} (hq : q = m * ulp q) (hlt : q < 2 ^ 53) {n : ℕ}
    (hle : (n : ℚ) ≤ q) : sum q (-n) = q - n := by
  rw [sum, if_pos (by linarith), ← sub_eq_add_neg]
  rcases hle.eq_or_lt with heq | hless
  · rw [heq, sub_self]
    simp [nearest, halfEven]
  have hdiff : 0 < q - n := by linarith
  have hpos : 0 < q := lt_of_le_of_lt (Nat.cast_nonneg n) hless
  -- The spacing of the difference divides that of the number, which divides one.
  obtain ⟨a, ha⟩ : ∃ a : ℕ, (max (Int.log 2 q - 52) (-1074) : ℤ) = -a := by
    have hlog : Int.log 2 q < 53 := (Int.lt_zpow_iff_log_lt (by norm_num) hpos).mp (by
      exact_mod_cast hlt)
    exact ⟨(max (Int.log 2 q - 52) (-1074)).natAbs, by omega⟩
  obtain ⟨b, hb⟩ : ∃ b : ℕ, max (Int.log 2 (q - n) - 52) (-1074) = -(a : ℤ) - b := by
    have hmono : Int.log 2 (q - n) ≤ Int.log 2 q :=
      Int.log_mono_right hdiff (by linarith [(Nat.cast_nonneg n : (0 : ℚ) ≤ n)])
    exact ⟨(-(a : ℤ) - max (Int.log 2 (q - n) - 52) (-1074)).natAbs, by omega⟩
  refine nearest_of_multiple (n := (m - n * 2 ^ a) * 2 ^ b) ?_
  rw [ulp, ha] at hq
  rw [ulp, hb]
  push_cast
  have hone : (2 : ℚ) ^ a * 2 ^ (-(a : ℤ)) = 1 := by
    rw [zpow_neg, zpow_natCast]
    exact mul_inv_cancel₀ (pow_ne_zero _ two_ne_zero)
  have hsplit : (2 : ℚ) ^ b * 2 ^ (-(a : ℤ) - b) = 2 ^ (-(a : ℤ)) := by
    rw [← zpow_natCast, ← zpow_add₀ two_ne_zero]
    congr 1
    omega
  calc q - n = m * 2 ^ (-(a : ℤ)) - n * (2 ^ a * 2 ^ (-(a : ℤ))) := by rw [← hq, hone, mul_one]
    _ = (m - n * 2 ^ a) * 2 ^ (-(a : ℤ)) := by ring
    _ = (m - n * 2 ^ a) * (2 ^ b * 2 ^ (-(a : ℤ) - b)) := by rw [hsplit]
    _ = (m - n * 2 ^ a) * 2 ^ b * 2 ^ (-(a : ℤ) - b) := by ring

def stripZeros (digits : List Char) : List Char := (digits.reverse.dropWhile (· = '0')).reverse

/-- `k` digits that read back as a positive double, the closer ones first, and the position
of their point. -/
def candidate (q : ℚ) (k : ℕ) : Option (List Char × ℤ) :=
  let unit : ℚ := 10 ^ (Int.log 10 q + 1 - k)
  let low := ⌊q / unit⌋.toNat
  let near := if q / unit - low ≤ 1 / 2 then [low, low + 1] else [low + 1, low]
  (near.find? fun s : ℕ => decide (nearest (s * unit) = q)).map fun s =>
    let digits := (toString s).toList
    (stripZeros digits, Int.log 10 q + 1 - k + digits.length)

/-- Seventeen digits tell any two doubles apart. -/
def shortest (q : ℚ) : List Char × ℤ :=
  ((List.range 17).findSome? fun i => candidate q (i + 1)).getD ([], 0)

def exponentText (n : ℤ) : List Char :=
  'e' :: (if n < 0 then '-' else '+') :: (toString n.natAbs).toList

def fractionText (digits : List Char) (n : ℤ) : List Char :=
  if 0 < n ∧ n ≤ 21 then digits.take n.toNat ++ '.' :: digits.drop n.toNat
  else if -6 < n ∧ n ≤ 0 then '0' :: '.' :: (List.replicate (-n).toNat '0' ++ digits)
  else match digits with
    | [] => exponentText (n - 1)
    | [d] => d :: exponentText (n - 1)
    | d :: ds => d :: '.' :: (ds ++ exponentText (n - 1))

/-- The text of a positive number; a whole one is written with an exponent from 10^21 on. -/
def text (q : ℚ) : String :=
  if q.den = 1 ∧ q < 10 ^ 21 then toString q.num
  else String.ofList (fractionText (shortest q).1 (shortest q).2)

theorem text_natCast {n : ℕ} (h : (n : ℚ) < 10 ^ 21) : text n = toString n := if_pos ⟨rfl, h⟩

theorem fractionText_mark (digits : List Char) (n : ℤ) :
    ∃ c ∈ fractionText digits n, c = '.' ∨ c = 'e' := by
  unfold fractionText
  split
  · exact ⟨'.', by simp, .inl rfl⟩
  · split
    · exact ⟨'.', by simp, .inl rfl⟩
    · have hmark : 'e' ∈ exponentText (n - 1) := .head _
      match digits with
      | [] => exact ⟨'e', hmark, .inr rfl⟩
      | [d] => exact ⟨'e', .tail _ hmark, .inr rfl⟩
      | d :: e :: ds => exact ⟨'.', by simp, .inl rfl⟩

theorem text_mark {q : ℚ} (h : ¬(q.den = 1 ∧ q < 10 ^ 21)) :
    ∃ c ∈ (text q).toList, c = '.' ∨ c = 'e' := by
  rw [text, if_neg h, String.toList_ofList]
  exact fractionText_mark _ _

inductive JsNumber where
  | finite (q : ℚ)
  | infinite (negative : Bool)
  | nan
  deriving DecidableEq, Repr

def JsNumber.text : JsNumber → String
  | finite q => if q < 0 then "-" ++ Double.text (-q) else Double.text q
  | infinite negative => if negative then "-Infinity" else "Infinity"
  | nan => "NaN"

end Double
