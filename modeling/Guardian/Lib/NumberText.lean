import Guardian.Lib.Double
import Guardian.Lib.Text

/-!
# `Number(string)`

The literals a string converts from: blank, a radix prefix, `Infinity`, and decimals with
point and exponent. The exact value is rounded once, and past the largest double it is
infinite. A string of digits is infinite from 2^1024 - 2^970 on.
-/

namespace Double

def ofRat (q : ℚ) : JsNumber :=
  if nearest q < 2 ^ 1024 then .finite (nearest q) else .infinite false

def JsNumber.neg : JsNumber → JsNumber
  | finite q => .finite (-q)
  | infinite negative => .infinite !negative
  | nan => .nan

theorem halfEven_lt {q : ℚ} {n : ℤ} (h : q < n - 1 / 2) : halfEven q < n := by
  have hfloor : (⌊q⌋ : ℚ) ≤ q := Int.floor_le q
  have hlt : ⌊q⌋ < n := by
    have hcast : (⌊q⌋ : ℚ) < n := by linarith
    exact_mod_cast hcast
  rcases (Int.le_sub_one_of_lt hlt).lt_or_eq with hbelow | heq
  · have hup : halfEven q ≤ ⌊q⌋ + 1 := by
      unfold halfEven
      split
      · omega
      · split
        · exact le_rfl
        · split <;> omega
    omega
  · have hdown : halfEven q = ⌊q⌋ := by
      rw [halfEven, if_pos]
      rw [heq]
      push_cast
      linarith
    omega

theorem le_halfEven {q : ℚ} {n : ℤ} (heven : n % 2 = 0) (h : n - 1 / 2 ≤ q) : n ≤ halfEven q := by
  rcases le_or_gt (n : ℚ) q with hle | hlt
  · exact (Int.le_floor.mpr hle).trans (floor_le_halfEven q)
  · have hfloor : ⌊q⌋ = n - 1 := by
      refine Int.floor_eq_iff.mpr ⟨?_, ?_⟩
      · push_cast
        linarith
      · push_cast
        linarith
    unfold halfEven
    rw [hfloor]
    push_cast
    rw [if_neg (by linarith)]
    split
    · omega
    · rw [if_neg (by omega)]
      omega

theorem ulp_of_log {n a : ℕ} (h : Nat.log 2 n = a + 52) : ulp n = 2 ^ a := by
  rw [ulp_natCast, h, ← zpow_natCast]
  congr 1
  omega

theorem pow_log_le_nearest {n : ℕ} (hn : n ≠ 0) : (2 : ℚ) ^ Nat.log 2 n ≤ nearest n := by
  have hsplit : (2 : ℚ) ^ Nat.log 2 n = 2 ^ 52 * ulp n := by
    rw [ulp_natCast, ← zpow_natCast, ← zpow_natCast, ← zpow_add₀ two_ne_zero]
    congr 1
    omega
  have hquot : ((2 ^ 52 : ℤ) : ℚ) ≤ n / ulp n := by
    have hle : (2 : ℚ) ^ Nat.log 2 n ≤ n := by exact_mod_cast Nat.pow_log_le_self 2 hn
    rw [hsplit] at hle
    rw [le_div_iff₀ (ulp_pos _)]
    exact_mod_cast hle
  have hround : ((2 ^ 52 : ℤ) : ℚ) ≤ halfEven (n / ulp n) := by
    exact_mod_cast (Int.le_floor.mpr hquot).trans (floor_le_halfEven _)
  rw [hsplit]
  push_cast at hround
  exact mul_le_mul_of_nonneg_right hround (ulp_pos _).le

theorem nearest_le_pow_log (n : ℕ) : nearest n ≤ 2 ^ (Nat.log 2 n + 1) := by
  have hsplit : (2 : ℚ) ^ (Nat.log 2 n + 1) = 2 ^ 53 * ulp n := by
    rw [ulp_natCast, ← zpow_natCast, ← zpow_natCast, ← zpow_add₀ two_ne_zero]
    congr 1
    push_cast
    omega
  have hquot : (n : ℚ) / ulp n < 2 ^ 53 := by
    rw [div_lt_iff₀ (ulp_pos _), ← hsplit]
    exact_mod_cast Nat.lt_pow_succ_log_self one_lt_two n
  have hround : halfEven (n / ulp n) < 2 ^ 53 + 1 := halfEven_lt (by
    push_cast
    linarith)
  have hcast : (halfEven (n / ulp n) : ℚ) ≤ 2 ^ 53 := by exact_mod_cast Int.le_of_lt_add_one hround
  rw [hsplit]
  exact mul_le_mul_of_nonneg_right hcast (ulp_pos _).le

theorem nearest_lt_of_log {n : ℕ} (h : Nat.log 2 n = 1023) :
    nearest n < 2 ^ 1024 ↔ (n : ℚ) < 2 ^ 1024 - 2 ^ 970 := by
  have hpos : (0 : ℚ) < 2 ^ 971 := by positivity
  have hgap : (2 : ℚ) ^ 1024 = 2 ^ 53 * 2 ^ 971 := by rw [← pow_add]
  have hhalf : (2 : ℚ) ^ 970 = 1 / 2 * 2 ^ 971 := by
    rw [pow_succ (2 : ℚ) 970]
    generalize (2 : ℚ) ^ 970 = x
    linarith
  have hulp : ulp n = 2 ^ 971 := ulp_of_log h
  rw [nearest, hulp, hgap, hhalf, ← sub_mul, mul_lt_mul_iff_left₀ hpos, ← div_lt_iff₀ hpos]
  constructor
  · intro hround
    by_contra hlarge
    have hle : (2 ^ 53 : ℤ) ≤ halfEven (n / 2 ^ 971) := le_halfEven (by norm_num) (by
      push_cast
      exact not_lt.mp hlarge)
    have hcast : ((2 ^ 53 : ℤ) : ℚ) ≤ halfEven (n / 2 ^ 971) := by exact_mod_cast hle
    push_cast at hcast
    exact absurd hround (not_lt.mpr hcast)
  · intro hsmall
    have hlt : halfEven (n / 2 ^ 971) < 2 ^ 53 := halfEven_lt (by
      push_cast
      exact hsmall)
    exact_mod_cast hlt

theorem nearest_lt_iff (n : ℕ) : nearest n < 2 ^ 1024 ↔ (n : ℚ) < 2 ^ 1024 - 2 ^ 970 := by
  have hdouble : (2 : ℚ) ^ 1024 = 2 ^ 1023 * 2 := pow_succ 2 1023
  have hgap : (2 : ℚ) ^ 970 ≤ 2 ^ 1023 := pow_le_pow_right₀ (by norm_num) (by decide)
  have hpos : (0 : ℚ) < 2 ^ 970 := pow_pos two_pos 970
  rcases lt_trichotomy (Nat.log 2 n) 1023 with hlow | hlast | hhigh
  · have hn : (n : ℚ) < 2 ^ 1023 := by
      have hlt : (n : ℚ) < 2 ^ (Nat.log 2 n + 1) := by
        exact_mod_cast Nat.lt_pow_succ_log_self one_lt_two n
      exact hlt.trans_le (pow_le_pow_right₀ (by norm_num) hlow)
    have hround : nearest n ≤ 2 ^ 1023 :=
      (nearest_le_pow_log n).trans (pow_le_pow_right₀ (by norm_num) hlow)
    generalize (2 : ℚ) ^ 1024 = top, (2 : ℚ) ^ 1023 = half, (2 : ℚ) ^ 970 = gap at *
    exact iff_of_true (by linarith) (by linarith)
  · exact nearest_lt_of_log hlast
  · have hne : n ≠ 0 := by
      rintro rfl
      simp at hhigh
    have hlarge : (2 : ℚ) ^ 1024 ≤ 2 ^ Nat.log 2 n := pow_le_pow_right₀ (by norm_num) hhigh
    have hn : (2 : ℚ) ^ 1024 ≤ n :=
      hlarge.trans (by exact_mod_cast Nat.pow_log_le_self 2 hne)
    have hround : (2 : ℚ) ^ 1024 ≤ nearest n := hlarge.trans (pow_log_le_nearest hne)
    generalize (2 : ℚ) ^ 1024 = top, (2 : ℚ) ^ 970 = gap at *
    exact iff_of_false (by linarith) (by linarith)

end Double

namespace Text
open Double

def readExponent : List Char → Option ℤ
  | [] => some 0
  | 'e' :: '-' :: cs => exponent (-1) cs
  | 'E' :: '-' :: cs => exponent (-1) cs
  | 'e' :: '+' :: cs => exponent 1 cs
  | 'E' :: '+' :: cs => exponent 1 cs
  | 'e' :: cs => exponent 1 cs
  | 'E' :: cs => exponent 1 cs
  | _ => none
where
  exponent (sign : ℤ) (cs : List Char) : Option ℤ :=
    if !cs.isEmpty && cs.all isDigit then some (sign * decimalValue cs) else none

/-- Digits, a point and an exponent, with a digit before or after the point. -/
def unsignedDecimal (cs : List Char) : Option ℚ :=
  let whole := cs.takeWhile isDigit
  let (fraction, rest) := match cs.dropWhile isDigit with
    | '.' :: cs => (cs.takeWhile isDigit, cs.dropWhile isDigit)
    | cs => ([], cs)
  if whole.isEmpty && fraction.isEmpty then none
  else (readExponent rest).map fun e =>
    decimalValue (whole ++ fraction) * (10 : ℚ) ^ (e - (fraction.length : ℤ))

def unsignedNumber (cs : List Char) : JsNumber :=
  if cs = "Infinity".toList then .infinite false
  else ((unsignedDecimal cs).map ofRat).getD .nan

def radixNumber (radix : ℕ) (cs : List Char) : JsNumber :=
  ((readNonEmpty radix cs).map fun n => ofRat n).getD .nan

def number (s : String) : JsNumber :=
  match trim s.toList with
  | [] => .finite 0
  | '0' :: 'x' :: cs => radixNumber 16 cs
  | '0' :: 'X' :: cs => radixNumber 16 cs
  | '0' :: 'o' :: cs => radixNumber 8 cs
  | '0' :: 'O' :: cs => radixNumber 8 cs
  | '0' :: 'b' :: cs => radixNumber 2 cs
  | '0' :: 'B' :: cs => radixNumber 2 cs
  | '-' :: cs => (unsignedNumber cs).neg
  | '+' :: cs => unsignedNumber cs
  | cs => unsignedNumber cs

theorem unsignedNumber_digits {cs : List Char} (hne : cs ≠ [])
    (h : ∀ c ∈ cs, isDigit c = true) : unsignedNumber cs = ofRat (decimalValue cs) := by
  have htake : cs.takeWhile isDigit = cs := List.takeWhile_eq_self_iff.mpr h
  have hdrop : cs.dropWhile isDigit = [] := List.dropWhile_eq_nil_iff.mpr h
  have hword : cs ≠ "Infinity".toList := by
    rintro rfl
    exact absurd (h 'I' (by decide)) (by decide)
  rw [unsignedNumber, if_neg hword, unsignedDecimal, htake, hdrop]
  simp [readExponent, hne]

theorem number_digits {s : String} (hne : s ≠ "") (h : ∀ c ∈ s.toList, isDigit c = true) :
    number s = ofRat (decimalValue s.toList) := by
  have hcs : s.toList ≠ [] := fun hnil => hne (String.toList_inj.mp hnil)
  rw [number, trim_digits h, ← unsignedNumber_digits hcs h]
  split
  · rename_i h0
    exact absurd h0 hcs
  · rename_i h0
    exact absurd (h 'x' (by rw [h0]; simp)) (by decide)
  · rename_i h0
    exact absurd (h 'X' (by rw [h0]; simp)) (by decide)
  · rename_i h0
    exact absurd (h 'o' (by rw [h0]; simp)) (by decide)
  · rename_i h0
    exact absurd (h 'O' (by rw [h0]; simp)) (by decide)
  · rename_i h0
    exact absurd (h 'b' (by rw [h0]; simp)) (by decide)
  · rename_i h0
    exact absurd (h 'B' (by rw [h0]; simp)) (by decide)
  · rename_i h0
    exact absurd (h '-' (by rw [h0]; simp)) (by decide)
  · rename_i h0
    exact absurd (h '+' (by rw [h0]; simp)) (by decide)
  · rfl

theorem number_toString {n : ℕ} (h : n ≤ 2 ^ 53) : number (toString n) = .finite n := by
  have hlist : (toString n).toList = Nat.toDigits 10 n := toList_toString n
  have hne : toString n ≠ "" := fun hempty => Nat.toDigits_ne_nil (by
    rw [← hlist, hempty]
    rfl)
  have hlt : nearest n < 2 ^ 1024 := by
    rw [nearest_natCast h]
    calc (n : ℚ) ≤ 2 ^ 53 := by exact_mod_cast h
      _ < 2 ^ 1024 := pow_lt_pow_right₀ (by norm_num) (by norm_num)
  rw [number_digits hne fun c hc => isDigit_toDigits n c (by rwa [← hlist]), hlist,
    decimalValue_toDigits, ofRat, if_pos hlt, nearest_natCast h]

end Text
