import Guardian.Core.Responses
import Guardian.Lib.NumberText

/-!
# The time of a signature

`nowIso` writes a time in the form that the response schema asks for exactly when the year has
four digits; every other field is in range whatever the time is.
-/

namespace Guardian
open Text

theorem civilOfDays_month (days : ℤ) :
    1 ≤ (civilOfDays days).2.1 ∧ (civilOfDays days).2.1 ≤ 12 := by
  simp only [civilOfDays]
  split <;> omega

theorem civilOfDays_day (days : ℤ) :
    1 ≤ (civilOfDays days).2.2 ∧ (civilOfDays days).2.2 ≤ 31 := by
  simp only [civilOfDays]
  omega

theorem civilOfDays_year (days : ℤ) :
    0 ≤ (civilOfDays days).1 ∧ (civilOfDays days).1 ≤ 9999 ↔ -719528 ≤ days ∧ days ≤ 2932896 := by
  simp only [civilOfDays]
  have hera : (days + 719468) / 146097 ≤ -2 ∨ (days + 719468) / 146097 = -1 ∨
      (days + 719468) / 146097 = 24 ∨ 25 ≤ (days + 719468) / 146097 ∨
      0 ≤ (days + 719468) / 146097 ∧ (days + 719468) / 146097 ≤ 23 := by omega
  rcases hera with h | h | h | h | h
  · split <;> split <;> omega
  · rw [h]
    split <;> split <;> omega
  · rw [h]
    split <;> split <;> omega
  · split <;> split <;> omega
  · split <;> split <;> omega

structure IsDigits (n : ℕ) (cs : List Char) : Prop where
  length : cs.length = n
  digits : ∀ c ∈ cs, isDigit c = true

theorem digitsThen_append {n : ℕ} {rest : List Char → Bool} {ds cs : List Char}
    (h : IsDigits n ds) : digitsThen n rest (ds ++ cs) = rest cs := by
  rw [digitsThen, List.take_left' h.length, List.drop_left' h.length, h.length,
    List.all_eq_true.mpr h.digits]
  simp

theorem padLeft_digits {width : ℕ} {n : ℤ} (hwidth : 0 < width) (hlow : 0 ≤ n)
    (hhigh : n < 10 ^ width) : IsDigits width (padLeft width (toString n)).toList := by
  obtain ⟨k, rfl⟩ := Int.eq_ofNat_of_zero_le hlow
  have hfits : (Nat.toDigits 10 k).length ≤ width :=
    (Nat.length_toDigits_le_iff (by norm_num) hwidth).mpr (by exact_mod_cast hhigh)
  have htext : (toString (k : ℤ)).toList = Nat.toDigits 10 k := toList_toString k
  rw [padLeft, String.toList_append, htext, String.toList_ofList]
  constructor
  · rw [List.length_append, List.length_replicate]
    omega
  · intro c hc
    rcases List.mem_append.mp hc with hzero | hdigit
    · rw [List.eq_of_mem_replicate hzero]
      decide
    · exact isDigit_toDigits k c hdigit

theorem isoYear_digits {year : ℤ} (h : 0 ≤ year ∧ year ≤ 9999) :
    IsDigits 4 (isoYear year).toList := by
  rw [isoYear, if_pos h]
  exact padLeft_digits (by norm_num) h.1 (by omega)

theorem digitsThen_isoYear {year : ℤ} {rest : List Char → Bool} {cs : List Char}
    (h : ¬(0 ≤ year ∧ year ≤ 9999)) : digitsThen 4 rest ((isoYear year).toList ++ cs) = false := by
  rw [isoYear, if_neg h, String.toList_append]
  split <;> simp [digitsThen, isDigit]

theorem fractionZ_digits {n : ℕ} {ds : List Char} (hn : 0 < n) (h : IsDigits n ds) :
    fractionZ ('.' :: (ds ++ ['Z'])) = true := by
  have hdigit : isDigit 'Z' = false := by decide
  have htake : (ds ++ ['Z']).takeWhile isDigit = ds := by
    rw [List.takeWhile_append_of_pos h.digits, List.takeWhile_cons_of_neg (by simp [hdigit]),
      List.append_nil]
  have hdrop : (ds ++ ['Z']).dropWhile isDigit = ['Z'] := by
    rw [List.dropWhile_append_of_pos h.digits, List.dropWhile_cons_of_neg (by simp [hdigit])]
  have hne : ds ≠ [] := by
    intro hnil
    have hlength := h.length
    rw [hnil] at hlength
    simp at hlength
    omega
  rw [fractionZ, htake, hdrop]
  simp [hne]

theorem toList_nowIso (now : ℤ) : (nowIso now).toList =
    (isoYear (civilOfDays (now / 86400000)).1).toList ++ '-' ::
      ((padLeft 2 (toString (civilOfDays (now / 86400000)).2.1)).toList ++ '-' ::
      ((padLeft 2 (toString (civilOfDays (now / 86400000)).2.2)).toList ++ 'T' ::
      ((padLeft 2 (toString (now % 86400000 / 3600000))).toList ++ ':' ::
      ((padLeft 2 (toString (now % 86400000 / 60000 % 60))).toList ++ ':' ::
      ((padLeft 2 (toString (now % 86400000 / 1000 % 60))).toList ++ '.' ::
      ((padLeft 3 (toString (now % 86400000 % 1000))).toList ++ ['Z'])))))) := by
  simp [nowIso, String.toList_append]

theorem nowIso_rfc3339 (now : ℤ) : RFC3339_UTC_RE (nowIso now) = true ↔
    -62167219200000 ≤ now ∧ now ≤ 253402300799999 := by
  have hyear : 0 ≤ (civilOfDays (now / 86400000)).1 ∧ (civilOfDays (now / 86400000)).1 ≤ 9999 ↔
      -62167219200000 ≤ now ∧ now ≤ 253402300799999 := by
    rw [civilOfDays_year]
    omega
  rw [← hyear, RFC3339_UTC_RE, toList_nowIso]
  by_cases h : 0 ≤ (civilOfDays (now / 86400000)).1 ∧ (civilOfDays (now / 86400000)).1 ≤ 9999
  · have hmonth := civilOfDays_month (now / 86400000)
    have hday := civilOfDays_day (now / 86400000)
    rw [digitsThen_append (isoYear_digits h)]
    rw [charThen, digitsThen_append (padLeft_digits (by norm_num) (by omega) (by omega))]
    rw [charThen, digitsThen_append (padLeft_digits (by norm_num) (by omega) (by omega))]
    rw [charThen, digitsThen_append (padLeft_digits (by norm_num) (by omega) (by omega))]
    rw [charThen, digitsThen_append (padLeft_digits (by norm_num) (by omega) (by omega))]
    rw [charThen, digitsThen_append (padLeft_digits (by norm_num) (by omega) (by omega))]
    rw [fractionZ_digits (by norm_num) (padLeft_digits (by norm_num) (by omega) (by omega))]
    simpa using h
  · rw [digitsThen_isoYear h]
    simpa using h

end Guardian
