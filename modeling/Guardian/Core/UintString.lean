import Guardian.Core.Accepted

/-!
# The grammar of uint strings

The two uint schemas with their issues and every call of `BigInt`, which may throw. A check
that fails does not stop the next one, so the refinement sees what the pattern refused.
-/

namespace Guardian
open Text

inductive BigIntError where
  | syntaxError
  | rangeError
  deriving DecidableEq, Repr

/-- `BigInt(string)` of an engine. Of strings longer than any uint256 nothing is assumed: an
engine refuses them with a RangeError somewhere. -/
structure BigIntEngine where
  convert : String → Except BigIntError ℤ
  short : ∀ v, utf16Length v ≤ MAX_UINT256_DECIMAL_DIGITS →
    convert v = ((bigInt v).map Except.ok).getD (.error .syntaxError)

/-- Computations that throw, with the strings they have converted. -/
abbrev Converting (α : Type) := ExceptT BigIntError (StateM (List String)) α

namespace BigIntEngine

/-- An engine without a limit. -/
instance : Inhabited BigIntEngine :=
  ⟨fun v => ((bigInt v).map Except.ok).getD (.error .syntaxError), fun _ _ => rfl⟩

variable (engine : BigIntEngine)

def bigIntOf (v : String) : Converting ℤ := fun converted =>
  (engine.convert v, converted ++ [v])

def uint256Of (v : String) : Converting (Option ℤ) :=
  if utf16Length v > MAX_UINT256_DECIMAL_DIGITS then pure none
  else tryCatch (some <$> engine.bigIntOf v) fun _ => pure none

def issues (regexMessage message : String) (fits : ℤ → Bool) (v : String) (n : Option ℤ) :
    List String :=
  (if UINT_DECIMAL_RE v then [] else [regexMessage]) ++ if n.any fits then [] else [message]

/-- A string schema of the pattern and one refinement, by the issues it reports. -/
def refine (regexMessage message : String) (fits : ℤ → Bool) (v : String) :
    Converting (List String) :=
  issues regexMessage message fits v <$> engine.uint256Of v

def zUintString : String → Converting (List String) :=
  engine.refine "Must be a decimal integer string with no leading zeros (except '0')"
    "Value exceeds uint256" fun n => decide (n ≤ MAX_UINT256)

def zUintStringBelowMax : String → Converting (List String) :=
  engine.refine "Must be a decimal integer string"
    "Value 2^256 - 1 is reserved as a sentinel" fun n => decide (n < MAX_UINT256)

theorem caught (action : Converting ℤ) (converted : List String) :
    (tryCatch (some <$> action) fun _ => pure none : Converting (Option ℤ)) converted =
      (.ok (action converted).1.toOption, (action converted).2) := by
  simp only [tryCatch, tryCatchThe, MonadExceptOf.tryCatch, ExceptT.tryCatch, ExceptT.mk,
    Functor.map, ExceptT.map, bind, StateT.bind, pure, ExceptT.pure]
  generalize action converted = answer
  rcases answer with ⟨_ | _, _⟩ <;> rfl

theorem uint256Of_eq (v : String) (converted : List String) :
    engine.uint256Of v converted = (.ok (Guardian.uint256Of v),
      if utf16Length v > MAX_UINT256_DECIMAL_DIGITS then converted else converted ++ [v]) := by
  unfold uint256Of Guardian.uint256Of
  split
  · rfl
  · rename_i hshort
    have hvalue : (engine.convert v).toOption = bigInt v := by
      rw [engine.short v (Nat.le_of_not_lt hshort)]
      cases bigInt v <;> rfl
    rw [caught, ← hvalue]
    rfl

theorem refine_eq (regexMessage message : String) (fits : ℤ → Bool) (v : String) :
    engine.refine regexMessage message fits v [] =
      (.ok (issues regexMessage message fits v (Guardian.uint256Of v)),
        if utf16Length v > MAX_UINT256_DECIMAL_DIGITS then [] else [v]) := by
  have hvalue := engine.uint256Of_eq v []
  simp only [refine, Functor.map, ExceptT.map, ExceptT.mk, bind, StateT.bind, hvalue]
  rfl

theorem issues_eq_nil {regexMessage message : String} {fits : ℤ → Bool} {v : String}
    {n : Option ℤ} : issues regexMessage message fits v n = [] ↔
      UINT_DECIMAL_RE v = true ∧ n.any fits = true := by
  unfold issues
  cases UINT_DECIMAL_RE v <;> cases n.any fits <;> simp

end BigIntEngine

theorem uint256Of_toString {n : ℕ} (h : n < 10 ^ MAX_UINT256_DECIMAL_DIGITS) :
    uint256Of (toString n) = some (n : ℤ) := by
  have hcanonical : isCanonicalDecimal (toString n).toList = true := by
    rw [toList_toString]
    exact isCanonicalDecimal_toDigits n
  have hlength : utf16Length (toString n) ≤ MAX_UINT256_DECIMAL_DIGITS := by
    rw [utf16Length_of_digits (isDigit_of_canonical hcanonical), toList_toString]
    exact (Nat.length_toDigits_le_iff (by norm_num) (by decide)).mpr h
  rw [uint256Of, if_neg (Nat.not_lt.mpr hlength), bigInt_canonical hcanonical, toList_toString,
    decimalValue_toDigits]

theorem toString_injective {n m : ℕ} (h : toString n = toString m) : n = m := by
  have hvalue := congrArg (fun s : String => decimalValue s.toList) h
  simpa only [toList_toString, decimalValue_toDigits] using hvalue

theorem accepted_iff {fits : ℤ → Bool}
    (hfits : ∀ n : ℕ, fits n = true → n < 10 ^ MAX_UINT256_DECIMAL_DIGITS) {v : String} :
    UINT_DECIMAL_RE v = true ∧ (uint256Of v).any fits = true ↔
      ∃ n : ℕ, fits n = true ∧ v = toString n := by
  constructor
  · rintro ⟨hdecimal, hvalue⟩
    refine ⟨decimalValue v.toList, ?_, (toString_decimalValue hdecimal).symm⟩
    unfold uint256Of at hvalue
    split at hvalue
    · cases hvalue
    · rwa [bigInt_canonical hdecimal] at hvalue
  · rintro ⟨n, hn, rfl⟩
    refine ⟨?_, ?_⟩
    · rw [UINT_DECIMAL_RE, toList_toString]
      exact isCanonicalDecimal_toDigits n
    · rw [uint256Of_toString (hfits n hn)]
      exact hn

theorem fits_max {n : ℕ} : decide ((n : ℤ) ≤ MAX_UINT256) = true ↔ n ≤ 2 ^ 256 - 1 := by
  rw [decide_eq_true_iff, MAX_UINT256]
  omega

theorem fits_belowMax {n : ℕ} : decide ((n : ℤ) < MAX_UINT256) = true ↔ n < 2 ^ 256 - 1 := by
  rw [decide_eq_true_iff, MAX_UINT256]
  omega

theorem lt_digits {n : ℕ} (h : n ≤ 2 ^ 256 - 1) : n < 10 ^ MAX_UINT256_DECIMAL_DIGITS :=
  h.trans_lt (by norm_num [MAX_UINT256_DECIMAL_DIGITS])

theorem zUintString_eq_true {v : String} : zUintString v = true ↔ UINT_DECIMAL_RE v = true ∧
    ((uint256Of v).any fun n => decide (n ≤ MAX_UINT256)) = true := by
  rw [zUintString, Bool.and_eq_true]
  cases uint256Of v <;> rfl

theorem zUintString_iff {v : String} :
    zUintString v = true ↔ ∃ n : ℕ, n ≤ 2 ^ 256 - 1 ∧ v = toString n := by
  rw [zUintString_eq_true, accepted_iff]
  · simp only [fits_max]
  · exact fun n hn => lt_digits (fits_max.mp hn)

theorem zUintStringBelowMax_eq_true {v : String} :
    zUintStringBelowMax v = true ↔ UINT_DECIMAL_RE v = true ∧
      ((uint256Of v).any fun n => decide (n < MAX_UINT256)) = true := by
  rw [zUintStringBelowMax, Bool.and_eq_true]
  cases uint256Of v <;> rfl

theorem zUintStringBelowMax_iff {v : String} :
    zUintStringBelowMax v = true ↔ ∃ n : ℕ, n < 2 ^ 256 - 1 ∧ v = toString n := by
  rw [zUintStringBelowMax_eq_true, accepted_iff]
  · simp only [fits_belowMax]
  · exact fun n hn => lt_digits (Nat.le_of_lt (fits_belowMax.mp hn))

namespace BigIntEngine
variable (engine : BigIntEngine)

theorem convert_toString {n : ℕ} (h : n ≤ 2 ^ 256 - 1) : engine.convert (toString n) = .ok n := by
  have hvalue := uint256Of_toString (lt_digits h)
  unfold Guardian.uint256Of at hvalue
  split at hvalue
  · cases hvalue
  · rename_i hshort
    rw [engine.short _ (Nat.le_of_not_lt hshort), hvalue]
    rfl

theorem refine_run (regexMessage message : String) (fits : ℤ → Bool) (v : String) :
    ∃ found converted, engine.refine regexMessage message fits v [] = (.ok found, converted) ∧
      (∀ w ∈ converted, utf16Length w ≤ MAX_UINT256_DECIMAL_DIGITS) ∧
      (found = [] ↔ UINT_DECIMAL_RE v = true ∧ (Guardian.uint256Of v).any fits = true) := by
  refine ⟨_, _, engine.refine_eq regexMessage message fits v, fun w hw => ?_, issues_eq_nil⟩
  split at hw
  · cases hw
  · rename_i hshort
    rw [List.mem_singleton.mp hw]
    exact Nat.le_of_not_lt hshort

end BigIntEngine

/-- The accepted strings are the decimal renderings of the numbers in range, one each. -/
theorem uint_strings_exact (engine : BigIntEngine) :
    (∀ v, ∃ issues converted, engine.zUintString v [] = (.ok issues, converted) ∧
      (∀ w ∈ converted, utf16Length w ≤ MAX_UINT256_DECIMAL_DIGITS) ∧
      (issues = [] ↔ zUintString v = true)) ∧
    (∀ v, ∃ issues converted, engine.zUintStringBelowMax v [] = (.ok issues, converted) ∧
      (∀ w ∈ converted, utf16Length w ≤ MAX_UINT256_DECIMAL_DIGITS) ∧
      (issues = [] ↔ zUintStringBelowMax v = true)) ∧
    (∀ v, zUintString v = true ↔
      ∃ n : ℕ, n ≤ 2 ^ 256 - 1 ∧ v = toString n ∧ engine.convert v = .ok n) ∧
    (∀ v, zUintStringBelowMax v = true ↔
      ∃ n : ℕ, n < 2 ^ 256 - 1 ∧ v = toString n ∧ engine.convert v = .ok n) ∧
    (∀ n : ℕ, n ≤ 2 ^ 256 - 1 → ∃! v, zUintString v = true ∧ engine.convert v = .ok n) ∧
    (∀ n : ℕ, n < 2 ^ 256 - 1 → ∃! v, zUintStringBelowMax v = true ∧ engine.convert v = .ok n) ∧
    ∀ v w, zUintString v = true → zUintString w = true →
      (engine.convert v = engine.convert w ↔ v = w) := by
  have hmax : ∀ v, zUintString v = true ↔
      ∃ n : ℕ, n ≤ 2 ^ 256 - 1 ∧ v = toString n ∧ engine.convert v = .ok n := fun v => by
    rw [zUintString_iff]
    refine exists_congr fun n => and_congr_right fun hn => ⟨?_, And.left⟩
    rintro rfl
    exact ⟨rfl, engine.convert_toString hn⟩
  have hbelow : ∀ v, zUintStringBelowMax v = true ↔
      ∃ n : ℕ, n < 2 ^ 256 - 1 ∧ v = toString n ∧ engine.convert v = .ok n := fun v => by
    rw [zUintStringBelowMax_iff]
    refine exists_congr fun n => and_congr_right fun hn => ⟨?_, And.left⟩
    rintro rfl
    exact ⟨rfl, engine.convert_toString hn.le⟩
  have hcast : ∀ {n m : ℕ}, (Except.ok (n : ℤ) : Except BigIntError ℤ) = .ok (m : ℤ) → n = m :=
    fun h => Int.ofNat.inj (Except.ok.inj h)
  refine ⟨fun v => ?_, fun v => ?_, hmax, hbelow, fun n hn => ?_, fun n hn => ?_,
    fun v w hv hw => ?_⟩
  · obtain ⟨issues, converted, hrun, hshort, hnone⟩ := engine.refine_run
      "Must be a decimal integer string with no leading zeros (except '0')"
      "Value exceeds uint256" (fun n => decide (n ≤ MAX_UINT256)) v
    exact ⟨issues, converted, hrun, hshort, hnone.trans zUintString_eq_true.symm⟩
  · obtain ⟨issues, converted, hrun, hshort, hnone⟩ := engine.refine_run
      "Must be a decimal integer string" "Value 2^256 - 1 is reserved as a sentinel"
      (fun n => decide (n < MAX_UINT256)) v
    exact ⟨issues, converted, hrun, hshort, hnone.trans zUintStringBelowMax_eq_true.symm⟩
  · refine ⟨toString n, ⟨(hmax _).mpr ⟨n, hn, rfl, engine.convert_toString hn⟩,
      engine.convert_toString hn⟩, fun v ⟨hv, hvalue⟩ => ?_⟩
    obtain ⟨m, _, rfl, hm⟩ := (hmax v).mp hv
    rw [hcast (hm.symm.trans hvalue)]
  · refine ⟨toString n, ⟨(hbelow _).mpr ⟨n, hn, rfl, engine.convert_toString hn.le⟩,
      engine.convert_toString hn.le⟩, fun v ⟨hv, hvalue⟩ => ?_⟩
    obtain ⟨m, _, rfl, hm⟩ := (hbelow v).mp hv
    rw [hcast (hm.symm.trans hvalue)]
  · refine ⟨fun heq => ?_, fun heq => by rw [heq]⟩
    obtain ⟨n, _, rfl, hn⟩ := (hmax v).mp hv
    obtain ⟨m, _, rfl, hm⟩ := (hmax w).mp hw
    rw [hn, hm] at heq
    rw [hcast heq]

end Guardian
