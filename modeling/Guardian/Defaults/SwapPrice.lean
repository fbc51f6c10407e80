import Guardian.Core.Accepted
import Guardian.Defaults.IntentSwap
import Guardian.Lib.Double
import Guardian.Lib.Tolerance

/-!
# The price of a swap against the exact price

Both price checks floor a quotient and compare it under one tolerance. The floor is of the
exact rational price, so the checks are judged against that price.
-/

namespace Guardian
open Double Text Tolerance

def nonNegativeInteger? : JsNumber → Option ℕ
  | .finite value => if value.den = 1 ∧ 0 ≤ value.num then some value.num.toNat else none
  | _ => none

def WAD : ℤ := 10 ^ 18

def swapPriceDescription : String := "swap leg ratio within SWAP_PRICE_TOLERANCE_BPS of reference"

def checkSwapPriceTolerance (description : Option String)
    (amountA amountB referencePriceWad : ℤ) (toleranceBps : JsNumber) : CheckEntry :=
  let description := description.getD swapPriceDescription
  match nonNegativeInteger? toleranceBps with
  | none => failed description
      s!"toleranceBps must be a non-negative integer, got {toleranceBps.text}"
  | some bps =>
    if amountB = 0 then failed description "leg-B amount is zero; price ratio undefined"
    else if referencePriceWad ≤ 0 then failed description "reference price must be positive"
    else
      let observed := (amountA * WAD).tdiv amountB
      let delta :=
        if observed > referencePriceWad then observed - referencePriceWad
        else referencePriceWad - observed
      let tolerance := bpsToleranceWithWeiFloor referencePriceWad bps
      if delta ≤ tolerance then passed description
      else failed description
        (s!"observed ratio {observed} deviates from reference {referencePriceWad} " ++
          s!"by {delta} (tolerance={tolerance}, bps={toleranceBps.text})")

section Comparison
variable {bps observed expected : ℤ}

theorem delta_eq : (if observed > expected then observed - expected else expected - observed) =
    |observed - expected| := by
  split
  · rw [abs_of_pos (by omega)]
  · rw [abs_of_nonpos (by omega)]
    omega

theorem delta_le_tolerance (hexpected : 0 ≤ expected) (hbps : 0 ≤ bps) :
    |observed - expected| ≤ bpsToleranceWithWeiFloor expected bps ↔
      Within 10000 bps observed expected := by
  rw [bpsToleranceWithWeiFloor, Int.tdiv_eq_ediv_of_nonneg (mul_nonneg hexpected hbps)]
  exact le_tolerance_iff (by norm_num) hbps

end Comparison

section Price
variable {reads : PositionManagerReads} {shares actual : ℕ}

def exactDebt (shares : ℕ) (reads : PositionManagerReads) : ℚ :=
  (shares * (reads.totalAssets + VIRTUAL_ASSETS) : ℤ) / (priceDenominator reads : ℤ)

def exactRatio (amountA amountB : ℕ) : ℚ := (amountA * WAD : ℤ) / (amountB : ℤ)

theorem floor_quotient {n d : ℤ} (hd : 0 ≤ d) : ⌊(n : ℚ) / (d : ℚ)⌋ = n / d := by
  obtain ⟨m, rfl⟩ := Int.eq_ofNat_of_zero_le hd
  exact_mod_cast Rat.floor_intCast_div_natCast n m

theorem priceDenominator_nonneg : 0 ≤ priceDenominator reads := by
  unfold priceDenominator
  omega

theorem exactDebt_nonneg : 0 ≤ exactDebt shares reads := by
  have hdenom : (0 : ℚ) ≤ priceDenominator reads := by exact_mod_cast priceDenominator_nonneg
  refine div_nonneg ?_ hdenom
  simp only [VIRTUAL_ASSETS]
  positivity

theorem checkSharePrice_passed (hdenom : 0 < priceDenominator reads) (bps : ℕ) :
    (checkSharePrice shares actual reads bps).passed = true ↔
      Within 10000 bps actual ⌊exactDebt shares reads⌋ := by
  have hfloor :
      ((shares : ℤ) * (reads.totalAssets + VIRTUAL_ASSETS)).tdiv (priceDenominator reads) =
      ⌊exactDebt shares reads⌋ := by
    rw [exactDebt, floor_quotient hdenom.le]
    refine Int.tdiv_eq_ediv_of_nonneg ?_
    simp only [VIRTUAL_ASSETS]
    positivity
  unfold checkSharePrice
  dsimp only
  rw [if_neg hdenom.ne', delta_eq, hfloor, ite_passed, decide_eq_true_iff]
  exact delta_le_tolerance (Int.floor_nonneg.mpr exactDebt_nonneg) (Int.natCast_nonneg bps)

theorem checkSharePrice_zero (hdenom : priceDenominator reads = 0) (bps : ℤ) :
    (checkSharePrice shares actual reads bps).passed = false := by
  unfold checkSharePrice
  dsimp only
  rw [if_pos hdenom]
  rfl

theorem checkSwapPriceTolerance_passed {amountA amountB : ℕ} {reference : ℤ} {bps : ℕ}
    {number : JsNumber} (hnumber : nonNegativeInteger? number = some bps) (hamount : 0 < amountB)
    (hreference : 0 < reference) (description : Option String) :
    (checkSwapPriceTolerance description amountA amountB reference number).passed = true ↔
      Within 10000 bps ⌊exactRatio amountA amountB⌋ reference := by
  have hfloor : ((amountA : ℤ) * WAD).tdiv amountB = ⌊exactRatio amountA amountB⌋ := by
    rw [exactRatio, floor_quotient (Int.natCast_nonneg amountB)]
    refine Int.tdiv_eq_ediv_of_nonneg ?_
    simp only [WAD]
    positivity
  unfold checkSwapPriceTolerance
  rw [hnumber]
  dsimp only
  rw [if_neg (by omega), if_neg (by omega), delta_eq, hfloor, ite_passed, decide_eq_true_iff]
  exact delta_le_tolerance hreference.le (Int.natCast_nonneg bps)

theorem checkSwapPriceTolerance_closed {amountA amountB : ℕ} {reference : ℤ} {number : JsNumber}
    (h : amountB = 0 ∨ reference ≤ 0 ∨ nonNegativeInteger? number = none)
    (description : Option String) :
    (checkSwapPriceTolerance description amountA amountB reference number).passed = false := by
  unfold checkSwapPriceTolerance
  cases hnumber : nonNegativeInteger? number with
  | none => rfl
  | some bps =>
    dsimp only
    rcases h with h | h | h
    · rw [if_pos (by exact_mod_cast h)]
      rfl
    · split
      · rfl
      · rfl
    · rw [hnumber] at h
      cases h

theorem sharePriceEntry_decimal {pmLeg debtLeg : SwapLeg} (hpm : pmLeg.Decimal)
    (hdebt : debtLeg.Decimal) (hmatch : (checkDebtAsset debtLeg reads).passed = true) (bps : ℤ) :
    sharePriceEntry pmLeg debtLeg reads bps =
      .ok (checkSharePrice pmLeg.amountValue debtLeg.amountValue reads bps) := by
  rw [sharePriceEntry, hmatch, toBigInt_decimal hpm.2, toBigInt_decimal hdebt.2]
  rfl

end Price

/-- How a check of an observed against an expected integer judges the exact price: `actual` and
`price` are the exact sides, and the tolerance is a share of `base`. -/
structure PriceLaw (passes : ℕ → Prop) (observed expected : ℤ) (actual price base : ℚ) : Prop where
  passes_iff : ∀ bps, passes bps ↔ Within 10000 bps observed expected
  error : ∀ bps, passes bps → |actual - price| < max (base * bps / 10000) 1 + 1
  exact : passes 0 → |actual - price| < 1
  accepts : ∀ bps : ℕ, bps ≤ 10000 → |actual - price| ≤ base * bps / 10000 - 2 → passes bps
  mono : ∀ bps bps', bps ≤ bps' → passes bps → passes bps'

theorem priceLaw_expected {passes : ℕ → Prop} {n : ℤ} {price : ℚ} (hprice : 0 ≤ price)
    (h : ∀ bps : ℕ, passes bps ↔ Within 10000 bps n ⌊price⌋) :
    PriceLaw passes n ⌊price⌋ n price price where
  passes_iff := h
  error bps hpasses := by
    exact_mod_cast (((h bps).mp hpasses).error_of_floor_expected (by norm_num)
      (Int.natCast_nonneg bps)).1
  exact hpasses :=
    (((h 0).mp hpasses).error_of_floor_expected (by norm_num) (Int.natCast_nonneg 0)).2 rfl
  accepts bps hbps herror := (h bps).mpr (within_floor_expected (by norm_num)
    (Int.natCast_nonneg bps) (by exact_mod_cast hbps) (by exact_mod_cast herror))
  mono bps bps' hle hpasses := (h bps').mpr (((h bps).mp hpasses).mono
    (Int.floor_nonneg.mpr hprice) (by exact_mod_cast hle))

theorem priceLaw_observed {passes : ℕ → Prop} {reference : ℤ} {price : ℚ}
    (hreference : 0 ≤ reference)
    (h : ∀ bps : ℕ, passes bps ↔ Within 10000 bps ⌊price⌋ reference) :
    PriceLaw passes ⌊price⌋ reference reference price reference where
  passes_iff := h
  error bps hpasses := by
    exact_mod_cast (((h bps).mp hpasses).error_of_floor_observed (by norm_num)
      (Int.natCast_nonneg bps)).1
  exact hpasses :=
    (((h 0).mp hpasses).error_of_floor_observed (by norm_num) (Int.natCast_nonneg 0)).2 rfl
  accepts bps _ herror := (h bps).mpr (within_floor_observed (by norm_num)
    (by exact_mod_cast herror))
  mono bps bps' hle hpasses := (h bps').mpr (((h bps).mp hpasses).mono hreference
    (by exact_mod_cast hle))

theorem nonNegativeInteger_finite (bps : ℕ) : nonNegativeInteger? (.finite bps) = some bps := by
  simp [nonNegativeInteger?]

/-- Both price checks obey one law against the exact price, and fail closed without a price;
neither throws. -/
theorem swap_price_law (reads : PositionManagerReads) :
    (∀ pmLeg debtLeg : SwapLeg, pmLeg.Decimal → debtLeg.Decimal →
      (checkDebtAsset debtLeg reads).passed = true →
        (∀ bps : ℕ, ∃ entry, sharePriceEntry pmLeg debtLeg reads bps = .ok entry ∧
          (priceDenominator reads = 0 → entry.passed = false)) ∧
        (0 < priceDenominator reads → PriceLaw
          (fun bps => ∃ entry, sharePriceEntry pmLeg debtLeg reads bps = .ok entry ∧
            entry.passed = true)
          debtLeg.amountValue ⌊exactDebt pmLeg.amountValue reads⌋
          debtLeg.amountValue (exactDebt pmLeg.amountValue reads)
          (exactDebt pmLeg.amountValue reads))) ∧
    ∀ (amountA amountB : ℕ) (reference : ℤ) (description : Option String),
      (∀ number : JsNumber, amountB = 0 ∨ reference ≤ 0 ∨ nonNegativeInteger? number = none →
        (checkSwapPriceTolerance description amountA amountB reference number).passed = false) ∧
      (0 < amountB → 0 < reference → PriceLaw
        (fun bps => (checkSwapPriceTolerance description amountA amountB reference
          (.finite bps)).passed = true)
        ⌊exactRatio amountA amountB⌋ reference reference (exactRatio amountA amountB)
        reference) := by
  refine ⟨fun pmLeg debtLeg hpm hdebt hmatch => ?_, fun amountA amountB reference description => ?_⟩
  · have hentry := sharePriceEntry_decimal hpm hdebt hmatch
    refine ⟨fun bps => ⟨_, hentry bps, fun hzero => checkSharePrice_zero hzero _⟩, fun hdenom => ?_⟩
    refine priceLaw_expected exactDebt_nonneg fun bps => ?_
    rw [hentry, ← checkSharePrice_passed hdenom]
    constructor
    · intro h
      obtain ⟨entry, heq, hpassed⟩ := h
      cases heq
      exact hpassed
    · exact fun h => ⟨_, rfl, h⟩
  · refine ⟨fun number h => checkSwapPriceTolerance_closed h description,
      fun hamount hreference => priceLaw_observed hreference.le fun bps => ?_⟩
    exact checkSwapPriceTolerance_passed
      (nonNegativeInteger_finite bps) hamount hreference description

namespace Sample

def priceReads : PositionManagerReads := ⟨"0xowner", "0xcollateral", "0xdebt", 6, 2, 0, 0, 1⟩

def priceLeg (asset amount : String) : SwapLeg := ⟨⟨"1"⟩, asset, amount⟩

end Sample

/-- One unit off the exact price of dust passes at one basis point. -/
theorem swap_price_law_dust :
    ∃ entry, sharePriceEntry (Sample.priceLeg "0xshare" "1") (Sample.priceLeg "0xdebt" "3")
        Sample.priceReads 1 = .ok entry ∧ entry.passed = true := by
  have hlaw := ((swap_price_law Sample.priceReads).1 (Sample.priceLeg "0xshare" "1")
    (Sample.priceLeg "0xdebt" "3") (by unfold SwapLeg.Decimal; decide +kernel)
    (by unfold SwapLeg.Decimal; decide +kernel) (by decide +kernel)).2 (by decide)
  exact (hlaw.passes_iff 1).mpr (by decide +kernel)

end Guardian
