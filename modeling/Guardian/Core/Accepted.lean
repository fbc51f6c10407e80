import Guardian.Core.TypedData
import Mathlib.Algebra.Order.Ring.Int
import Mathlib.Data.List.Basic
import Mathlib.Data.String.Basic

/-!
# What acceptance promises

The identifiers, amounts and nonces of an accepted body are canonical decimals, so
`BigInt` reads each of them and tells any two of them apart; a swap has two legs.
-/

namespace Guardian
open Text

theorem isDecimal_of_zUintString {s : String} (h : zUintString s = true) :
    UINT_DECIMAL_RE s = true := by
  unfold zUintString at h
  exact (Bool.and_eq_true_iff.mp h).1

theorem isDecimal_of_zUintStringBelowMax {s : String} (h : zUintStringBelowMax s = true) :
    UINT_DECIMAL_RE s = true := by
  unfold zUintStringBelowMax at h
  exact (Bool.and_eq_true_iff.mp h).1

theorem toBigInt_decimal {s : String} (h : UINT_DECIMAL_RE s = true) :
    toBigInt s = .ok (decimalValue s.toList : ℤ) := by
  rw [toBigInt, bigInt_canonical h]

theorem decimal_injective {s t : String} (hs : UINT_DECIMAL_RE s = true)
    (ht : UINT_DECIMAL_RE t = true) (h : decimalValue s.toList = decimalValue t.toList) : s = t :=
  String.toList_inj.mp (decimalValue_injective hs ht h)

def SwapLeg.Decimal (l : SwapLeg) : Prop :=
  UINT_DECIMAL_RE l.intent.id = true ∧ UINT_DECIMAL_RE l.amount = true

section Accept
variable {j : Json}

theorem IntentRef.accept_decimal {r : IntentRef} (h : IntentRef.accept j = some r) :
    UINT_DECIMAL_RE r.id = true := by
  simp only [IntentRef.accept, Option.bind_eq_bind, Option.bind_eq_some_iff, Option.pure_def,
    Option.some.injEq] at h
  obtain ⟨_, _, id, ⟨_, _, hid⟩, rfl⟩ := h
  exact isDecimal_of_zUintString (Json.stringWhere?_eq_some.mp hid).2

theorem IntentRequestBindingBody.accept_decimal {b : IntentRequestBindingBody}
    (h : IntentRequestBindingBody.accept j = some b) : UINT_DECIMAL_RE b.intent.id = true := by
  simp only [IntentRequestBindingBody.accept, Option.bind_eq_bind, Option.bind_eq_some_iff,
    Option.pure_def, Option.some.injEq] at h
  obtain ⟨_, _, _, _, _, _, intent, ⟨_, _, hintent⟩, _, _, _, _, rfl⟩ := h
  exact IntentRef.accept_decimal hintent

theorem IntentFundBindingBody.accept_decimal {b : IntentFundBindingBody}
    (h : IntentFundBindingBody.accept j = some b) : UINT_DECIMAL_RE b.intent.id = true := by
  simp only [IntentFundBindingBody.accept, Option.bind_eq_bind, Option.bind_eq_some_iff,
    Option.pure_def, Option.some.injEq] at h
  obtain ⟨_, _, _, _, _, _, intent, ⟨_, _, hintent⟩, _, _, _, _, _, _, rfl⟩ := h
  exact IntentRef.accept_decimal hintent

theorem SwapLeg.accept_decimal {l : SwapLeg} (h : SwapLeg.accept j = some l) : l.Decimal := by
  simp only [SwapLeg.accept, Option.bind_eq_bind, Option.bind_eq_some_iff, Option.pure_def,
    Option.some.injEq] at h
  obtain ⟨_, _, intent, ⟨_, _, hintent⟩, _, _, amount, ⟨_, _, hamount⟩, rfl⟩ := h
  exact ⟨IntentRef.accept_decimal hintent,
    isDecimal_of_zUintString (Json.stringWhere?_eq_some.mp hamount).2⟩

theorem mapM_eq_some {α β : Type} {f : α → Option β} {xs : List α} {ys : List β}
    (h : xs.mapM f = some ys) : ∀ y ∈ ys, ∃ x ∈ xs, f x = some y := by
  induction xs generalizing ys with
  | nil =>
    cases h
    simp
  | cons x xs ih =>
    simp only [List.mapM_cons, Option.bind_eq_bind, Option.bind_eq_some_iff, Option.pure_def,
      Option.some.injEq] at h
    obtain ⟨y, hy, ys, hys, rfl⟩ := h
    intro z hz
    rcases List.mem_cons.mp hz with rfl | hz
    · exact ⟨x, by simp, hy⟩
    · obtain ⟨w, hw, hwz⟩ := ih hys z hz
      exact ⟨w, by simp [hw], hwz⟩

theorem IntentSwapBody.accept_legs {b : IntentSwapBody} (h : IntentSwapBody.accept j = some b) :
    ∃ l₁ l₂, b.legs = [l₁, l₂] ∧ l₁.Decimal ∧ l₂.Decimal := by
  simp only [IntentSwapBody.accept, Option.bind_eq_bind, Option.bind_eq_some_iff, Option.pure_def,
    Option.some.injEq] at h
  obtain ⟨_, _, _, _, _, _, legs, ⟨_, _, items, _, hlegs⟩, _, hlength, _, _, rfl⟩ := h
  have hlength : legs.length = 2 := by simpa [guard] using hlength
  obtain ⟨l₁, l₂, rfl⟩ := List.length_eq_two.mp hlength
  have hdecimal : ∀ l ∈ [l₁, l₂], l.Decimal := fun l hl => by
    obtain ⟨item, _, hitem⟩ := mapM_eq_some hlegs l hl
    exact SwapLeg.accept_decimal hitem
  exact ⟨l₁, l₂, rfl, hdecimal _ (by simp), hdecimal _ (by simp)⟩

theorem RequestWhitelistingBody.accept_decimal {b : RequestWhitelistingBody}
    (h : RequestWhitelistingBody.accept j = some b) : UINT_DECIMAL_RE b.nonce = true := by
  simp only [RequestWhitelistingBody.accept, Option.bind_eq_bind, Option.bind_eq_some_iff,
    Option.pure_def, Option.some.injEq] at h
  obtain ⟨_, _, _, _, _, _, _, _, _, _, nonce, ⟨_, _, hnonce⟩, _, _, rfl⟩ := h
  exact isDecimal_of_zUintStringBelowMax (Json.stringWhere?_eq_some.mp hnonce).2

end Accept

theorem ok_bind {ε α β : Type} (a : α) (f : α → Except ε β) : (Except.ok a >>= f) = f a := rfl

def SwapLeg.idValue (l : SwapLeg) : ℕ := decimalValue l.intent.id.toList
def SwapLeg.amountValue (l : SwapLeg) : ℕ := decimalValue l.amount.toList

theorem canonicaliseSwapLegs_decimal {a b : SwapLeg} (ha : a.Decimal) (hb : b.Decimal) :
    canonicaliseSwapLegs [a, b] =
      if a.idValue < b.idValue then .ok (a, b) else if b.idValue < a.idValue then .ok (b, a)
      else if toLowerCase a.asset < toLowerCase b.asset then .ok (a, b)
      else if toLowerCase b.asset < toLowerCase a.asset then .ok (b, a)
      else if a.amountValue < b.amountValue then .ok (a, b)
      else if b.amountValue < a.amountValue then .ok (b, a) else .ok (a, b) := by
  simp only [canonicaliseSwapLegs, toBigInt_decimal ha.1, toBigInt_decimal hb.1,
    toBigInt_decimal ha.2, toBigInt_decimal hb.2, ok_bind, gt_iff_lt, Int.ofNat_lt,
    SwapLeg.idValue, SwapLeg.amountValue]
  rfl

theorem canonicaliseSwapLegs_comm {a b : SwapLeg} (ha : a.Decimal) (hb : b.Decimal)
    (hlowerA : toLowerCase a.asset = a.asset) (hlowerB : toLowerCase b.asset = b.asset) :
    canonicaliseSwapLegs [b, a] = canonicaliseSwapLegs [a, b] := by
  rw [canonicaliseSwapLegs_decimal ha hb, canonicaliseSwapLegs_decimal hb ha, hlowerA, hlowerB]
  rcases lt_trichotomy a.idValue b.idValue with hid | hid | hid
  · rw [if_neg hid.asymm, if_pos hid, if_pos hid]
  · rcases lt_trichotomy a.asset b.asset with hasset | hasset | hasset
    · rw [hid]; simp [hasset, hasset.asymm]
    · rcases lt_trichotomy a.amountValue b.amountValue with hamount | hamount | hamount
      · simp [hid, hasset, hamount, hamount.not_gt]
      · have hab : a = b := by
          obtain ⟨⟨idA⟩, assetA, amountA⟩ := a
          obtain ⟨⟨idB⟩, assetB, amountB⟩ := b
          obtain rfl := decimal_injective ha.1 hb.1 hid
          obtain rfl := decimal_injective ha.2 hb.2 hamount
          obtain rfl : assetA = assetB := hasset
          rfl
        rw [hab]
      · simp [hid, hasset, hamount, hamount.not_gt]
    · rw [hid]; simp [hasset, hasset.asymm]
  · rw [if_pos hid, if_neg hid.asymm, if_pos hid]

end Guardian
