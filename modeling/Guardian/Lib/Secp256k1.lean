import Mathlib.Data.List.Basic
import Mathlib.Data.List.TakeWhile
import Mathlib.Tactic.Common
import Mathlib.Tactic.Ring

/-!
# Signatures over secp256k1 and their encodings

A pair of numbers below the order of the curve, its two halves of `s`, its DER encoding and
its compact one. Both encodings are numerals of a fixed base; DER leaves out leading zeros and
puts one before a byte that would read as a sign.
-/

namespace Numeral

def fixed (base : ℕ) : ℕ → ℕ → List ℕ
  | 0, _ => []
  | width + 1, n => fixed base width (n / base) ++ [n % base]

def value (base : ℕ) (ds : List ℕ) : ℕ := ds.foldl (fun n d => n * base + d) 0

variable {base : ℕ}

@[simp] theorem length_fixed (width n : ℕ) : (fixed base width n).length = width := by
  induction width generalizing n with
  | zero => rfl
  | succ width ih => rw [fixed, List.length_append, ih]; rfl

theorem fixed_lt (hbase : 0 < base) (width n : ℕ) : ∀ d ∈ fixed base width n, d < base := by
  induction width generalizing n with
  | zero => simp [fixed]
  | succ width ih =>
    intro d hd
    rcases List.mem_append.mp hd with hd | hd
    · exact ih _ d hd
    · rw [List.mem_singleton.mp hd]
      exact Nat.mod_lt n hbase

theorem value_snoc (ds : List ℕ) (d : ℕ) : value base (ds ++ [d]) = value base ds * base + d := by
  rw [value, List.foldl_append]
  rfl

theorem value_zero_cons (ds : List ℕ) : value base (0 :: ds) = value base ds := by
  rw [value, List.foldl_cons, Nat.zero_mul]
  rfl

theorem value_fixed {width n : ℕ} (h : n < base ^ width) : value base (fixed base width n) = n := by
  induction width generalizing n with
  | zero =>
    rw [pow_zero, Nat.lt_one_iff] at h
    rw [h]
    rfl
  | succ width ih =>
    have hdiv : n / base < base ^ width := Nat.div_lt_of_lt_mul (by rwa [mul_comm, ← pow_succ])
    rw [fixed, value_snoc, ih hdiv]
    exact Nat.div_add_mod' n base

def trimmed (ds : List ℕ) : List ℕ := ds.dropWhile fun d => d = 0

theorem value_trimmed (ds : List ℕ) : value base (trimmed ds) = value base ds := by
  induction ds with
  | nil => rfl
  | cons d ds ih =>
    by_cases hd : d = 0
    · subst hd
      rw [value_zero_cons, ← ih]
      rfl
    · rw [trimmed, List.dropWhile_cons_of_neg (by simpa using hd)]

end Numeral

namespace Secp256k1
open Numeral

def order : ℕ := 0xFFFFFFFFFFFFFFFFFFFFFFFFFFFFFFFEBAAEDCE6AF48A03BBFD25E8CD0364141

structure Signature where
  r : ℕ
  s : ℕ
  r_pos : 0 < r
  r_lt : r < order
  s_pos : 0 < s
  s_lt : s < order
  deriving DecidableEq, Repr

namespace Signature
variable (sig : Signature)

def negated : Signature where
  r := sig.r
  s := order - sig.s
  r_pos := sig.r_pos
  r_lt := sig.r_lt
  s_pos := Nat.sub_pos_of_lt sig.s_lt
  s_lt := Nat.sub_lt (by decide) sig.s_pos

/-- The one of `sig` and its negation with `s` in the lower half. -/
def low : Signature := if sig.s ≤ order / 2 then sig else sig.negated

theorem low_eq : sig.low = sig ∨ sig.low = sig.negated := by
  unfold low
  split
  · exact .inl rfl
  · exact .inr rfl

theorem low_s_le : sig.low.s ≤ order / 2 := by
  unfold low
  split
  · assumption
  · rename_i hhigh
    change order - sig.s ≤ order / 2
    have hhalf : order = 2 * (order / 2) + 1 := by decide
    omega

def signed : List ℕ → List ℕ
  | [] => [0]
  | d :: ds => if 128 ≤ d then 0 :: d :: ds else d :: ds

def derContent (n : ℕ) : List ℕ := signed (trimmed (fixed 256 32 n))

/-- Tag, length and content. -/
def tagged (tag : ℕ) (content : List ℕ) : List ℕ := tag :: content.length :: content

/-- `SEQUENCE { r INTEGER, s INTEGER }`. -/
def der : List UInt8 :=
  (tagged 0x30 (tagged 2 (derContent sig.r) ++ tagged 2 (derContent sig.s))).map UInt8.ofNat

def readTagged (tag : ℕ) : List ℕ → Option (List ℕ × List ℕ)
  | t :: len :: rest =>
    if t = tag ∧ len ≤ rest.length then some (rest.take len, rest.drop len) else none
  | _ => none

def ofPair (r s : ℕ) : Option Signature :=
  if h : (0 < r ∧ r < order) ∧ 0 < s ∧ s < order then some ⟨r, s, h.1.1, h.1.2, h.2.1, h.2.2⟩
  else none

def ofDer (bytes : List UInt8) : Option Signature := do
  let (content, tail) ← readTagged 0x30 (bytes.map UInt8.toNat)
  let (r, rest) ← readTagged 2 content
  let (s, rest') ← readTagged 2 rest
  if tail = [] ∧ rest' = [] then ofPair (value 256 r) (value 256 s) else none

theorem readTagged_tagged (tag : ℕ) (content rest : List ℕ) :
    readTagged tag (tagged tag content ++ rest) = some (content, rest) := by
  simp only [tagged, List.cons_append, readTagged, List.length_append, true_and]
  rw [if_pos (Nat.le_add_right _ _), List.take_left, List.drop_left]

theorem signed_lt {ds : List ℕ} (h : ∀ d ∈ ds, d < 256) : ∀ d ∈ signed ds, d < 256 := by
  cases ds with
  | nil => decide
  | cons d ds =>
    rw [signed]
    split
    · exact List.forall_mem_cons.mpr ⟨by decide, h⟩
    · exact h

theorem length_signed_le (ds : List ℕ) : (signed ds).length ≤ ds.length + 1 := by
  cases ds with
  | nil => exact le_rfl
  | cons d ds =>
    rw [signed]
    split
    · exact le_rfl
    · exact Nat.le_succ _

theorem value_signed {base : ℕ} (ds : List ℕ) : value base (signed ds) = value base ds := by
  cases ds with
  | nil => exact value_zero_cons []
  | cons d ds =>
    rw [signed]
    split
    · exact value_zero_cons _
    · rfl

theorem mem_trimmed {ds : List ℕ} {d : ℕ} (h : d ∈ trimmed ds) : d ∈ ds :=
  (List.dropWhile_sublist _).subset h

theorem derContent_lt (n : ℕ) : ∀ d ∈ derContent n, d < 256 := by
  rw [derContent]
  exact signed_lt fun d hd => fixed_lt (by decide) 32 n d (mem_trimmed hd)

theorem length_derContent_le (n : ℕ) : (derContent n).length ≤ 33 := by
  have hsigned := length_signed_le (trimmed (fixed 256 32 n))
  have hsub : (trimmed (fixed 256 32 n)).length ≤ (fixed 256 32 n).length :=
    (List.dropWhile_sublist _).length_le
  rw [length_fixed] at hsub
  exact hsigned.trans (Nat.succ_le_succ hsub)

theorem value_derContent {n : ℕ} (h : n < order) : value 256 (derContent n) = n := by
  have hsmall : n < 256 ^ 32 := h.trans (by decide)
  rw [derContent, value_signed, value_trimmed, value_fixed hsmall]

theorem map_toNat_ofNat {ds : List ℕ} (h : ∀ d ∈ ds, d < 256) :
    (ds.map UInt8.ofNat).map UInt8.toNat = ds := by
  rw [List.map_map]
  refine (List.map_congr_left fun d hd => ?_).trans (List.map_id ds)
  exact UInt8.toNat_ofNat_of_lt (h d hd)

theorem tagged_lt {tag : ℕ} {content : List ℕ} (htag : tag < 256) (hlength : content.length < 256)
    (h : ∀ d ∈ content, d < 256) : ∀ d ∈ tagged tag content, d < 256 :=
  List.forall_mem_cons.mpr ⟨htag, List.forall_mem_cons.mpr ⟨hlength, h⟩⟩

theorem ofDer_der : ofDer sig.der = some sig := by
  have hr := length_derContent_le sig.r
  have hs := length_derContent_le sig.s
  have hpair : (tagged 2 (derContent sig.r) ++ tagged 2 (derContent sig.s)).length < 256 := by
    simp only [tagged, List.length_append, List.length_cons]
    omega
  have hbytes : ∀ d ∈ tagged 0x30 (tagged 2 (derContent sig.r) ++ tagged 2 (derContent sig.s)),
      d < 256 :=
    tagged_lt (by decide) hpair <| List.forall_mem_append.mpr
      ⟨tagged_lt (by decide) (by omega) (derContent_lt _),
        tagged_lt (by decide) (by omega) (derContent_lt _)⟩
  have hwhole := readTagged_tagged 0x30
    (tagged 2 (derContent sig.r) ++ tagged 2 (derContent sig.s)) []
  have hlast := readTagged_tagged 2 (derContent sig.s) []
  rw [List.append_nil] at hwhole hlast
  rw [ofDer, der, map_toNat_ofNat hbytes, hwhole]
  simp only [Option.bind_eq_bind, Option.bind_some, readTagged_tagged, hlast, and_self, if_true]
  rw [value_derContent sig.r_lt, value_derContent sig.s_lt, ofPair,
    dif_pos ⟨⟨sig.r_pos, sig.r_lt⟩, sig.s_pos, sig.s_lt⟩]

def hexFixed (width n : ℕ) : List Char := (fixed 16 width n).map Nat.digitChar

def compactHex : List Char := hexFixed 64 sig.r ++ hexFixed 64 sig.s

theorem length_compactHex : sig.compactHex.length = 128 := by
  rw [compactHex, List.length_append, hexFixed, hexFixed, List.length_map, List.length_map,
    length_fixed, length_fixed]

end Signature
end Secp256k1
