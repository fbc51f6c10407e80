import Guardian.Lib.Text
import Mathlib.Data.Nat.Bitwise
import Mathlib.Data.Vector.Defs

/-!
# Signed bodies

The MAC input is the timestamp text, a point and the raw body. HMAC-SHA-256 is any
function from a key and a message to 32 bytes.
-/

namespace Guardian
open Text

abbrev Bytes := List UInt8

abbrev MacFunction := Bytes → Bytes → List.Vector UInt8 32

/-- UTF-8, as `TextEncoder.encode`. -/
def encode (s : String) : Bytes := s.toList.flatMap String.utf8EncodeChar

def hexDigit (n : ℕ) : Char := if n < 10 then Char.ofNat (48 + n) else Char.ofNat (87 + n)

def bytesToHex (bytes : Bytes) : String :=
  String.ofList (bytes.flatMap fun b => [hexDigit (b.toNat / 16), hexDigit (b.toNat % 16)])

def macMessage (unixSecondsAscii : String) (rawBody : Bytes) : Bytes :=
  encode (unixSecondsAscii ++ ".") ++ rawBody

def computeBodyHmacHex (hmacSha256 : MacFunction) (secret unixSecondsAscii : String)
    (rawBody : Bytes) : String :=
  bytesToHex (hmacSha256 (encode secret) (macMessage unixSecondsAscii rawBody)).toList

def timingSafeEqualHex (a b : String) : Bool :=
  if (codeUnits a).length ≠ (codeUnits b).length then false
  else decide (((codeUnits a).zip (codeUnits b)).foldl (fun diff p => diff ||| (p.1 ^^^ p.2)) 0 = 0)

theorem foldl_diff {xs ys : List ℕ} (h : xs.length = ys.length) (diff : ℕ) :
    (xs.zip ys).foldl (fun diff p => diff ||| (p.1 ^^^ p.2)) diff = 0 ↔ diff = 0 ∧ xs = ys := by
  induction xs generalizing ys diff with
  | nil =>
    obtain rfl := List.length_eq_zero_iff.mp h.symm
    simp
  | cons x xs ih =>
    cases ys with
    | nil => cases h
    | cons y ys =>
      rw [List.zip_cons_cons, List.foldl_cons, ih (Nat.succ.inj h), Nat.or_eq_zero_iff,
        Nat.xor_eq_zero_iff, List.cons.injEq, and_assoc]

theorem timingSafeEqualHex_iff {a b : String} : timingSafeEqualHex a b = true ↔ a = b := by
  unfold timingSafeEqualHex
  split
  case isTrue hlen =>
    constructor
    · intro h
      cases h
    · rintro rfl
      exact absurd rfl hlen
  case isFalse hlen =>
    rw [decide_eq_true_iff, foldl_diff (not_ne_iff.mp hlen)]
    constructor
    · rintro ⟨-, h⟩
      exact codeUnits_injective h
    · rintro rfl
      exact ⟨rfl, rfl⟩

/-- `/^\d+$/`. -/
def isTimestamp (s : String) : Bool := !s.toList.isEmpty && s.toList.all isDigit

theorem encode_digit {c : Char} (h : isDigit c = true) :
    String.utf8EncodeChar c = [UInt8.ofNat c.toNat] := by
  have hc : c.toNat ≤ 57 := by
    simp only [isDigit, Bool.and_eq_true, decide_eq_true_eq] at h
    exact h.2
  unfold String.utf8EncodeChar
  exact if_pos (show c.toNat ≤ 0x7f by omega)

theorem encode_digits {cs : List Char} (h : ∀ c ∈ cs, isDigit c = true) :
    cs.flatMap String.utf8EncodeChar = cs.map fun c => UInt8.ofNat c.toNat := by
  induction cs with
  | nil => rfl
  | cons c cs ih =>
    rw [List.flatMap_cons, encode_digit (h c (.head _)), ih fun d hd => h d (.tail _ hd)]
    rfl

theorem macMessage_eq {ts : String} (h : ∀ c ∈ ts.toList, isDigit c = true) (rawBody : Bytes) :
    macMessage ts rawBody = (ts.toList.map fun c => UInt8.ofNat c.toNat) ++ 46 :: rawBody := by
  rw [macMessage, encode, String.toList_append, List.flatMap_append, encode_digits h,
    List.append_assoc]
  rfl

theorem digit_ne_point {c : Char} (h : isDigit c = true) : UInt8.ofNat c.toNat ≠ 46 := by
  simp only [isDigit, Bool.and_eq_true, decide_eq_true_eq] at h
  have h₀ : 48 ≤ c.toNat := h.1
  have h₉ : c.toNat ≤ 57 := h.2
  intro heq
  have hnat := congrArg UInt8.toNat heq
  rw [UInt8.toNat_ofNat'] at hnat
  have hpoint : (46 : UInt8).toNat = 46 := rfl
  omega

theorem digit_injective {c d : Char} (hc : isDigit c = true) (hd : isDigit d = true)
    (h : UInt8.ofNat c.toNat = UInt8.ofNat d.toNat) : c = d := by
  simp only [isDigit, Bool.and_eq_true, decide_eq_true_eq] at hc hd
  have hc₉ : c.toNat ≤ 57 := hc.2
  have hd₉ : d.toNat ≤ 57 := hd.2
  have hnat := congrArg UInt8.toNat h
  rw [UInt8.toNat_ofNat', UInt8.toNat_ofNat'] at hnat
  exact toNat_injective (by omega)

theorem digits_injective {cs ds : List Char} (hc : ∀ c ∈ cs, isDigit c = true)
    (hd : ∀ d ∈ ds, isDigit d = true)
    (h : cs.map (fun c => UInt8.ofNat c.toNat) = ds.map fun d => UInt8.ofNat d.toNat) :
    cs = ds := by
  induction cs generalizing ds with
  | nil => exact (List.map_eq_nil_iff.mp h.symm).symm
  | cons c cs ih =>
    cases ds with
    | nil => cases h
    | cons d ds =>
      obtain ⟨hhead, htail⟩ := List.cons.inj h
      rw [digit_injective (hc c (.head _)) (hd d (.head _)) hhead,
        ih (fun c h => hc c (.tail _ h)) (fun d h => hd d (.tail _ h)) htail]

theorem isDigit_of_isTimestamp {ts : String} (h : isTimestamp ts = true) :
    ∀ c ∈ ts.toList, isDigit c = true :=
  List.all_eq_true.mp (Bool.and_eq_true_iff.mp h).2

theorem macMessage_injective {ts ts' : String} (h : isTimestamp ts = true)
    (h' : isTimestamp ts' = true) {rawBody rawBody' : Bytes}
    (heq : macMessage ts rawBody = macMessage ts' rawBody') : ts = ts' ∧ rawBody = rawBody' := by
  have hts := isDigit_of_isTimestamp h
  have hts' := isDigit_of_isTimestamp h'
  rw [macMessage_eq hts, macMessage_eq hts'] at heq
  have hpoint : ∀ {cs : List Char}, (∀ c ∈ cs, isDigit c = true) →
      46 ∉ cs.map fun c => UInt8.ofNat c.toNat := by
    intro cs hcs hmem
    obtain ⟨c, hc, hc46⟩ := List.mem_map.mp hmem
    exact digit_ne_point (hcs c hc) hc46
  obtain ⟨hdigits, hbody⟩ := append_cons_injective (hpoint hts) (hpoint hts') heq
  exact ⟨String.toList_inj.mp (digits_injective hts hts' hdigits), hbody⟩

end Guardian
