import Mathlib.Data.Nat.Digits.Defs
import Mathlib.Data.List.TakeWhile
import Mathlib.Tactic.Common

/-!
# Strings as the wire carries them

ASCII lower-casing, the decimal and the prefixed integer literals that
`BigInt(string)` accepts, and composite keys. Decimal strings without leading
zeros are the canonical ones: on them `decimalValue` is injective, so two
different accepted strings never denote one number.
-/

namespace Text

def toLowerCase (s : String) : String := String.ofList (s.toList.map Char.toLower)

@[simp] theorem toList_toLowerCase (s : String) :
    (toLowerCase s).toList = s.toList.map Char.toLower := by
  simp [toLowerCase]

theorem toLower_eq_or (c : Char) : c.toLower = c ∨ 97 ≤ c.toLower.toNat := by
  delta Char.toLower
  split
  · rename_i h
    have hA : c.val.toNat ≥ 65 := h.1
    have hZ : c.val.toNat ≤ 90 := h.2
    have hv : (c.val + ('a'.val - 'A'.val)).toNat = c.val.toNat + 32 := by
      rw [UInt32.toNat_add]
      have h32 : ('a'.val - 'A'.val).toNat = 32 := rfl
      omega
    have hlow : 97 ≤ (c.val + ('a'.val - 'A'.val)).toNat := by omega
    exact .inr hlow
  · exact .inl rfl

theorem char_toLower_idem (c : Char) : c.toLower.toLower = c.toLower := by
  rcases toLower_eq_or c with h | h
  · rw [h, h]
  · refine dif_neg ?_
    rintro ⟨-, hZ⟩
    have hZ' : c.toLower.toNat ≤ 90 := hZ
    omega

theorem toLower_eq_zero {c : Char} (h : c.toLower = '0') : c = '0' := by
  rcases toLower_eq_or c with hc | hc
  · rw [← hc, h]
  · rw [h] at hc
    exact absurd hc (by decide)

@[simp] theorem toLowerCase_idem (s : String) : toLowerCase (toLowerCase s) = toLowerCase s := by
  rw [toLowerCase, toList_toLowerCase, List.map_map]
  exact congrArg String.ofList (List.map_congr_left fun c _ => char_toLower_idem c)

/-- The UTF-16 length, which is what `length` counts. -/
def utf16Length (s : String) : ℕ :=
  (s.toList.map fun c => if c.toNat < 0x10000 then 1 else 2).sum

/-- The UTF-16 code units of a character, which `charCodeAt` reads. -/
def charCodes (c : Char) : List ℕ :=
  if c.toNat < 0x10000 then [c.toNat]
  else [0xD800 + (c.toNat - 0x10000) / 0x400, 0xDC00 + (c.toNat - 0x10000) % 0x400]

def codeUnits (s : String) : List ℕ := s.toList.flatMap charCodes

theorem toNat_injective {c d : Char} (h : c.toNat = d.toNat) : c = d := by
  exact Char.ext (UInt32.toNat_inj.mp h)

theorem charCodes_cancel {c d : Char} {r r' : List ℕ}
    (h : charCodes c ++ r = charCodes d ++ r') : c = d ∧ r = r' := by
  have hc : c.toNat < 0xd800 ∨ 0xdfff < c.toNat ∧ c.toNat < 0x110000 := c.valid
  have hd : d.toNat < 0xd800 ∨ 0xdfff < d.toNat ∧ d.toNat < 0x110000 := d.valid
  unfold charCodes at h
  split at h
  · split at h
    · simp only [List.cons_append, List.nil_append, List.cons.injEq] at h
      exact ⟨toNat_injective h.1, h.2⟩
    · simp only [List.cons_append, List.nil_append, List.cons.injEq] at h
      omega
  · split at h
    · simp only [List.cons_append, List.nil_append, List.cons.injEq] at h
      omega
    · simp only [List.cons_append, List.nil_append, List.cons.injEq] at h
      exact ⟨toNat_injective (by omega), h.2.2⟩

theorem charCodes_ne_nil (c : Char) : charCodes c ≠ [] := by
  unfold charCodes
  split <;> exact List.cons_ne_nil _ _

theorem codeUnits_injective {s t : String} (h : codeUnits s = codeUnits t) : s = t := by
  suffices hlist : ∀ cs ds : List Char, cs.flatMap charCodes = ds.flatMap charCodes → cs = ds from
    String.toList_inj.mp (hlist _ _ h)
  intro cs
  induction cs with
  | nil =>
    intro ds hds
    cases ds with
    | nil => rfl
    | cons d ds =>
      rw [List.flatMap_nil, List.flatMap_cons, List.nil_eq, List.append_eq_nil_iff] at hds
      exact absurd hds.1 (charCodes_ne_nil d)
  | cons c cs ih =>
    intro ds hds
    cases ds with
    | nil =>
      rw [List.flatMap_nil, List.flatMap_cons, List.append_eq_nil_iff] at hds
      exact absurd hds.1 (charCodes_ne_nil c)
    | cons d ds =>
      obtain ⟨rfl, hrest⟩ := charCodes_cancel hds
      rw [ih ds hrest]

def digitValue (c : Char) : Option ℕ :=
  if '0' ≤ c ∧ c ≤ '9' then some (c.toNat - '0'.toNat)
  else if 'a' ≤ c ∧ c ≤ 'f' then some (c.toNat - 'a'.toNat + 10)
  else if 'A' ≤ c ∧ c ≤ 'F' then some (c.toNat - 'A'.toNat + 10)
  else none

def readDigits (radix : ℕ) (cs : List Char) : Option ℕ :=
  cs.foldlM (fun n c => (digitValue c).bind fun d =>
    if d < radix then some (n * radix + d) else none)
    0

def isDigit (c : Char) : Bool := decide ('0' ≤ c) && decide (c ≤ '9')

def decimalValue (cs : List Char) : ℕ := cs.foldl (fun n c => n * 10 + (c.toNat - '0'.toNat)) 0

/-- `^(0|[1-9][0-9]*)$`. -/
def isCanonicalDecimal : List Char → Bool
  | [] => false
  | c :: cs => if c = '0' then cs.isEmpty else isDigit c && cs.all isDigit

theorem digitValue_of_isDigit {c : Char} (h : isDigit c = true) :
    digitValue c = some (c.toNat - '0'.toNat) ∧ c.toNat - '0'.toNat < 10 := by
  simp only [isDigit, Bool.and_eq_true, decide_eq_true_eq] at h
  refine ⟨by simp [digitValue, h], ?_⟩
  have h₂ : c.toNat ≤ '9'.toNat := h.2
  have h₉ : '9'.toNat = 57 := rfl
  have h₀ : '0'.toNat = 48 := rfl
  omega

theorem readDigits_decimal {cs : List Char} (h : ∀ c ∈ cs, isDigit c = true) :
    readDigits 10 cs = some (decimalValue cs) := by
  unfold readDigits decimalValue
  generalize 0 = n
  induction cs generalizing n with
  | nil => rfl
  | cons c cs ih =>
    obtain ⟨hv, hlt⟩ := digitValue_of_isDigit (h c (by simp))
    simp only [List.foldlM_cons, hv, Option.bind_some, hlt, if_true, List.foldl_cons]
    exact ih (fun d hd => h d (by simp [hd])) _

theorem isDigit_of_canonical {cs : List Char} (h : isCanonicalDecimal cs = true) :
    ∀ c ∈ cs, isDigit c = true := by
  cases cs with
  | nil => simp
  | cons c cs =>
    simp only [isCanonicalDecimal] at h
    split at h
    · rename_i hc
      simp only [List.isEmpty_iff] at h
      simp [h, hc, isDigit]
    · simpa using h

def digitList (cs : List Char) : List ℕ := (cs.map fun c => c.toNat - '0'.toNat).reverse

theorem foldl_decimal (cs : List Char) (n : ℕ) :
    cs.foldl (fun n c => n * 10 + (c.toNat - '0'.toNat)) n =
      Nat.ofDigits 10 (digitList cs) + 10 ^ cs.length * n := by
  induction cs generalizing n with
  | nil => simp [digitList]
  | cons c cs ih =>
    have hcons : digitList (c :: cs) = digitList cs ++ [c.toNat - '0'.toNat] := by
      simp [digitList]
    have hlen : (digitList cs).length = cs.length := by simp [digitList]
    rw [List.foldl_cons, ih, hcons, Nat.ofDigits_append, Nat.ofDigits_singleton, hlen,
      List.length_cons, pow_succ]
    ring

theorem decimalValue_eq (cs : List Char) : decimalValue cs = Nat.ofDigits 10 (digitList cs) := by
  rw [decimalValue, foldl_decimal, Nat.mul_zero, Nat.add_zero]

theorem digitList_injective {cs ds : List Char} (hc : ∀ c ∈ cs, isDigit c = true)
    (hd : ∀ c ∈ ds, isDigit c = true) (h : digitList cs = digitList ds) : cs = ds := by
  have h' := List.reverse_inj.mp h
  clear h
  induction cs generalizing ds with
  | nil => simpa using h'.symm
  | cons c cs ih =>
    cases ds with
    | nil => simp at h'
    | cons d ds =>
      simp only [List.map_cons, List.cons.injEq] at h'
      have hc₀ := hc c (by simp)
      have hd₀ := hd d (by simp)
      simp only [isDigit, Bool.and_eq_true, decide_eq_true_eq] at hc₀ hd₀
      have hc₁ : '0'.toNat ≤ c.toNat := hc₀.1
      have hd₁ : '0'.toNat ≤ d.toNat := hd₀.1
      have hcd : c = d := toNat_injective (by omega)
      rw [hcd, ih (fun x hx => hc x (by simp [hx])) (fun x hx => hd x (by simp [hx])) h'.2]

theorem ofDigits_zero_digit {c : Char} (hc : isDigit c = true) (h : c.toNat - '0'.toNat = 0) :
    c = '0' := by
  simp only [isDigit, Bool.and_eq_true, decide_eq_true_eq] at hc
  have h₁ : '0'.toNat ≤ c.toNat := hc.1
  exact toNat_injective (by omega)

theorem digits_decimalValue {cs : List Char} (h : isCanonicalDecimal cs = true)
    (hz : cs ≠ ['0']) : Nat.digits 10 (decimalValue cs) = digitList cs := by
  have hd := isDigit_of_canonical h
  rw [decimalValue_eq]
  refine Nat.digits_ofDigits 10 (by norm_num) _ ?_ ?_
  · intro d hdm
    simp only [digitList, List.mem_reverse, List.mem_map] at hdm
    obtain ⟨c, hc, rfl⟩ := hdm
    exact (digitValue_of_isDigit (hd c hc)).2
  · intro hne
    cases cs with
    | nil => simp [isCanonicalDecimal] at h
    | cons c cs =>
      simp only [digitList, List.map_cons, List.reverse_cons, ne_eq, List.cons_ne_self,
        not_false_eq_true, List.getLast_append_of_ne_nil, List.getLast_singleton]
      intro h0
      have hc := ofDigits_zero_digit (hd c (by simp)) h0
      subst hc
      simp only [isCanonicalDecimal, if_true, List.isEmpty_iff] at h
      exact hz (by rw [h])

theorem decimalValue_injective {cs ds : List Char} (hc : isCanonicalDecimal cs = true)
    (hd : isCanonicalDecimal ds = true) (h : decimalValue cs = decimalValue ds) : cs = ds := by
  have hpos : ∀ {cs : List Char}, isCanonicalDecimal cs = true → cs ≠ ['0'] →
      decimalValue cs ≠ decimalValue ['0'] := by
    intro cs hc hz h0
    have hdig := digits_decimalValue hc hz
    rw [h0, show decimalValue ['0'] = 0 from rfl, Nat.digits_zero, eq_comm, digitList,
      List.reverse_eq_nil_iff, List.map_eq_nil_iff] at hdig
    simp [hdig, isCanonicalDecimal] at hc
  by_cases h₁ : cs = ['0']
  · by_contra hne
    exact hpos hd (fun h₂ => hne (by rw [h₁, h₂])) (by rw [← h, h₁])
  · by_cases h₂ : ds = ['0']
    · exact absurd (by rw [h, h₂]) (hpos hc h₁)
    · refine digitList_injective (isDigit_of_canonical hc) (isDigit_of_canonical hd) ?_
      rw [← digits_decimalValue hc h₁, ← digits_decimalValue hd h₂, h]

def isWhiteSpace (c : Char) : Bool :=
  c.toNat ∈ [0x9, 0xA, 0xB, 0xC, 0xD, 0x20, 0xA0, 0x1680, 0x2028, 0x2029, 0x202F, 0x205F, 0x3000,
    0xFEFF] || (decide (0x2000 ≤ c.toNat) && decide (c.toNat ≤ 0x200A))

def trim (cs : List Char) : List Char :=
  ((cs.dropWhile isWhiteSpace).reverse.dropWhile isWhiteSpace).reverse

def readNonEmpty (radix : ℕ) (cs : List Char) : Option ℤ :=
  if cs.isEmpty then none else (readDigits radix cs).map Int.ofNat

/-- The integer literals of `BigInt(string)`: none is a SyntaxError. -/
def bigInt (s : String) : Option ℤ :=
  match trim s.toList with
  | [] => some 0
  | '0' :: 'x' :: cs => readNonEmpty 16 cs
  | '0' :: 'X' :: cs => readNonEmpty 16 cs
  | '0' :: 'o' :: cs => readNonEmpty 8 cs
  | '0' :: 'O' :: cs => readNonEmpty 8 cs
  | '0' :: 'b' :: cs => readNonEmpty 2 cs
  | '0' :: 'B' :: cs => readNonEmpty 2 cs
  | '-' :: cs => (readNonEmpty 10 cs).map (- ·)
  | '+' :: cs => readNonEmpty 10 cs
  | cs => readNonEmpty 10 cs

theorem isWhiteSpace_of_isDigit {c : Char} (h : isDigit c = true) : isWhiteSpace c = false := by
  simp only [isDigit, Bool.and_eq_true, decide_eq_true_eq] at h
  have h₁ : 48 ≤ c.toNat := h.1
  have h₂ : c.toNat ≤ 57 := h.2
  simp only [isWhiteSpace, List.mem_cons, List.not_mem_nil, or_false, Bool.or_eq_false_iff,
    decide_eq_false_iff_not, Bool.and_eq_false_iff, not_or, not_le]
  omega

theorem dropWhile_of_head {cs : List Char} (h : ∀ c ∈ cs, isWhiteSpace c = false) :
    cs.dropWhile isWhiteSpace = cs := by
  cases cs with
  | nil => rfl
  | cons c cs => rw [List.dropWhile_cons, h c (by simp)]; rfl

theorem trim_digits {cs : List Char} (h : ∀ c ∈ cs, isDigit c = true) : trim cs = cs := by
  rw [trim, dropWhile_of_head fun c hc => isWhiteSpace_of_isDigit (h c hc),
    dropWhile_of_head fun c hc => isWhiteSpace_of_isDigit (h c (by simpa using hc)),
    List.reverse_reverse]

theorem bigInt_canonical {s : String} (h : isCanonicalDecimal s.toList = true) :
    bigInt s = some (decimalValue s.toList : ℤ) := by
  have hd := isDigit_of_canonical h
  have hne : s.toList ≠ [] := fun h0 => by simp [h0, isCanonicalDecimal] at h
  have hread : readNonEmpty 10 s.toList = some (decimalValue s.toList : ℤ) := by
    simp [readNonEmpty, hne, readDigits_decimal hd]
  rw [bigInt, trim_digits hd]
  split
  · rename_i h
    exact absurd h hne
  · rename_i h
    exact absurd (hd 'x' (by rw [h]; simp)) (by decide)
  · rename_i h
    exact absurd (hd 'X' (by rw [h]; simp)) (by decide)
  · rename_i h
    exact absurd (hd 'o' (by rw [h]; simp)) (by decide)
  · rename_i h
    exact absurd (hd 'O' (by rw [h]; simp)) (by decide)
  · rename_i h
    exact absurd (hd 'b' (by rw [h]; simp)) (by decide)
  · rename_i h
    exact absurd (hd 'B' (by rw [h]; simp)) (by decide)
  · rename_i h
    exact absurd (hd '-' (by rw [h]; simp)) (by decide)
  · rename_i h
    exact absurd (hd '+' (by rw [h]; simp)) (by decide)
  · exact hread

theorem isDigit_of_char {c : Char} (h : c.isDigit = true) : isDigit c = true := by
  rw [Char.isDigit, Bool.and_eq_true, decide_eq_true_iff, decide_eq_true_iff] at h
  rw [isDigit, Bool.and_eq_true, decide_eq_true_iff, decide_eq_true_iff]
  exact h

theorem toList_toString (n : ℕ) : (toString n).toList = Nat.toDigits 10 n := by
  simp [Nat.repr]

theorem isDigit_toDigits (n : ℕ) : ∀ c ∈ Nat.toDigits 10 n, isDigit c = true :=
  fun _ hc => isDigit_of_char (Nat.isDigit_of_mem_toDigits (by norm_num) (by norm_num) hc)

theorem decimalValue_toDigits (n : ℕ) : decimalValue (Nat.toDigits 10 n) = n := by
  have hvalue : decimalValue (Nat.toDigits 10 n) = Nat.ofDigitChars 10 (Nat.toDigits 10 n) 0 := by
    rw [decimalValue, Nat.ofDigitChars]
    refine congrArg (fun f => List.foldl f 0 _) (funext fun m => funext fun c => ?_)
    rw [Nat.mul_comm]
  rw [hvalue, Nat.ofDigitChars_toDigits (by norm_num) (by norm_num)]

theorem toDigits_head {n : ℕ} (h : 0 < n) :
    ∃ c cs, Nat.toDigits 10 n = c :: cs ∧ c ≠ '0' := by
  induction n using Nat.base_induction 10 (by norm_num) with
  | single m hm =>
    have hnonzero : ∀ m < 10, 0 < m → Nat.digitChar m ≠ '0' := by decide
    exact ⟨m.digitChar, [], Nat.toDigits_of_lt_base hm, hnonzero m hm h⟩
  | digit m k hk hm ih =>
    obtain ⟨c, cs, hdigits, hc⟩ := ih hm
    refine ⟨c, cs ++ Nat.toDigits 10 k, ?_, hc⟩
    rw [← Nat.toDigits_append_toDigits (by norm_num) hm hk, hdigits, List.cons_append]

theorem isCanonicalDecimal_toDigits (n : ℕ) : isCanonicalDecimal (Nat.toDigits 10 n) = true := by
  rcases Nat.eq_zero_or_pos n with rfl | hpos
  · decide
  · have hdigit := isDigit_toDigits n
    obtain ⟨c, cs, hdigits, hc⟩ := toDigits_head hpos
    rw [hdigits] at hdigit ⊢
    rw [isCanonicalDecimal, if_neg hc, Bool.and_eq_true, List.all_eq_true]
    exact ⟨hdigit c (.head _), fun d hd => hdigit d (.tail _ hd)⟩

theorem toString_decimalValue {s : String} (h : isCanonicalDecimal s.toList = true) :
    toString (decimalValue s.toList) = s := by
  rw [← String.toList_inj, toList_toString]
  exact decimalValue_injective (isCanonicalDecimal_toDigits _) h (decimalValue_toDigits _)

theorem utf16Length_of_ascii {s : String} (h : ∀ c ∈ s.toList, c.toNat < 128) :
    utf16Length s = s.toList.length := by
  have hones : s.toList.map (fun c => if c.toNat < 0x10000 then 1 else 2) =
      s.toList.map fun _ => 1 := by
    refine List.map_congr_left fun c hc => if_pos ?_
    have hascii := h c hc
    omega
  rw [utf16Length, hones, List.map_const', List.sum_replicate_nat, Nat.mul_one]

theorem utf16Length_of_digits {s : String} (h : ∀ c ∈ s.toList, isDigit c = true) :
    utf16Length s = s.toList.length := by
  refine utf16Length_of_ascii fun c hc => ?_
  have hdigit := h c hc
  rw [isDigit, Bool.and_eq_true, decide_eq_true_iff, decide_eq_true_iff] at hdigit
  have hle : c.toNat ≤ '9'.toNat := hdigit.2
  have hnine : '9'.toNat = 57 := rfl
  omega

def key (n : ℕ) (s : String) : String := toString n ++ ":" ++ s

theorem colon_notMem (n : ℕ) : ':' ∉ Nat.toDigits 10 n := by
  intro h
  have := Nat.isDigit_of_mem_toDigits (by norm_num) (by norm_num) h
  simp [Char.isDigit] at this

theorem append_cons_injective {α : Type} {x : α} {l l' r r' : List α} (hl : x ∉ l) (hl' : x ∉ l')
    (h : l ++ x :: r = l' ++ x :: r') : l = l' ∧ r = r' := by
  induction l generalizing l' with
  | nil =>
    cases l' with
    | nil => simpa using h
    | cons y l' =>
      simp only [List.nil_append, List.cons_append, List.cons.injEq] at h
      simp [h.1] at hl'
  | cons y l ih =>
    cases l' with
    | nil =>
      simp only [List.nil_append, List.cons_append, List.cons.injEq] at h
      simp [h.1] at hl
    | cons z l' =>
      simp only [List.cons_append, List.cons.injEq] at h
      obtain ⟨h₁, h₂⟩ := ih (fun hm => hl (by simp [hm])) (fun hm => hl' (by simp [hm])) h.2
      exact ⟨by rw [h.1, h₁], h₂⟩

theorem key_injective {n m : ℕ} {s t : String} (h : key n s = key m t) : n = m ∧ s = t := by
  have h' := congrArg String.toList h
  simp only [key, String.toList_append, toList_toString, List.append_assoc] at h'
  obtain ⟨h₁, h₂⟩ := append_cons_injective (colon_notMem n) (colon_notMem m) h'
  have hn := congrArg (fun l => Nat.ofDigitChars 10 l 0) h₁
  simp only [Nat.ofDigitChars_toDigits (by norm_num : 1 < 10) (by norm_num : 10 ≤ 10)] at hn
  exact ⟨hn, String.toList_inj.mp h₂⟩

end Text
