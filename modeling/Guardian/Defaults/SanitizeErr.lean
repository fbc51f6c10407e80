import Guardian.Lib.Replace
import Guardian.Lib.Text

/-!
# URLs in logged errors

The redaction of logged messages against whole URLs, which run up to a blank or a double
quote. The pattern also stops at an apostrophe, a parenthesis and a bracket.
-/

namespace Guardian
open Replace Text

def isLetter (c : Char) : Bool :=
  decide ('a' ≤ c) && decide (c ≤ 'z') || decide ('A' ≤ c) && decide (c ≤ 'Z')

/-- `[a-z0-9+.-]`, in any case. -/
def isSchemeChar (c : Char) : Bool := isLetter c || isDigit c || c ∈ ['+', '.', '-']

/-- `[\s"')\]]`. -/
def isStop (c : Char) : Bool := isWhiteSpace c || c ∈ ['"', '\'', ')', ']']

def separator : List Char := [':', '/', '/']

def schemeLength : List Char → ℕ
  | [] => 0
  | c :: cs =>
    if isLetter c then
      let n := ((c :: cs).takeWhile isSchemeChar).length
      if ((c :: cs).drop n).take 3 = separator then n + 3 else 0
    else 0

/-- The length of a scheme, the separator and at least one more character before a stop. No
scheme character is a colon, so the longest run of them is the only one to try. -/
def urlLength (stop : Char → Bool) (cs : List Char) : ℕ :=
  let n := schemeLength cs
  let body := ((cs.drop n).takeWhile fun c => !stop c).length
  if n = 0 ∨ body = 0 then 0 else n + body

theorem schemeLength_le (cs : List Char) : schemeLength cs ≤ cs.length := by
  unfold schemeLength
  split
  · exact le_rfl
  · rename_i c cs
    split
    · dsimp only
      split
      · rename_i hseparator
        have hthree := congrArg List.length hseparator
        rw [List.length_take, List.length_drop] at hthree
        change min 3 _ = 3 at hthree
        omega
      · exact Nat.zero_le _
    · exact Nat.zero_le _

theorem urlLength_le (stop : Char → Bool) (cs : List Char) : urlLength stop cs ≤ cs.length := by
  have hscheme := schemeLength_le cs
  have hbody := (List.takeWhile_sublist (p := fun c => !stop c)
    (l := cs.drop (schemeLength cs))).length_le
  rw [List.length_drop] at hbody
  unfold urlLength
  dsimp only
  split
  · exact Nat.zero_le _
  · omega

def urlPattern (stop : Char → Bool) : Matcher Char := ⟨urlLength stop, urlLength_le stop⟩

/-- A caught value: an error with its message, or anything else as its text. -/
inductive LoggedValue where
  | error (message : String)
  | other (text : String)

def LoggedValue.message : LoggedValue → String
  | error message => message
  | other text => text

def redactedUrl : List Char := "[redacted-url]".toList

def sanitize (cs : List Char) : List Char := (urlPattern isStop).replace redactedUrl cs

def sanitizeErr (e : LoggedValue) : String := String.ofList (sanitize e.message.toList)

/-- What ends a URL in a message. -/
def isBlank (c : Char) : Bool := isWhiteSpace c || c = '"'

def pieces (cs : List Char) : List (Piece Char) := (urlPattern isBlank).scan cs

def outline (cs : List Char) : List (Option Char) := (pieces cs).map Piece.hide

def urls (cs : List Char) : List (List Char) :=
  (pieces cs).filterMap fun
    | .text _ => none
    | .found u => some u

def hidden (cs : List Char) : List Char := (pieces cs).flatMap (Piece.write redactedUrl)

/-- No URL has a character at which the pattern stops early. -/
def Clean (cs : List Char) : Prop := ∀ u ∈ urls cs, '\'' ∉ u ∧ ')' ∉ u ∧ ']' ∉ u

instance (cs : List Char) : Decidable (Clean cs) :=
  inferInstanceAs (Decidable (∀ u ∈ urls cs, '\'' ∉ u ∧ ')' ∉ u ∧ ']' ∉ u))

def rewritten : Piece Char → List Char
  | .text c => [c]
  | .found u => sanitize u

theorem isLetter_range {c : Char} (h : isLetter c = true) :
    65 ≤ c.toNat ∧ c.toNat ≤ 90 ∨ 97 ≤ c.toNat ∧ c.toNat ≤ 122 := by
  simp only [isLetter, Bool.or_eq_true, Bool.and_eq_true, decide_eq_true_eq] at h
  exact h.symm

theorem isSchemeChar_range {c : Char} (h : isSchemeChar c = true) :
    43 ≤ c.toNat ∧ c.toNat ≤ 57 ∨ isLetter c = true := by
  simp only [isSchemeChar, Bool.or_eq_true, decide_eq_true_eq] at h
  rcases h with (hletter | hdigit) | hmark
  · exact .inr hletter
  · simp only [isDigit, Bool.and_eq_true, decide_eq_true_eq] at hdigit
    have hlow : 48 ≤ c.toNat := hdigit.1
    have hhigh : c.toNat ≤ 57 := hdigit.2
    exact .inl (by omega)
  · simp only [List.mem_cons, List.not_mem_nil, or_false] at hmark
    rcases hmark with rfl | rfl | rfl <;> exact .inl (by decide)

theorem isWhiteSpace_range {c : Char} (h : isWhiteSpace c = true) :
    c.toNat ≤ 32 ∨ 160 ≤ c.toNat := by
  simp only [isWhiteSpace, Bool.or_eq_true, decide_eq_true_eq, Bool.and_eq_true,
    List.mem_cons, List.not_mem_nil, or_false] at h
  omega

theorem isStop_iff (c : Char) :
    isStop c = true ↔ isBlank c = true ∨ c = '\'' ∨ c = ')' ∨ c = ']' := by
  simp only [isStop, isBlank, Bool.or_eq_true, decide_eq_true_eq, List.mem_cons,
    List.not_mem_nil, or_false]
  tauto

theorem isStop_range {c : Char} (h : isStop c = true) :
    c.toNat ≤ 41 ∨ c.toNat = 93 ∨ 160 ≤ c.toNat := by
  simp only [isStop, Bool.or_eq_true, decide_eq_true_eq, List.mem_cons, List.not_mem_nil,
    or_false] at h
  rcases h with hspace | rfl | rfl | rfl | rfl
  · have hrange := isWhiteSpace_range hspace
    omega
  all_goals decide

theorem isStop_of_isBlank {c : Char} (h : isBlank c = true) : isStop c = true :=
  (isStop_iff c).mpr (.inl h)

theorem not_isSchemeChar_of_isStop {c : Char} (h : isStop c = true) : isSchemeChar c = false := by
  have hstop := isStop_range h
  by_contra hscheme
  rcases isSchemeChar_range (eq_true_of_ne_false hscheme) with hrange | hletter
  · omega
  · have hrange := isLetter_range hletter
    omega

theorem not_isLetter_of_isStop {c : Char} (h : isStop c = true) : isLetter c = false := by
  have hscheme := not_isSchemeChar_of_isStop h
  simp only [isSchemeChar, Bool.or_eq_false_iff] at hscheme
  exact hscheme.1.1

theorem not_mem_separator_of_isStop {c : Char} (h : isStop c = true) : c ∉ separator := by
  intro hmem
  simp only [separator, List.mem_cons, List.not_mem_nil, or_false] at hmem
  rcases hmem with rfl | rfl | rfl <;> exact absurd h (by decide)

def Ends (rest : List Char) : Prop := ∀ c ∈ rest.head?, isBlank c = true

section Append
variable {stop : Char → Bool} {v rest : List Char}

theorem takeWhile_append_stop {p : Char → Bool} (h : ∀ c ∈ rest.head?, p c = false) :
    (v ++ rest).takeWhile p = v.takeWhile p := by
  induction v with
  | nil =>
    cases rest with
    | nil => rfl
    | cons c rest => rw [List.nil_append, List.takeWhile_cons_of_neg (by simp [h c rfl])]; rfl
  | cons c v ih =>
    rw [List.cons_append, List.takeWhile_cons, List.takeWhile_cons, ih]

theorem take_append_separator (hrest : Ends rest) :
    (v ++ rest).take 3 = separator ↔ v.take 3 = separator := by
  by_cases hlength : 3 ≤ v.length
  · rw [List.take_append_of_le_length hlength]
  cases rest with
  | nil => rw [List.append_nil]
  | cons c rest =>
    have hstop := isStop_of_isBlank (hrest c rfl)
    constructor
    · intro h
      have hmem : c ∈ (v ++ c :: rest).take 3 := by
        refine List.mem_take_iff_getElem.mpr ⟨v.length, ?_, by simp⟩
        rw [List.length_append, List.length_cons]
        omega
      rw [h] at hmem
      exact absurd hmem (not_mem_separator_of_isStop hstop)
    · intro h
      have hthree := congrArg List.length h
      rw [List.length_take] at hthree
      change min 3 _ = 3 at hthree
      omega

theorem schemeLength_of_stop {c : Char} (cs : List Char) (h : isStop c = true) :
    schemeLength (c :: cs) = 0 := by
  simp only [schemeLength, not_isLetter_of_isStop h, Bool.false_eq_true, if_false]

theorem schemeLength_append (hrest : Ends rest) :
    schemeLength (v ++ rest) = schemeLength v := by
  cases v with
  | nil =>
    cases rest with
    | nil => rfl
    | cons c rest =>
      exact schemeLength_of_stop _ (isStop_of_isBlank (hrest c rfl))
  | cons c v =>
    have htake : (c :: v ++ rest).takeWhile isSchemeChar = (c :: v).takeWhile isSchemeChar :=
      takeWhile_append_stop fun d hd =>
        not_isSchemeChar_of_isStop (isStop_of_isBlank (hrest d hd))
    have hle := (List.takeWhile_sublist isSchemeChar (l := c :: v)).length_le
    rw [List.cons_append] at htake ⊢
    simp only [schemeLength]
    rw [htake, ← List.cons_append, List.drop_append_of_le_length hle]
    simp only [take_append_separator hrest]

theorem urlLength_append (hstop : ∀ c, isBlank c = true → stop c = true) (hrest : Ends rest) :
    urlLength stop (v ++ rest) = urlLength stop v := by
  have hbody : ((v ++ rest).drop (schemeLength v)).takeWhile (fun c => !stop c) =
      (v.drop (schemeLength v)).takeWhile fun c => !stop c := by
    rw [List.drop_append_of_le_length (schemeLength_le v)]
    exact takeWhile_append_stop fun c hc => by simp [hstop c (hrest c hc)]
  simp only [urlLength]
  rw [schemeLength_append hrest, hbody]

end Append

theorem urlLength_eq_zero {cs : List Char} (h : urlLength isBlank cs = 0) :
    urlLength isStop cs = 0 := by
  have hshorter : (cs.drop (schemeLength cs)).takeWhile (fun c => !isStop c) =
      ((cs.drop (schemeLength cs)).takeWhile fun c => !isBlank c).takeWhile
        fun c => !isStop c := by
    rw [List.takeWhile_takeWhile]
    congr 1
    funext c
    by_cases hblank : isBlank c = true
    · simp [hblank, isStop_of_isBlank hblank]
    · simp [hblank]
  simp only [urlLength] at h ⊢
  split at h
  · rename_i hnone
    refine if_pos (hnone.imp_right fun hbody => ?_)
    rw [hshorter, List.length_eq_zero_iff.mp hbody]
    rfl
  · omega

def IsUrl (u : List Char) : Prop := u ≠ [] ∧ urlLength isBlank u = u.length

theorem ends_dropWhile (cs : List Char) : Ends (cs.dropWhile fun c => !isBlank c) := by
  intro c hc
  have hhead := List.head?_dropWhile_not (fun c => !isBlank c) cs
  rw [Option.mem_def.mp hc] at hhead
  simpa using hhead

theorem ends_drop_urlLength {cs : List Char} (h : urlLength isBlank cs ≠ 0) :
    Ends (cs.drop (urlLength isBlank cs)) := by
  simp only [urlLength] at h ⊢
  split at h
  · exact absurd rfl h
  rename_i hfound
  have hsplit := List.takeWhile_append_dropWhile (p := fun c => !isBlank c)
    (l := cs.drop (schemeLength cs))
  rw [if_neg hfound, ← List.drop_drop]
  nth_rewrite 2 [← hsplit]
  rw [List.drop_left]
  exact ends_dropWhile _

theorem isUrl_take {cs : List Char} (h : urlLength isBlank cs ≠ 0) :
    IsUrl (cs.take (urlLength isBlank cs)) := by
  have hlength : (cs.take (urlLength isBlank cs)).length = urlLength isBlank cs :=
    List.length_take_of_le (urlLength_le isBlank cs)
  have hsame := urlLength_append (v := cs.take (urlLength isBlank cs)) (fun _ hblank => hblank)
    (ends_drop_urlLength h)
  rw [List.take_append_drop] at hsame
  refine ⟨fun hnil => h ?_, hsame.symm.trans hlength.symm⟩
  rw [← hlength, hnil]
  rfl

theorem head_of_schemeLength {cs : List Char} (h : schemeLength cs ≠ 0) :
    ∃ c ds, cs = c :: ds ∧ isLetter c = true := by
  cases cs with
  | nil => exact absurd rfl h
  | cons c ds =>
    refine ⟨c, ds, rfl, ?_⟩
    by_contra hletter
    exact h (by simp only [schemeLength, hletter, if_false, Bool.false_eq_true])

theorem not_isStop_of_scheme {cs : List Char} :
    ∀ c ∈ cs.take (schemeLength cs), isStop c = false := by
  intro c hc
  unfold schemeLength at hc
  split at hc
  · cases hc
  rename_i d ds
  dsimp only at hc
  split at hc
  · split at hc
    · rename_i hseparator
      rw [List.take_add, hseparator] at hc
      by_contra hstop
      have hstop := eq_true_of_ne_false hstop
      rcases List.mem_append.mp hc with hscheme | hmark
      · have hrun := List.prefix_iff_eq_take.mp (List.takeWhile_prefix isSchemeChar (l := d :: ds))
        rw [← hrun] at hscheme
        have hchar := List.mem_takeWhile_imp hscheme
        rw [not_isSchemeChar_of_isStop hstop] at hchar
        cases hchar
      · exact not_mem_separator_of_isStop hstop hmark
    · cases hc
  · cases hc

section Url
variable {u : List Char}

theorem isUrl_body (h : IsUrl u) :
    schemeLength u ≠ 0 ∧ u.drop (schemeLength u) ≠ [] ∧
      ∀ c ∈ u.drop (schemeLength u), isBlank c = false := by
  obtain ⟨hne, hlength⟩ := h
  have hpos := List.length_pos_iff.mpr hne
  simp only [urlLength] at hlength
  split at hlength
  · omega
  rename_i hfound
  rw [not_or] at hfound
  have hbody : (u.drop (schemeLength u)).takeWhile (fun c => !isBlank c) =
      u.drop (schemeLength u) :=
    (List.takeWhile_prefix _).eq_of_length (by rw [List.length_drop]; omega)
  refine ⟨hfound.1, fun hnil => hfound.2 ?_, fun c hc => ?_⟩
  · rw [hnil]
    rfl
  · simpa using List.takeWhile_eq_self_iff.mp hbody c hc

theorem mem_scheme_or_body {c : Char} (h : c ∈ u) :
    c ∈ u.take (schemeLength u) ∨ c ∈ u.drop (schemeLength u) := by
  rw [← List.mem_append, List.take_append_drop]
  exact h

theorem not_isBlank_of_isUrl (h : IsUrl u) : ∀ c ∈ u, isBlank c = false := by
  intro c hc
  rcases mem_scheme_or_body hc with hscheme | hbody
  · by_contra hblank
    have hstop := isStop_of_isBlank (eq_true_of_ne_false hblank)
    rw [not_isStop_of_scheme c hscheme] at hstop
    cases hstop
  · exact (isUrl_body h).2.2 c hbody

theorem urlLength_isStop_iff (h : IsUrl u) :
    urlLength isStop u = u.length ↔ ∀ c ∈ u, isStop c = false := by
  obtain ⟨hscheme, hbody, -⟩ := isUrl_body h
  have hle := schemeLength_le u
  have hpos := List.length_pos_iff.mpr hbody
  rw [List.length_drop] at hpos
  have hrun := (List.takeWhile_prefix (l := u.drop (schemeLength u)) fun c => !isStop c)
  simp only [urlLength]
  constructor
  · intro hlength c hc
    split at hlength
    · omega
    have hwhole := hrun.eq_of_length (by rw [List.length_drop]; omega)
    rcases mem_scheme_or_body hc with hscheme | hbody
    · exact not_isStop_of_scheme c hscheme
    · simpa using List.takeWhile_eq_self_iff.mp hwhole c hbody
  · intro hall
    have hwhole : (u.drop (schemeLength u)).takeWhile (fun c => !isStop c) =
        u.drop (schemeLength u) :=
      List.takeWhile_eq_self_iff.mpr fun c hc => by
        simp [hall c ((List.drop_sublist _ _).subset hc)]
    rw [hwhole, List.length_drop, if_neg (by omega)]
    omega

theorem sanitize_url_iff (h : IsUrl u) :
    sanitize u = redactedUrl ↔ '\'' ∉ u ∧ ')' ∉ u ∧ ']' ∉ u := by
  have hclean : (∀ c ∈ u, isStop c = false) ↔ '\'' ∉ u ∧ ')' ∉ u ∧ ']' ∉ u := by
    constructor
    · intro hall
      refine ⟨fun hmem => ?_, fun hmem => ?_, fun hmem => ?_⟩
      all_goals exact absurd (hall _ hmem) (by decide)
    · rintro ⟨hquote, hparen, hbracket⟩ c hc
      by_contra hstop
      rcases (isStop_iff c).mp (eq_true_of_ne_false hstop) with hblank | rfl | rfl | rfl
      · rw [not_isBlank_of_isUrl h c hc] at hblank
        cases hblank
      · exact hquote hc
      · exact hparen hc
      · exact hbracket hc
  rw [← hclean, ← urlLength_isStop_iff h]
  have hpos := List.length_pos_iff.mpr h.1
  by_cases hzero : urlLength isStop u = 0
  · -- the pattern fails at the head: its letter is written, and the marker starts with none
    obtain ⟨c, cs, rfl, hletter⟩ := head_of_schemeLength (isUrl_body h).1
    refine iff_of_false (fun heq => ?_) (by omega)
    rw [sanitize, (urlPattern isStop).replace_text hzero] at heq
    have hhead : c = '[' := (List.cons.inj heq).1
    subst hhead
    exact absurd hletter (by decide)
  · have hsanitize : sanitize u = redactedUrl ++ sanitize (u.drop (urlLength isStop u)) :=
      (urlPattern isStop).replace_found hzero
    rw [hsanitize]
    constructor
    · intro heq
      have hnil := List.append_right_eq_self.mp heq
      by_contra hshort
      have hle := urlLength_le isStop u
      refine (urlPattern isStop).replace_ne_nil redactedUrl (by decide) ?_ hnil
      rw [Ne, List.drop_eq_nil_iff]
      omega
    · intro hwhole
      rw [hwhole, List.drop_length]
      rfl

end Url

theorem append_ends_inj {a b x y : List Char} (ha : ∀ c ∈ a, isBlank c = false)
    (hb : ∀ c ∈ b, isBlank c = false) (hx : Ends x) (hy : Ends y) (h : a ++ x = b ++ y) :
    a = b ∧ x = y := by
  have hrun : ∀ {v w : List Char}, (∀ c ∈ v, isBlank c = false) → Ends w →
      (v ++ w).takeWhile (fun c => !isBlank c) = v := by
    intro v w hv hw
    rw [takeWhile_append_stop fun c hc => by simp [hw c hc]]
    exact List.takeWhile_eq_self_iff.mpr fun c hc => by simp [hv c hc]
  have hab : a = b := by rw [← hrun ha hx, h, hrun hb hy]
  subst hab
  exact ⟨rfl, List.append_cancel_left h⟩

theorem sanitize_append {u rest : List Char} (hrest : Ends rest) :
    sanitize (u ++ rest) = sanitize u ++ sanitize rest :=
  (urlPattern isStop).replace_append redactedUrl fun _ _ _ =>
    urlLength_append (fun _ => isStop_of_isBlank) hrest

theorem sanitize_found {cs : List Char} (h : urlLength isBlank cs ≠ 0) :
    sanitize cs = sanitize (cs.take (urlLength isBlank cs)) ++
      sanitize (cs.drop (urlLength isBlank cs)) := by
  rw [← sanitize_append (ends_drop_urlLength h), List.take_append_drop]

theorem sanitize_eq (cs : List Char) : sanitize cs = (pieces cs).flatMap rewritten := by
  induction cs using (urlPattern isBlank).scan_induction with
  | nil => rfl
  | text c cs h ih =>
    have hzero : urlLength isStop (c :: cs) = 0 := urlLength_eq_zero h
    rw [pieces, (urlPattern isBlank).scan_text h, List.flatMap_cons, sanitize,
      (urlPattern isStop).replace_text hzero]
    exact congrArg (c :: ·) ih
  | found cs h ih =>
    rw [pieces, (urlPattern isBlank).scan_found h, List.flatMap_cons, sanitize_found h]
    exact congrArg (_ ++ ·) ih

theorem replace_ends {stop : Char → Bool} {rest : List Char} (hrest : Ends rest) :
    Ends ((urlPattern stop).replace redactedUrl rest) := by
  cases rest with
  | nil => exact hrest
  | cons c rest =>
    have hscheme := schemeLength_of_stop rest (isStop_of_isBlank (hrest c rfl))
    have hzero : urlLength stop (c :: rest) = 0 := by
      simp only [urlLength, hscheme, true_or, if_true]
    rw [(urlPattern stop).replace_text hzero]
    exact hrest

theorem sanitize_eq_hidden_iff (cs : List Char) : sanitize cs = hidden cs ↔ Clean cs := by
  induction cs using (urlPattern isBlank).scan_induction with
  | nil => exact iff_of_true rfl fun u hu => by cases hu
  | text c cs h ih =>
    have hzero : urlLength isStop (c :: cs) = 0 := urlLength_eq_zero h
    have hpieces : pieces (c :: cs) = .text c :: pieces cs := (urlPattern isBlank).scan_text h
    have hclean : Clean (c :: cs) ↔ Clean cs := by
      rw [Clean, urls, hpieces]
      rfl
    have hhidden : hidden (c :: cs) = c :: hidden cs := by
      rw [hidden, hpieces]
      rfl
    rw [hclean, ← ih, hhidden, sanitize, (urlPattern isStop).replace_text hzero]
    exact ⟨fun heq => (List.cons.inj heq).2, congrArg (c :: ·)⟩
  | found cs h ih =>
    have hurl := isUrl_take h
    have hends := ends_drop_urlLength h
    have hpieces : pieces cs = .found (cs.take (urlLength isBlank cs)) ::
        pieces (cs.drop (urlLength isBlank cs)) := (urlPattern isBlank).scan_found h
    have hclean : Clean cs ↔ sanitize (cs.take (urlLength isBlank cs)) = redactedUrl ∧
        Clean (cs.drop (urlLength isBlank cs)) := by
      rw [sanitize_url_iff hurl, Clean, urls, hpieces]
      exact List.forall_mem_cons
    have hhidden : hidden cs = redactedUrl ++ hidden (cs.drop (urlLength isBlank cs)) := by
      rw [hidden, hpieces]
      rfl
    have hmarker : ∀ c ∈ redactedUrl, isBlank c = false := by
      have hall : redactedUrl.all (fun c => !isBlank c) = true := by decide
      simpa using hall
    have ih : sanitize (cs.drop (urlLength isBlank cs)) = hidden (cs.drop (urlLength isBlank cs)) ↔
        Clean (cs.drop (urlLength isBlank cs)) := ih
    rw [hclean, hhidden, sanitize_found h, ← ih]
    constructor
    · intro heq
      refine append_ends_inj (fun c hc => ?_) hmarker (replace_ends hends) (replace_ends hends) heq
      rcases (urlPattern isStop).mem_replace hc with hmem | hmem
      · exact not_isBlank_of_isUrl hurl c hmem
      · exact hmarker c hmem
    · rintro ⟨hurl, hrest⟩
      rw [hurl, hrest]

theorem hidden_of_outline {cs ds : List Char} (h : outline cs = outline ds) :
    hidden cs = hidden ds := by
  have houtline : ∀ es : List Char,
      hidden es = (outline es).flatMap fun p => p.elim redactedUrl fun c => [c] := by
    intro es
    rw [outline, List.flatMap_map]
    rfl
  rw [houtline, houtline, h]

/-- Two messages that agree outside their URLs are logged as one text with every URL hidden,
exactly when no URL of either has a character at which the pattern stops early. -/
theorem sanitizeErr_iff (e e' : LoggedValue)
    (h : outline e.message.toList = outline e'.message.toList) :
    sanitizeErr e = String.ofList ((pieces e.message.toList).flatMap rewritten) ∧
      ((sanitizeErr e = sanitizeErr e' ∧
        sanitizeErr e = String.ofList (hidden e.message.toList)) ↔
        Clean e.message.toList ∧ Clean e'.message.toList) := by
  refine ⟨congrArg String.ofList (sanitize_eq _), ?_⟩
  rw [← sanitize_eq_hidden_iff, ← sanitize_eq_hidden_iff, ← hidden_of_outline h]
  simp only [sanitizeErr, String.ofList_inj]
  constructor
  · rintro ⟨hsame, hhides⟩
    exact ⟨hhides, hsame.symm.trans hhides⟩
  · rintro ⟨hhides, hhides'⟩
    exact ⟨hhides.trans hhides'.symm, hhides⟩

def rpcFailure (key : String) : LoggedValue :=
  .error ("HTTP request failed. URL: https://rpc.example/v2/" ++ key ++ " Status: 503")

theorem rpcFailure_logged :
    outline (rpcFailure "a1").message.toList = outline (rpcFailure "b2c").message.toList ∧
      sanitizeErr (rpcFailure "a1") = sanitizeErr (rpcFailure "b2c") := by
  have hsame : outline (rpcFailure "a1").message.toList =
      outline (rpcFailure "b2c").message.toList := by decide +kernel
  exact ⟨hsame, ((sanitizeErr_iff _ _ hsame).2.mpr (by decide +kernel)).1⟩

/-- The pattern stops at the bracket of an IPv6 host: port, path and key are logged. -/
theorem key_logged :
    let first : LoggedValue := .error "URL: http://[::1]:8545/v2/K1"
    let second : LoggedValue := .error "URL: http://[::1]:8545/v2/K2"
    outline first.message.toList = outline second.message.toList ∧
      sanitizeErr first = "URL: [redacted-url]]:8545/v2/K1" ∧
      sanitizeErr first ≠ sanitizeErr second := by
  decide +kernel

end Guardian
