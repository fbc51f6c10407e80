import Guardian.Coordinator.WhitelistNonces
import Guardian.Core.UintString
import Guardian.Defaults.Helpers

/-!
# The two nonce windows

The nonces the coordinator offers against the window the guardian checks, on one state of the
whitelist book.
-/

namespace Guardian
open Effect Text Program

structure BookState where
  floor : ℕ
  consumed : ℕ → Bool

def ReadsBook (book : BookState) (block : ℕ) : Event validatorEnv → Prop
  | ⟨.getBlock _ .latest, .ok number⟩ => number = block
  | ⟨.validatorNonceFloor _ _ _ number, .ok floor⟩ => number = block → floor = book.floor
  | ⟨.isNonceConsumed _ _ _ nonces number, .ok bits⟩ =>
    number = block → bits.toList = nonces.map book.consumed
  | _ => True

def failure : Event validatorEnv → Option Caught
  | ⟨.getChainId _, .error e⟩ => some e
  | ⟨.getBlock .., .error e⟩ => some e
  | ⟨.isValidator .., .error e⟩ => some e
  | ⟨.validatorNonceFloor .., .error e⟩ => some e
  | ⟨.isNonceConsumed .., .error e⟩ => some e
  | ⟨.getTransactionCount .., .error e⟩ => some e
  | ⟨.setValidatorNonceFloor .., .error e⟩ => some e
  | ⟨.waitForTransactionReceipt .., .error e⟩ => some e
  | ⟨.sign _, .error e⟩ => some e
  | _ => none

def waitingForFinality : Caught :=
  .error "Whitelist window consumed; waiting for finality before advancing floor"

def spaceExhausted : Caught := .error "Whitelist nonce space exhausted"

section Window
variable {options : WhitelistNonceOptions} {book : BookState}

def openNonces (options : WhitelistNonceOptions) (book : BookState) : List ℕ :=
  (candidateNonces options book.floor).filter fun n => !book.consumed n

theorem availableNonces_map (nonces : List ℕ) (consumed : ℕ → Bool) :
    availableNonces nonces (nonces.map consumed) = nonces.filter fun n => !consumed n := by
  unfold availableNonces
  induction nonces with
  | nil => rfl
  | cons n nonces ih =>
    rw [List.map_cons, List.zip_cons_cons, List.filter_cons, List.filter_cons]
    cases consumed n
    · simpa using ih
    · simpa using ih

/-- The open nonces, or one of the two errors; a failed call throws on its own behalf. -/
def OpenOutcome (options : WhitelistNonceOptions) (book : BookState)
    (tr : List (Event validatorEnv)) (r : Except Caught (List String)) : Prop :=
  (∀ candidates, r = .ok candidates → candidates = (openNonces options book).map toString) ∧
    ∀ e, e = waitingForFinality ∨ e = spaceExhausted → r = .error e →
      (∀ call ∈ tr, failure call ≠ some e) → openNonces options book = []

section Outcomes
variable {tr tr' : List (Event validatorEnv)} {r : Except Caught (List String)}

theorem OpenOutcome.of_subset (h : OpenOutcome options book tr r) (hsub : tr ⊆ tr') :
    OpenOutcome options book tr' r :=
  ⟨h.1, fun e he hr hfailed => h.2 e he hr fun call hcall => hfailed call (hsub hcall)⟩

theorem openOutcome_refused {message : String}
    (hwaiting : (.error message : Caught) ≠ waitingForFinality)
    (hexhausted : (.error message : Caught) ≠ spaceExhausted)
    (h : Executes (refuse message) tr r) : OpenOutcome options book tr' r := by
  obtain ⟨_, hr⟩ := runs_done.mp h
  cases hr
  refine ⟨fun candidates hc => (by cases hc), fun e he hr => ?_⟩
  cases hr
  rcases he with he | he
  · exact absurd he hwaiting
  · exact absurd he hexhausted

theorem openOutcome_failed {e : Caught} {call : Event validatorEnv} (hcall : call ∈ tr')
    (hfailure : failure call = some e) (h : Executes (pure (.error e)) tr r) :
    OpenOutcome options book tr' r := by
  obtain ⟨_, hr⟩ := runs_done.mp h
  cases hr
  refine ⟨fun candidates hc => (by cases hc), fun e' _ hr hfailed => ?_⟩
  cases hr
  exact absurd hfailure (hfailed call hcall)

theorem openOutcome_of_nil (h : openNonces options book = [])
    (hr : ∀ candidates, r = .ok candidates → candidates = []) :
    OpenOutcome options book tr r := by
  refine ⟨fun candidates hc => ?_, fun _ _ _ _ => h⟩
  rw [hr candidates hc, h]
  rfl

theorem advanceFloor_outcome {chain floor : ℕ} {address : Address} {nonces : List ℕ}
    (h : Executes (advanceFloor options chain address floor nonces) tr r) :
    ∀ candidates, r = .ok candidates → candidates = [] := by
  intro candidates hr
  subst hr
  unfold advanceFloor at h
  obtain ⟨_, _, _, _, _, h⟩ := executes_andThen.mp h
  obtain ⟨_, _, _, _, _, h⟩ := executes_andThen.mp h
  split at h
  · cases (runs_done.mp h).2
  · split at h
    · cases (runs_done.mp h).2
    · split at h
      · cases (runs_done.mp h).2
      · obtain ⟨_, _, _, _, _, h⟩ := executes_andThen.mp h
        obtain ⟨_, _, _, _, _, h⟩ := executes_andThen.mp h
        split at h
        · cases (runs_done.mp h).2
        · obtain ⟨_, _, _, _, _, h⟩ := executes_andThen.mp h
          obtain ⟨_, _, _, _, _, h⟩ := executes_andThen.mp h
          split at h
          · cases (runs_done.mp h).2
          · cases (runs_done.mp h).2
            rfl

theorem candidatesAt_outcome {chain block : ℕ} {address : Address}
    (h : Executes (candidatesAt options chain address block book.floor) tr r)
    (hreads : ∀ e ∈ tr, ReadsBook book block e) : OpenOutcome options book tr r := by
  unfold candidatesAt at h
  split at h
  · rename_i hempty
    obtain ⟨rfl, hr⟩ := runs_done.mp h
    cases hr
    refine openOutcome_of_nil ?_ fun candidates hc => by cases hc
    rw [openNonces, hempty]
    rfl
  · obtain ⟨answer, tr', rfl, hrest⟩ := executes_perform.mp h
    match answer with
    | .error e => exact openOutcome_failed (.head _) rfl hrest
    | .ok bits =>
      have hbits : bits.toList = (candidateNonces options book.floor).map book.consumed :=
        hreads _ (.head _) rfl
      have havailable : availableNonces (candidateNonces options book.floor) bits.toList =
          openNonces options book := by
        rw [hbits, availableNonces_map]
        rfl
      rw [bind_done] at hrest
      dsimp only at hrest
      rw [havailable] at hrest
      split at hrest
      · obtain ⟨rfl, hr⟩ := runs_done.mp hrest
        cases hr
        refine ⟨fun candidates hc => ?_, fun e _ hr => by cases hr⟩
        cases hc
        rfl
      · rename_i hnone
        exact openOutcome_of_nil (not_not.mp hnone) (advanceFloor_outcome hrest)

theorem makeWhitelistNonceCandidates_outcome {body : RequestWhitelistingBody} {block : ℕ}
    (h : Executes (makeWhitelistNonceCandidates options body) tr r)
    (hreads : ∀ e ∈ tr, ReadsBook book block e) : OpenOutcome options book tr r := by
  unfold makeWhitelistNonceCandidates at h
  split at h
  · exact openOutcome_refused (by decide) (by decide) h
  obtain ⟨answer, tr₁, rfl, h₁⟩ := executes_perform.mp h
  match answer with
  | .error e => exact openOutcome_failed (.head _) rfl h₁
  | .ok chainId =>
  dsimp only [bind_done] at h₁
  split at h₁
  · exact openOutcome_refused (by decide) (by decide) h₁
  split at h₁
  · exact openOutcome_refused (by decide) (by decide) h₁
  refine OpenOutcome.of_subset ?_ (List.subset_cons_self _ tr₁)
  replace hreads := fun e he => hreads e (.tail _ he)
  obtain ⟨answer, tr₂, rfl, h₂⟩ := executes_perform.mp h₁
  match answer with
  | .error e => exact openOutcome_failed (.head _) rfl h₂
  | .ok number =>
  obtain rfl : number = block := hreads _ (.head _)
  refine OpenOutcome.of_subset ?_ (List.subset_cons_self _ tr₂)
  replace hreads := fun e he => hreads e (.tail _ he)
  obtain ⟨answer, tr₃, rfl, h₃⟩ := executes_perform.mp h₂
  match answer with
  | .error e => exact openOutcome_failed (.head _) rfl h₃
  | .ok isValidator =>
  dsimp only [bind_done] at h₃
  split at h₃
  · exact openOutcome_refused (by decide) (by decide) h₃
  refine OpenOutcome.of_subset ?_ (List.subset_cons_self _ tr₃)
  replace hreads := fun e he => hreads e (.tail _ he)
  obtain ⟨answer, tr₄, rfl, h₄⟩ := executes_perform.mp h₃
  match answer with
  | .error e => exact openOutcome_failed (.head _) rfl h₄
  | .ok floor =>
  obtain rfl : floor = book.floor := hreads _ (.head _) rfl
  refine OpenOutcome.of_subset ?_ (List.subset_cons_self _ tr₄)
  exact candidatesAt_outcome h₄ fun e he => hreads e (.tail _ he)

end Outcomes

theorem zUintStringBelowMax_toString {n : ℕ} (h : n < maxUint256) :
    zUintStringBelowMax (toString n) = true := zUintStringBelowMax_iff.mpr ⟨n, h, rfl⟩

theorem of_zUintStringBelowMax {s : String} (h : zUintStringBelowMax s = true) :
    ∃ n : ℕ, s = toString n ∧ n < maxUint256 := by
  obtain ⟨n, hn, hs⟩ := zUintStringBelowMax_iff.mp h
  exact ⟨n, hs, hn⟩

theorem RESERVED_NONCE_RE_toString {n : ℕ} (h : n < maxUint256) :
    RESERVED_NONCE_RE (toString n) = true := by
  rw [RESERVED_NONCE_RE, toList_toString, isCanonicalDecimal_toDigits, Bool.true_and,
    decide_eq_true_iff]
  exact (Nat.length_toDigits_le_iff (by norm_num) (by norm_num)).mpr (lt_digits (Nat.le_of_lt h))

/-- A nonce the schema accepts and all three entries of the window check let pass. -/
def Usable (options : WhitelistNonceOptions) (book : BookState) (s : String) : Prop :=
  zUintStringBelowMax s = true ∧ ∃ n : ℕ, uint256Of s = some (n : ℤ) ∧
    ∀ c ∈ checkNonceWindow n (book.consumed n) book.floor options.maxNonceAboveFloor,
      c.passed = true

theorem usable_toString {n : ℕ} (h : n < maxUint256) : Usable options book (toString n) ↔
    book.consumed n = false ∧ book.floor ≤ n ∧
      (n : ℤ) ≤ book.floor + options.maxNonceAboveFloor := by
  unfold Usable
  rw [zUintStringBelowMax_toString h, uint256Of_toString (lt_digits (Nat.le_of_lt h))]
  constructor
  · intro hwindow
    obtain ⟨_, m, hm, hpassed⟩ := hwindow
    have hnm : n = m := by exact_mod_cast Option.some.inj hm
    subst hnm
    obtain ⟨hopen, hfloor, hceiling⟩ := checkNonceWindow_passed.mp hpassed
    exact ⟨hopen, by exact_mod_cast hfloor, hceiling⟩
  · intro hwindow
    obtain ⟨hopen, hfloor, hceiling⟩ := hwindow
    exact ⟨rfl, n, rfl, checkNonceWindow_passed.mpr ⟨hopen, by exact_mod_cast hfloor, hceiling⟩⟩

theorem mem_openNonces {n : ℕ} : n ∈ openNonces options book ↔
    book.floor ≤ n ∧ n < book.floor + candidateCount options ∧ n < maxUint256 ∧
      book.consumed n = false := by
  rw [openNonces, List.mem_filter, mem_candidateNonces, length_candidateNonces]
  have hmin : n < book.floor + min (candidateCount options) (maxUint256 - book.floor) ↔
      n < book.floor + candidateCount options ∧ n < book.floor + (maxUint256 - book.floor) := by
    omega
  rw [hmin]
  cases book.consumed n
  · simp only [Bool.not_false, and_true]
    omega
  · simp

theorem openNonces_ascending : (openNonces options book).Pairwise (· < ·) := by
  unfold openNonces
  rw [candidateNonces_eq]
  refine List.Pairwise.filter _ (List.pairwise_map.mpr ?_)
  exact List.pairwise_lt_range.imp fun hlt => by omega

theorem openNonces_usable {n : ℕ} (h : n ∈ openNonces options book) :
    n < maxUint256 ∧ Usable options book (toString n) := by
  obtain ⟨hfloor, hcount, hbelow, hopen⟩ := mem_openNonces.mp h
  refine ⟨hbelow, (usable_toString hbelow).mpr ⟨hopen, hfloor, ?_⟩⟩
  have hle := candidateCount_le (show 0 < candidateCount options by omega)
  omega

theorem mem_openNonces_of_usable (hmax : options.maxNonceAboveFloor ≤ 255) {s : String}
    (h : Usable options book s) : ∃ n ∈ openNonces options book, s = toString n := by
  obtain ⟨n, rfl, hbelow⟩ := of_zUintStringBelowMax h.1
  obtain ⟨hopen, hfloor, hceiling⟩ := (usable_toString hbelow).mp h
  refine ⟨n, mem_openNonces.mpr ⟨hfloor, ?_, hbelow, hopen⟩, rfl⟩
  unfold candidateCount
  split
  · omega
  · omega

end Window

/-- What the coordinator offers, the window check lets pass; up to 255 it offers all of it. -/
theorem nonce_candidates_agree (options : WhitelistNonceOptions) (body : RequestWhitelistingBody)
    (book : BookState) (block : ℕ) (tr : List (Event validatorEnv))
    (r : Except Caught (List String))
    (hrun : Executes (makeWhitelistNonceCandidates options body) tr r)
    (hreads : ∀ e ∈ tr, ReadsBook book block e) :
    (∀ candidates, r = .ok candidates →
      (∃ nonces : List ℕ, candidates = nonces.map toString ∧ nonces.Pairwise (· < ·)) ∧
      candidates.Nodup ∧
      ∀ s ∈ candidates, RESERVED_NONCE_RE s = true ∧ Usable options book s) ∧
    (options.maxNonceAboveFloor ≤ 255 →
      (∀ candidates, r = .ok candidates → ∀ s, s ∈ candidates ↔ Usable options book s) ∧
      ∀ e, e = waitingForFinality ∨ e = spaceExhausted → r = .error e →
        (∀ call ∈ tr, failure call ≠ some e) → ∀ s, ¬Usable options book s) := by
  obtain ⟨hcandidates, hnone⟩ := makeWhitelistNonceCandidates_outcome hrun hreads
  refine ⟨fun candidates hr => ?_, fun hmax => ⟨fun candidates hr s => ?_,
    fun e he hr hfailed s husable => ?_⟩⟩
  · obtain rfl := hcandidates candidates hr
    have hascending : (openNonces options book).Pairwise (· < ·) := openNonces_ascending
    refine ⟨⟨_, rfl, hascending⟩, ?_, fun s hs => ?_⟩
    · exact (List.nodup_map_iff_inj_on hascending.nodup).mpr
        fun n _ m _ h => toString_injective h
    · obtain ⟨n, hn, rfl⟩ := List.mem_map.mp hs
      obtain ⟨hbelow, husable⟩ := openNonces_usable hn
      exact ⟨RESERVED_NONCE_RE_toString hbelow, husable⟩
  · obtain rfl := hcandidates candidates hr
    constructor
    · intro hs
      obtain ⟨n, hn, rfl⟩ := List.mem_map.mp hs
      exact (openNonces_usable hn).2
    · intro husable
      obtain ⟨n, hn, rfl⟩ := mem_openNonces_of_usable hmax husable
      exact List.mem_map_of_mem hn
  · obtain ⟨n, hn, _⟩ := mem_openNonces_of_usable hmax husable
    rw [hnone e he hr hfailed] at hn
    cases hn

namespace Sample

/-- Three below the end of uint256, with the first of them consumed. -/
def lastNonces : BookState := ⟨2 ^ 256 - 3, fun n => decide (n = 2 ^ 256 - 3)⟩

def bookOptions : WhitelistNonceOptions := ⟨[1], "0xg", none, fun _ => some ["0xb"], 5⟩

def bookBody : RequestWhitelistingBody := ⟨1, "0xB", .whitelist, [], "0", 1050⟩

def bookAnswers : ∀ op : ValidatorOp, op.Answer
  | .getChainId chain => .ok chain
  | .getBlock .. => .ok 7
  | .isValidator .. => .ok true
  | .validatorNonceFloor .. => .ok lastNonces.floor
  | .isNonceConsumed _ _ _ nonces _ => .ok ⟨nonces.map lastNonces.consumed, by simp⟩
  | .getTransactionCount .. => .ok 3
  | .setValidatorNonceFloor .. => .ok "0xhash"
  | .waitForTransactionReceipt .. => .ok true
  | .sign _ => .ok .null

theorem readsBook_bookAnswers (op : ValidatorOp) :
    ReadsBook lastNonces 7 ⟨op, bookAnswers op⟩ := by
  cases op with
  | getBlock chain blockTag => cases blockTag <;> trivial
  | validatorNonceFloor => exact fun _ => rfl
  | isNonceConsumed => exact fun _ => rfl
  | _ => trivial

end Sample

/-- Of the window's six nonces three lie above uint256, one is reserved and one is consumed. -/
theorem nonce_candidates_agree_at_end :
    Usable Sample.bookOptions Sample.lastNonces (toString (2 ^ 256 - 2 : ℕ)) ∧
      ∀ s, Usable Sample.bookOptions Sample.lastNonces s → s = toString (2 ^ 256 - 2 : ℕ) := by
  have hrun := executes_trace Sample.bookAnswers
    (makeWhitelistNonceCandidates Sample.bookOptions Sample.bookBody)
  have hreads : ∀ e ∈ (makeWhitelistNonceCandidates Sample.bookOptions Sample.bookBody).trace
      Sample.bookAnswers, ReadsBook Sample.lastNonces 7 e := by
    intro e he
    have hanswer := trace_answered _ _ e he
    obtain ⟨op, answer⟩ := e
    obtain rfl : answer = Sample.bookAnswers op := hanswer
    exact Sample.readsBook_bookAnswers op
  have hcandidates : (makeWhitelistNonceCandidates Sample.bookOptions Sample.bookBody).eval
      Sample.bookAnswers = .ok [toString (2 ^ 256 - 2 : ℕ)] := by
    decide +kernel
  have hall := ((nonce_candidates_agree _ _ _ _ _ _ hrun hreads).2 (by decide)).1 _ hcandidates
  refine ⟨(hall _).mp (List.mem_singleton.mpr rfl), fun s hs => ?_⟩
  exact List.mem_singleton.mp ((hall s).mpr hs)

end Guardian
