import Guardian.Core.Environment

/-!
# The shared check helpers

Roll-up of a checks array, classification of RPC errors, and the membership,
deadline, tolerance and nonce-window checks. Each helper comes with the one lemma
its callers use: when it passes, and that what it emits is well formed.
-/

namespace Guardian
open Text

def ZERO_ADDRESS : Address := "0x0000000000000000000000000000000000000000"

/-- A per-chain set of addresses; `none` where the map has no entry. -/
abbrev AddressSets := ℕ → Option (List Address)

/-- `sets.get(chainId) ?? new Set()`. -/
def AddressSets.on (sets : AddressSets) (chainId : ℕ) : List Address := (sets chainId).getD []

abbrev upstream (message : String) : SigningError := .upstreamUnavailable message 503

def rollUp (checks : List CheckEntry) (message : String) : CheckResult :=
  if checks.any (fun c => !c.passed) then .error (.validationFailed message checks) else .ok checks

theorem rollUp_ok {checks cs : List CheckEntry} {message : String} :
    rollUp checks message = .ok cs ↔ cs = checks ∧ ∀ c ∈ checks, c.passed = true := by
  unfold rollUp
  split
  · rename_i h
    obtain ⟨c, hc, hp⟩ := List.any_eq_true.mp h
    simp only [reduceCtorEq, false_iff, not_and]
    intro _ hall
    simp [hall c hc] at hp
  · rename_i h
    simp only [Except.ok.injEq, List.any_eq_true, not_exists, not_and, Bool.not_eq_true',
      Bool.not_eq_false] at h ⊢
    exact ⟨fun he => ⟨he.symm, h⟩, fun he => he.1.symm⟩

theorem rollUp_error {checks : List CheckEntry} {message : String} {e : SigningError} :
    rollUp checks message = .error e ↔
      e = .validationFailed message checks ∧ ∃ c ∈ checks, c.passed = false := by
  unfold rollUp
  split
  · rename_i h
    have h' : ∃ c ∈ checks, c.passed = false := by simpa using h
    simp only [Except.error.injEq, h', and_true]
    exact eq_comm
  · rename_i h
    have h' : ¬ ∃ c ∈ checks, c.passed = false := by simpa using h
    simp [h']

theorem rollUp_checks {checks : List CheckEntry} {message : String} :
    (Settled.ofResult (rollUp checks message)).checks = some checks := by
  unfold rollUp
  split <;> rfl

theorem rollUp_class {checks : List CheckEntry} {message : String} :
    (Settled.ofResult (rollUp checks message)).resultClass =
      if checks.all CheckEntry.passed then .ok else .validationFailed := by
  unfold rollUp
  rw [List.all_eq_not_any_not]
  cases checks.any fun c => !c.passed <;> rfl

def isDeterministicContractCallFailure (e : RpcError) (functionNames : List String) : Bool :=
  e.isContractFunctionExecutionError && decide (e.functionName ∈ functionNames) &&
    e.causes.any fun
      | .abiDecodingZeroData => true
      | .contractFunctionZeroData => true
      | .contractFunctionReverted .. => true
      | .other => false

/-- `new Set([...accepted].map(lower)).has(lower(value))`. -/
def memLower (value : String) (accepted : List String) : Bool :=
  decide (toLowerCase value ∈ accepted.map toLowerCase)

theorem memLower_iff {value : String} {accepted : List String} :
    memLower value accepted = true ↔ ∃ a ∈ accepted, toLowerCase a = toLowerCase value := by
  simp [memLower]

def checkMembership (description value : String) (accepted : List String) : CheckEntry :=
  if memLower value accepted then passed description
  else failed description ("value not on accepted list: " ++ value)

@[simp] theorem checkMembership_passed (d v : String) (accepted : List String) :
    (checkMembership d v accepted).passed = memLower v accepted := by
  rw [checkMembership, ite_passed, Bool.decide_eq_true]

theorem checkMembership_wellFormed {d v : String} {accepted : List String} (h : d ≠ "") :
    (checkMembership d v accepted).WellFormed :=
  ite_wellFormed h (append_ne_empty (by decide))

def DEADLINE_CHECK_DESCRIPTION : String := "deadline within MAX_DEADLINE_SECONDS_AHEAD of now"

def checkDeadline (nowUnixSeconds : ℤ) (deadline : ℕ) (maxSecondsAhead : ℤ) : CheckEntry :=
  let ceiling := nowUnixSeconds + maxSecondsAhead
  if (deadline : ℤ) ≤ ceiling then passed DEADLINE_CHECK_DESCRIPTION
  else failed DEADLINE_CHECK_DESCRIPTION
    (s!"deadline {deadline} exceeds ceiling {ceiling} " ++
      s!"(now={nowUnixSeconds}, max-ahead={maxSecondsAhead})")

theorem checkDeadline_passed {now ahead : ℤ} {deadline : ℕ} :
    (checkDeadline now deadline ahead).passed = true ↔ (deadline : ℤ) ≤ now + ahead := by
  simp only [checkDeadline, ite_passed, decide_eq_true_eq]

@[simp] theorem checkDeadline_description (now ahead : ℤ) (deadline : ℕ) :
    (checkDeadline now deadline ahead).description = DEADLINE_CHECK_DESCRIPTION := by
  simp only [checkDeadline]
  split <;> rfl

theorem checkDeadline_wellFormed (now ahead : ℤ) (deadline : ℕ) :
    (checkDeadline now deadline ahead).WellFormed :=
  ite_wellFormed (by decide) (by simp [String.append_eq_empty_iff])

def bpsToleranceWithWeiFloor (expected toleranceBps : ℤ) : ℤ :=
  let proportional := (expected * toleranceBps).tdiv 10000
  if proportional > 0 then proportional else if toleranceBps > 0 then 1 else 0

def NONCE_CHECK_DESCRIPTIONS : List String :=
  ["nonce has not been consumed by the on-chain whitelist book",
    "nonce is at or above the on-chain nonce floor",
    "nonce does not exceed floor + MAX_NONCE_ABOVE_FLOOR"]

def checkNonceWindow (nonce : ℤ) (consumed : Bool) (floor : ℕ) (maxAboveFloor : ℤ) :
    List CheckEntry :=
  [if consumed then
      failed "nonce has not been consumed by the on-chain whitelist book"
        s!"nonce {nonce} already consumed; submit a different nonce"
    else passed "nonce has not been consumed by the on-chain whitelist book",
    if nonce ≥ floor then passed "nonce is at or above the on-chain nonce floor"
    else failed "nonce is at or above the on-chain nonce floor"
      s!"nonce {nonce} is below floor {floor}",
    if nonce ≤ floor + maxAboveFloor then
      passed "nonce does not exceed floor + MAX_NONCE_ABOVE_FLOOR"
    else failed "nonce does not exceed floor + MAX_NONCE_ABOVE_FLOOR"
      (s!"nonce {nonce} exceeds ceiling {floor + maxAboveFloor} " ++
        s!"(floor={floor}, max-above={maxAboveFloor})")]

theorem checkNonceWindow_wellFormed (nonce : ℤ) (consumed : Bool) (floor : ℕ) (maxAbove : ℤ) :
    ∀ c ∈ checkNonceWindow nonce consumed floor maxAbove, c.WellFormed := by
  intro c hc
  simp only [checkNonceWindow, List.mem_cons, List.not_mem_nil, or_false] at hc
  rcases hc with rfl | rfl | rfl
  · split
    · exact failed_wellFormed (by decide) (append_ne_empty_right (by decide))
    · exact passed_wellFormed (by decide)
  · exact ite_wellFormed (by decide) (by simp [String.append_eq_empty_iff])
  · exact ite_wellFormed (by decide) (by simp [String.append_eq_empty_iff])

theorem checkNonceWindow_passed {nonce maxAbove : ℤ} {consumed : Bool} {floor : ℕ} :
    (∀ c ∈ checkNonceWindow nonce consumed floor maxAbove, c.passed = true) ↔
      consumed = false ∧ floor ≤ nonce ∧ nonce ≤ floor + maxAbove := by
  simp only [checkNonceWindow, List.forall_mem_cons, List.not_mem_nil, false_implies,
    implies_true, and_true, ite_passed, decide_eq_true_eq, ge_iff_le]
  cases consumed <;> simp

end Guardian
