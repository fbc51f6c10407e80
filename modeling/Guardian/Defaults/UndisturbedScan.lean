import Guardian.Defaults.IntentRequestBindingCache

/-!
# The undisturbed scan

When the logs are served, the signal stays quiet and the clock keeps within the
budget, the scan ends with an outcome, and that outcome is exact: it is too old when
no matched factory deployed the contract in the window, and resolved otherwise.
-/

namespace Guardian
open Effect Text

/-- The logs are served, nobody aborts, and the clock reads fall within the width. -/
def Undisturbed (start width : ℤ) : SigningEvent → Prop
  | ⟨.getLogs .., answer⟩ => ∃ logs, answer = .ok logs
  | ⟨.signalAborted, aborted⟩ => aborted = false
  | ⟨.dateNow, t⟩ => InRange start width t
  | _ => True

section Completes
variable {args : ScanArgs} {start width : ℤ}

theorem scanInterrupted_undisturbed {startedAt toBlock : ℤ} {firstChunk : Bool}
    (hbudget : ∀ budget, args.deadlineMs = some budget → width ≤ budget)
    (hstart : start ≤ startedAt) :
    (scanInterrupted args startedAt toBlock firstChunk).Ensures (Undisturbed start width)
      (fun r => r = none) := by
  have haborted : (scanAborted args).Ensures (Undisturbed start width) (fun r => r = false) := by
    rw [scanAborted]
    split
    · exact Program.ensures_call.mpr fun _ h => h
    · exact .pure rfl
  refine .bind haborted fun aborted h => ?_
  subst h
  cases hdeadline : args.deadlineMs with
  | none => exact .pure rfl
  | some deadlineMs =>
    have hwithin : (scanOverBudget startedAt firstChunk deadlineMs).Ensures
        (Undisturbed start width) (fun r => r = false) := by
      rw [scanOverBudget]
      split
      · exact .pure rfl
      · refine .call_bind fun now hnow => .pure ?_
        have hle := hnow.2
        have hwidth := hbudget deadlineMs hdeadline
        simp only [decide_eq_false_iff_not, gt_iff_lt, not_lt]
        omega
    refine .bind hwithin fun exceeded h => ?_
    subst h
    exact .pure rfl

theorem scanLoop_undisturbed
    (hbudget : ∀ budget, args.deadlineMs = some budget → width ≤ budget) {startedAt : ℤ}
    (hstart : start ≤ startedAt) (fuel : ℕ) (toBlock : ℤ) (firstChunk : Bool) (st : ScanState) :
    (scanLoop args startedAt fuel toBlock firstChunk st).Ensures (Undisturbed start width)
      (fun r => ∃ st', r = .ok st') := by
  induction fuel generalizing toBlock firstChunk st with
  | zero => exact .pure ⟨_, rfl⟩
  | succ fuel ih =>
    rw [scanLoop]
    split
    · refine .bind (scanInterrupted_undisturbed hbudget hstart) fun interrupted h => ?_
      subst h
      refine .call_bind fun answer hanswer => ?_
      obtain ⟨logs, rfl⟩ := hanswer
      dsimp only
      split
      · exact .pure ⟨_, rfl⟩
      · exact ih _ _ _
    · exact .pure ⟨_, rfl⟩

theorem scanRoleHolders_undisturbed (hargs : scanArgsError args = none)
    (hbudget : ∀ budget, args.deadlineMs = some budget → width ≤ budget) :
    (scanRoleHolders args).Ensures (Undisturbed start width) (fun r => ∃ o, r = .ok o) := by
  unfold scanRoleHolders
  rw [hargs]
  refine .call_bind fun startedAt hstarted => ?_
  refine .bind (scanLoop_undisturbed hbudget hstarted.1 _ _ _ _) fun r hr => ?_
  obtain ⟨st, rfl⟩ := hr
  exact .pure ⟨_, rfl⟩

end Completes

theorem scanArgsError_eq_none {args : ScanArgs} (hfactories : args.factories ≠ [])
    (hrange : 0 < args.blockRange) (hlookback : 0 < args.maxLookbackBlocks)
    (hdeadline : ∀ d, args.deadlineMs = some d → 0 ≤ d) : scanArgsError args = none := by
  rw [scanArgsError, if_neg hfactories, if_neg (by omega), if_neg (by omega)]
  cases hd : args.deadlineMs with
  | none => rfl
  | some d => exact if_neg (by have := hdeadline d hd; omega)

section Exact
variable {chain : Chain} {args : ScanArgs}

/-- A resolved scan is complete; it names a factory exactly when it saw one deploy. -/
def ScanExact (chain : Chain) (args : ScanArgs) : RoleScanOutcome → Prop
  | .resolved holders block none => ScanSound chain args (.resolved holders block none) ∧
      ∀ f ∈ args.factories, ¬ chain.Deployed f args.requestContract args.earliestAllowed
  | outcome => ScanSound chain args outcome

theorem scanOutcome_exact {st : ScanState} (h : Walked chain args st) :
    ScanExact chain args (scanOutcome args st) := by
  have hsound := scanOutcome_sound h
  obtain ⟨lo, seen, hseen, hcovers, hge, hdone⟩ := h
  rcases hseen.marked with ⟨hb, hf, hnone⟩ | ⟨f, hf, l, hl, hb, hdf, hdep⟩
  · obtain rfl := hdone hb
    have hnot := not_deployed_of_seen hcovers hnone
    simp only [scanOutcome, hb] at hsound ⊢
    split
    · rename_i hpos
      rwa [if_pos hpos] at hsound
    · rename_i hpos
      rw [if_neg hpos] at hsound
      rw [hf] at hsound ⊢
      exact ⟨hsound, hnot⟩
  · simp only [scanOutcome, hb, hdf] at hsound ⊢
    exact hsound

theorem scanRoleHolders_exact {chains : ℕ → Chain} {start width : ℤ}
    (hchain : chains args.chain = chain) (hblock : args.latestBlock = chain.head)
    (hargs : scanArgsError args = none)
    (hbudget : ∀ budget, args.deadlineMs = some budget → width ≤ budget) :
    (scanRoleHolders args).Ensures (fun e => Answers chains e ∧ Undisturbed start width e)
      (fun r => ∃ o, r = .ok o ∧ ScanExact chain args o) := by
  refine ((scanRoleHolders_walked hchain hblock).and
    (scanRoleHolders_undisturbed hargs hbudget)).mono fun _ r hr => ?_
  obtain ⟨hwalked, o, rfl⟩ := hr
  obtain ⟨st, hst, rfl⟩ := hwalked o rfl
  exact ⟨_, rfl, scanOutcome_exact hst⟩

end Exact
end Guardian
