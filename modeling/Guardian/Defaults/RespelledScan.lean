import Guardian.Defaults.NoFalseRejection
import Guardian.Defaults.Respelled

/-!
# A.1 over two spellings

The scan attributes a log by its lower-cased emitter and keys the role map by the
lower-cased user, so two spellings of one history replay to one map. The matched
factories keep their order of first occurrence, of which the first one matters.
-/

namespace Guardian
open Effect Text Program

section Scan
variable {args args' : ScanArgs} {st st' : ScanState}

structure SameArgs (args args' : ScanArgs) : Prop where
  factories : args.factories.map toLowerCase = args'.factories.map toLowerCase
  requestContract : toLowerCase args.requestContract = toLowerCase args'.requestContract
  chain : args.chain = args'.chain
  latestBlock : args.latestBlock = args'.latestBlock
  blockRange : args.blockRange = args'.blockRange
  maxLookbackBlocks : args.maxLookbackBlocks = args'.maxLookbackBlocks
  deadlineMs : args.deadlineMs = args'.deadlineMs
  hasSignal : args.hasSignal = args'.hasSignal

structure SameScan (st st' : ScanState) : Prop where
  allLogs : st.allLogs.map Log.lowered = st'.allLogs.map Log.lowered
  foundDeploymentBlock : st.foundDeploymentBlock = st'.foundDeploymentBlock
  deploymentFactory :
    st.deploymentFactory.map toLowerCase = st'.deploymentFactory.map toLowerCase

theorem factoryByLower_lowered (args : ScanArgs) (a : Address) :
    (args.factoryByLower.get? a).map toLowerCase =
      if a ∈ args.factories.map toLowerCase then some a else none := by
  cases hget : args.factoryByLower.get? a with
  | none =>
    have hnone := factoryByLower_none hget
    rw [if_neg fun ha => by
      obtain ⟨f, hf, hlower⟩ := List.mem_map.mp ha
      exact hnone f hf hlower]
    rfl
  | some f =>
    obtain ⟨hf, rfl⟩ := factoryByLower_some hget
    rw [if_pos (List.mem_map_of_mem hf)]
    rfl

theorem created_lowered (l : Log) : l.lowered.created = l.created.map toLowerCase := by
  obtain ⟨_, eventName, _, _, _, _, _, _⟩ := l
  cases eventName <;> rfl

theorem takeLog_same (h : SameArgs args args') (hst : SameScan st st') {l l' : Log}
    (hl : l.lowered = l'.lowered) : SameScan (takeLog args st l) (takeLog args' st' l') := by
  have haddress : toLowerCase l.address = toLowerCase l'.address := congrArg Log.address hl
  have hblock : l.blockNumber = l'.blockNumber := by
    injection hl
  have hname : l.eventName = l'.eventName := by
    injection hl
  have hcreated : l.created.map toLowerCase = l'.created.map toLowerCase := by
    rw [← created_lowered, hl, created_lowered]
  by_cases hrole : l.eventName = .rolesUpdated
  · rw [takeLog_role hrole, takeLog_role (hname ▸ hrole), haddress, h.requestContract]
    split
    · refine ⟨?_, hst.foundDeploymentBlock, hst.deploymentFactory⟩
      rw [List.map_append, List.map_append, hst.allLogs]
      exact congrArg (fun e => _ ++ [e]) hl
    · exact hst
  · rw [takeLog_deployment hrole, takeLog_deployment (hname ▸ hrole), haddress, hcreated,
      h.requestContract]
    have hfactory : (args.factoryByLower.get? (toLowerCase l'.address)).map toLowerCase =
        (args'.factoryByLower.get? (toLowerCase l'.address)).map toLowerCase := by
      rw [factoryByLower_lowered, factoryByLower_lowered, h.factories]
    match args.factoryByLower.get? (toLowerCase l'.address),
      args'.factoryByLower.get? (toLowerCase l'.address), hfactory with
    | none, none, _ => exact hst
    | some f, some f', hfactory =>
      dsimp only
      split
      · exact ⟨hst.allLogs, congrArg some hblock, hfactory⟩
      · exact hst

theorem takeLogs_same (h : SameArgs args args') (hst : SameScan st st') {logs logs' : List Log}
    (hlogs : logs.map Log.lowered = logs'.map Log.lowered) :
    SameScan (logs.foldl (takeLog args) st) (logs'.foldl (takeLog args') st') := by
  have hpairs := forall₂_of_map_eq hlogs
  clear hlogs
  induction hpairs generalizing st st' with
  | nil => exact hst
  | cons hl _ ih => exact ih (takeLog_same h hst hl)

theorem replayRoleState_same {logs logs' : List Log}
    (h : logs.map Log.lowered = logs'.map Log.lowered) :
    replayRoleState logs = replayRoleState logs' := by
  have hwrite : ∀ l : Log, l.lowered.write? = l.write? := by
    intro l
    obtain ⟨_, _, _, _, user, roles, _, _⟩ := l
    cases user with
    | none => rfl
    | some u =>
      cases roles with
      | none => rfl
      | some r => simp only [Log.write?, Log.lowered, Option.map_some, toLowerCase_idem]
  have hwrites : ∀ logs : List Log, (logs.map Log.lowered).filterMap Log.write? =
      logs.filterMap Log.write? := fun logs => by
    rw [List.filterMap_map]
    exact List.filterMap_congr fun l _ => hwrite l
  rw [replayRoleState, ← hwrites, h, hwrites]
  rfl

theorem earliestAllowed_same (h : SameArgs args args') :
    args.earliestAllowed = args'.earliestAllowed := by
  unfold ScanArgs.earliestAllowed
  rw [h.latestBlock, h.maxLookbackBlocks]

theorem fromBlock_same (h : SameArgs args args') (toBlock : ℤ) :
    args.fromBlock toBlock = args'.fromBlock toBlock := by
  unfold ScanArgs.fromBlock
  rw [h.blockRange, earliestAllowed_same h]

theorem scanAborted_alike (h : SameArgs args args') :
    (scanAborted args).Alike respelling Eq (scanAborted args') := by
  unfold scanAborted
  rw [h.hasSignal]
  split
  · exact ⟨rfl, fun _ _ hr => eq_of_heq hr⟩
  · exact .pure rfl

theorem scanOverBudget_alike (startedAt deadlineMs : ℤ) (firstChunk : Bool) :
    (scanOverBudget startedAt firstChunk deadlineMs).Alike respelling Eq
      (scanOverBudget startedAt firstChunk deadlineMs) := by
  unfold scanOverBudget
  split
  · exact .pure rfl
  · refine .call_bind rfl fun now now' hnow => .pure ?_
    rw [eq_of_heq hnow]

theorem scanInterrupted_alike (h : SameArgs args args') (startedAt toBlock : ℤ)
    (firstChunk : Bool) :
    (scanInterrupted args startedAt toBlock firstChunk).Alike respelling Eq
      (scanInterrupted args' startedAt toBlock firstChunk) := by
  unfold scanInterrupted
  rw [earliestAllowed_same h, h.deadlineMs]
  refine (scanAborted_alike h).bind fun aborted _ haborted => ?_
  subst haborted
  cases aborted with
  | true => exact .pure rfl
  | false =>
    cases args'.deadlineMs with
    | none => exact .pure rfl
    | some deadlineMs =>
      refine (scanOverBudget_alike _ _ _).bind fun exceeded _ hexceeded => ?_
      subst hexceeded
      cases exceeded with
      | true => exact .pure rfl
      | false => exact .pure rfl

theorem scanLoop_alike (h : SameArgs args args') (startedAt : ℤ) (fuel : ℕ) (toBlock : ℤ)
    (firstChunk : Bool) (hst : SameScan st st') :
    (scanLoop args startedAt fuel toBlock firstChunk st).Alike respelling (SameOutcome SameScan)
      (scanLoop args' startedAt fuel toBlock firstChunk st') := by
  induction fuel generalizing toBlock firstChunk st st' with
  | zero => exact .pure hst
  | succ fuel ih =>
    rw [scanLoop, scanLoop, earliestAllowed_same h, hst.foundDeploymentBlock, fromBlock_same h]
    split
    · refine (scanInterrupted_alike h _ _ _).bind fun interrupted _ hinterrupted => ?_
      subst hinterrupted
      cases interrupted with
      | some e => exact .pure rfl
      | none =>
        have haddresses : (args.factories ++ [args.requestContract]).map toLowerCase =
            (args'.factories ++ [args'.requestContract]).map toLowerCase := by
          rw [List.map_append, List.map_append, h.factories]
          exact congrArg (fun a => _ ++ [a]) h.requestContract
        refine .call_bind ⟨h.chain, haddresses, rfl, rfl⟩ fun answer answer' hanswer => ?_
        rcases answer with _ | logs <;> rcases answer' with _ | logs'
        · exact .pure rfl
        · exact hanswer.elim
        · exact hanswer.elim
        · have hst' := takeLogs_same h hst hanswer
          dsimp only
          split
          · exact .pure hst'
          · exact ih _ _ hst'
    · exact .pure hst

def SameScanOutcome : RoleScanOutcome → RoleScanOutcome → Prop
  | .resolved holders block factory, .resolved holders' block' factory' =>
    holders = holders' ∧ block = block' ∧ factory.map toLowerCase = factory'.map toLowerCase
  | .tooOld holders, .tooOld holders' => holders = holders'
  | _, _ => False

theorem scanOutcome_same (h : SameArgs args args') (hst : SameScan st st') :
    SameScanOutcome (scanOutcome args st) (scanOutcome args' st') := by
  have hholders := replayRoleState_same hst.allLogs
  unfold scanOutcome
  rw [hst.foundDeploymentBlock, earliestAllowed_same h]
  cases st'.foundDeploymentBlock with
  | none =>
    dsimp only
    split
    · exact hholders
    · exact ⟨hholders, rfl, hst.deploymentFactory⟩
  | some block => exact ⟨hholders, rfl, hst.deploymentFactory⟩

theorem scanArgsError_same (h : SameArgs args args') :
    scanArgsError args = scanArgsError args' := by
  have hempty : args.factories = [] ↔ args'.factories = [] := by
    rw [← List.map_eq_nil_iff (f := toLowerCase), h.factories, List.map_eq_nil_iff]
  unfold scanArgsError
  simp only [hempty, h.blockRange, h.maxLookbackBlocks, h.deadlineMs]

theorem scanRoleHolders_alike (h : SameArgs args args') :
    (scanRoleHolders args).Alike respelling (SameOutcome SameScanOutcome)
      (scanRoleHolders args') := by
  unfold scanRoleHolders
  rw [scanArgsError_same h]
  cases scanArgsError args' with
  | some e => exact .pure rfl
  | none =>
    refine .call_bind rfl fun startedAt startedAt' hstarted => ?_
    obtain rfl := eq_of_heq hstarted
    rw [show scanFuel args = scanFuel args' from congrArg (· + 1) h.latestBlock, h.latestBlock]
    refine (scanLoop_alike h _ _ _ _ ⟨rfl, rfl, rfl⟩).bind fun r r' hr => ?_
    match r, r', hr with
    | .error _, .error _, hr => exact .pure hr
    | .ok _, .ok _, hr => exact .pure (scanOutcome_same h hr)

end Scan
end Guardian
