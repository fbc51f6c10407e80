import Guardian.Defaults.Helpers
import Mathlib.Data.Prod.Lex

/-!
# The role-events scan

The backwards walk over `getLogs` chunks, the attribution of each log to its
emitter, and the replay of `RolesUpdated` into a role-holder map. A throw of the
scan is an `error`; the loop carries fuel, and `scanFuel` is always enough.
-/

namespace Guardian
open Effect Text

inductive RoleScanOutcome where
  | resolved (holders : RoleMap) (deploymentBlock : ℕ) (deploymentFactory : Option Address)
  | tooOld (partialHolders : RoleMap)

/-- The role write of a log; absent when an argument did not decode. -/
def Log.write? (log : Log) : Option (Write (ℕ ×ₗ ℕ) Address ℕ) :=
  match log.user, log.roles with
  | some user, some roles => some ⟨toLex (log.blockNumber, log.logIndex), toLowerCase user, roles⟩
  | _, _ => none

def replayRoleState (logs : List Log) : RoleMap :=
  (Write.replay (logs.filterMap Log.write?)).filter fun e => decide (e.2 ≠ 0)

def holdersOf (holders : RoleMap) (roleMask : ℕ) : List Address :=
  (holders.entries.filter fun e => decide (e.2 &&& roleMask ≠ 0)).map Prod.fst

structure ScanArgs where
  chain : ℕ
  factories : List Address
  requestContract : Address
  latestBlock : ℕ
  blockRange : ℤ
  maxLookbackBlocks : ℤ
  deadlineMs : Option ℤ
  hasSignal : Bool

namespace ScanArgs

def earliestAllowed (args : ScanArgs) : ℤ :=
  if (args.latestBlock : ℤ) > args.maxLookbackBlocks then args.latestBlock - args.maxLookbackBlocks
  else 0

def factoryByLower (args : ScanArgs) : OrderedMap Address Address :=
  args.factories.foldl (fun m f => m.set (toLowerCase f) f) .empty

def fromBlock (args : ScanArgs) (toBlock : ℤ) : ℤ :=
  let chunkStart := toBlock - args.blockRange + 1
  if chunkStart > args.earliestAllowed then chunkStart else args.earliestAllowed

end ScanArgs

structure ScanState where
  allLogs : List Log
  foundDeploymentBlock : Option ℕ
  deploymentFactory : Option Address

def ScanState.start : ScanState := ⟨[], none, none⟩

def Log.created (log : Log) : Option Address :=
  match log.eventName with
  | .requestCreated => log.request
  | .flashLoanRequestCreated => log.flashLoanRequest
  | .rolesUpdated => none

def takeLog (args : ScanArgs) (st : ScanState) (log : Log) : ScanState :=
  match log.eventName with
  | .rolesUpdated =>
    if toLowerCase log.address = toLowerCase args.requestContract then
      { st with allLogs := st.allLogs ++ [log] }
    else st
  | _ =>
    match args.factoryByLower.get? (toLowerCase log.address) with
    | none => st
    | some emittingFactory =>
      if log.created.map toLowerCase = some (toLowerCase args.requestContract) then
        { st with
          foundDeploymentBlock := some log.blockNumber
          deploymentFactory := some emittingFactory }
      else st

theorem takeLog_role {args : ScanArgs} {st : ScanState} {l : Log}
    (h : l.eventName = .rolesUpdated) : takeLog args st l =
      if toLowerCase l.address = toLowerCase args.requestContract then
        { st with allLogs := st.allLogs ++ [l] }
      else st := by
  unfold takeLog
  rw [h]

theorem takeLog_deployment {args : ScanArgs} {st : ScanState} {l : Log}
    (h : l.eventName ≠ .rolesUpdated) : takeLog args st l =
      match args.factoryByLower.get? (toLowerCase l.address) with
      | none => st
      | some f =>
        if l.created.map toLowerCase = some (toLowerCase args.requestContract) then
          ⟨st.allLogs, some l.blockNumber, some f⟩
        else st := by
  unfold takeLog
  cases he : l.eventName with
  | rolesUpdated => exact absurd he h
  | requestCreated => rfl
  | flashLoanRequestCreated => rfl

def scanAborted (args : ScanArgs) : Signing Bool :=
  if args.hasSignal then ask .signalAborted else return false

/-- The first chunk is never over budget. -/
def scanOverBudget (startedAt : ℤ) (firstChunk : Bool) (deadlineMs : ℤ) :
    Signing Bool :=
  if firstChunk then return false
  else do
    let now : ℤ ← ask .dateNow
    return decide (now - startedAt > deadlineMs)

def scanInterrupted (args : ScanArgs) (startedAt toBlock : ℤ) (firstChunk : Bool) :
    Signing (Option Thrown) := do
  if ← scanAborted args then
    return some ⟨s!"role-events scan aborted by the request signal before reaching " ++
      s!"block {args.earliestAllowed} (stopped above {toBlock})"⟩
  else
    match args.deadlineMs with
    | none => return none
    | some deadlineMs => do
      if ← scanOverBudget startedAt firstChunk deadlineMs then
        return some ⟨s!"role-events scan exceeded its {deadlineMs}ms budget before reaching " ++
          s!"block {args.earliestAllowed} (stopped above {toBlock})"⟩
      else return none

def scanLoop (args : ScanArgs) (startedAt : ℤ) :
    ℕ → ℤ → Bool → ScanState → Signing (Except Thrown ScanState)
  | 0, _, _, st => return .ok st
  | fuel + 1, toBlock, firstChunk, st =>
    if toBlock ≥ args.earliestAllowed ∧ st.foundDeploymentBlock = none then do
      match ← scanInterrupted args startedAt toBlock firstChunk with
      | some e => return .error e
      | none => do
        let fromBlock := args.fromBlock toBlock
        let answer : Except RpcError (List Log) ← ask
          (.getLogs args.chain (args.factories ++ [args.requestContract]) fromBlock toBlock)
        match answer with
        | .error _ => return .error ⟨"getLogs failed"⟩
        | .ok logs =>
          let st := logs.foldl (takeLog args) st
          if fromBlock = 0 ∨ fromBlock = args.earliestAllowed then return .ok st
          else scanLoop args startedAt fuel (fromBlock - 1) false st
    else return .ok st

/-- Every chunk but the last moves `toBlock` down by a block or more. -/
def scanFuel (args : ScanArgs) : ℕ := args.latestBlock + 1

def scanArgsError (args : ScanArgs) : Option Thrown :=
  if args.factories = [] then some ⟨"factories must be non-empty"⟩
  else if args.blockRange ≤ 0 then some ⟨"blockRange must be positive"⟩
  else if args.maxLookbackBlocks ≤ 0 then some ⟨"maxLookbackBlocks must be positive"⟩
  else
    match args.deadlineMs with
    | none => none
    | some d =>
      if d < 0 then some ⟨s!"deadlineMs must be a non-negative finite number, got {d}"⟩ else none

theorem scanArgsError_none {args : ScanArgs} (h : scanArgsError args = none) :
    0 < args.blockRange ∧ 0 < args.maxLookbackBlocks ∧
      ∀ d, args.deadlineMs = some d → 0 ≤ d := by
  unfold scanArgsError at h
  split_ifs at h with h₁ h₂ h₃
  refine ⟨by omega, by omega, fun d hd => ?_⟩
  simp only [hd] at h
  split_ifs at h with h₄
  omega

/-- Without a deployment event the holder map is complete only from block 0. -/
def scanOutcome (args : ScanArgs) (st : ScanState) : RoleScanOutcome :=
  let holders := replayRoleState st.allLogs
  match st.foundDeploymentBlock with
  | none =>
    if args.earliestAllowed > 0 then .tooOld holders else .resolved holders 0 st.deploymentFactory
  | some block => .resolved holders block st.deploymentFactory

def scanRoleHolders (args : ScanArgs) : Signing (Except Thrown RoleScanOutcome) :=
  match scanArgsError args with
  | some e => return .error e
  | none => do
    let startedAt : ℤ ← ask .dateNow
    match ← scanLoop args startedAt (scanFuel args) args.latestBlock true .start with
    | .error e => return .error e
    | .ok st => return .ok (scanOutcome args st)

/-- A read of the scan: logs up to its latest block, the clock and the abort signal. -/
def IsScanReadOf (args : ScanArgs) : Op → Prop
  | .getLogs chain _ _ toBlock => chain = args.chain ∧ toBlock ≤ args.latestBlock
  | .signalAborted => True
  | .dateNow => True
  | _ => False

def IsScanRead : Op → Prop
  | .getLogs .. => True
  | .signalAborted => True
  | .dateNow => True
  | _ => False

section Performs
variable {args : ScanArgs}

theorem fromBlock_bounds (hrange : 0 < args.blockRange) {toBlock : ℤ}
    (h : toBlock ≥ args.earliestAllowed) :
    args.earliestAllowed ≤ args.fromBlock toBlock ∧ args.fromBlock toBlock ≤ toBlock := by
  simp only [ScanArgs.fromBlock]
  split <;> omega

theorem scanAborted_reads : (scanAborted args).Performs (IsScanReadOf args) := by
  rw [scanAborted]
  split
  · exact Program.performs_call.mpr trivial
  · trivial

theorem scanOverBudget_reads (startedAt : ℤ) (firstChunk : Bool) (deadlineMs : ℤ) :
    (scanOverBudget startedAt firstChunk deadlineMs).Performs (IsScanReadOf args) := by
  rw [scanOverBudget]
  split
  · trivial
  · exact .call_bind trivial fun _ => trivial

theorem scanInterrupted_reads (startedAt toBlock : ℤ) (firstChunk : Bool) :
    (scanInterrupted args startedAt toBlock firstChunk).Performs (IsScanReadOf args) := by
  refine .bind scanAborted_reads fun aborted => ?_
  cases aborted with
  | true => trivial
  | false =>
    cases args.deadlineMs with
    | none => trivial
    | some deadlineMs =>
      refine .bind (scanOverBudget_reads _ _ _) fun exceeded => ?_
      cases exceeded <;> trivial

theorem scanLoop_reads (hrange : 0 < args.blockRange) (startedAt : ℤ) (fuel : ℕ) {toBlock : ℤ}
    (hto : toBlock ≤ args.latestBlock) (firstChunk : Bool) (st : ScanState) :
    (scanLoop args startedAt fuel toBlock firstChunk st).Performs (IsScanReadOf args) := by
  induction fuel generalizing toBlock firstChunk st with
  | zero => trivial
  | succ fuel ih =>
    rw [scanLoop]
    split
    · rename_i hcond
      refine .bind (scanInterrupted_reads _ _ _) fun interrupted => ?_
      cases interrupted with
      | some e => trivial
      | none =>
        refine .call_bind ⟨rfl, hto⟩ fun answer => ?_
        cases answer with
        | error e => trivial
        | ok logs =>
          have hfrom := (fromBlock_bounds hrange hcond.1).2
          dsimp only
          split
          · trivial
          · exact ih (by omega) _ _
    · trivial

theorem scanRoleHolders_reads : (scanRoleHolders args).Performs (IsScanReadOf args) := by
  unfold scanRoleHolders
  cases herror : scanArgsError args with
  | some e => trivial
  | none =>
    refine .call_bind trivial fun startedAt => ?_
    refine .bind (scanLoop_reads (scanArgsError_none herror).1 _ _ le_rfl _ _) fun r => ?_
    cases r <;> trivial

theorem scanRoleHolders_performs : (scanRoleHolders args).Performs IsScanRead := by
  refine scanRoleHolders_reads.mono fun op h => ?_
  cases op with
  | getLogs => trivial
  | signalAborted => trivial
  | dateNow => trivial
  | _ => exact h

end Performs

end Guardian
