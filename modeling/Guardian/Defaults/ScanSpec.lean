import Guardian.Defaults.Chain

/-!
# One function for the whole scan

Whatever its chunks, the backwards walk computes one function of the log history: the
replay of the contract's own role updates in the window, and the deployment event if the
window holds it.
-/

namespace Guardian
open Effect Text Program

def Log.inWindow (lo hi : ℤ) (l : Log) : Bool :=
  decide (lo ≤ l.blockNumber) && decide ((l.blockNumber : ℤ) ≤ hi)

/-- Each response holds the history's logs of its addresses and blocks, in any order. -/
def ServesLogs (history : List Log) : SigningEvent → Prop
  | ⟨.getLogs _ addresses fromBlock toBlock, answer⟩ => ∃ logs, answer = .ok logs ∧
      logs.Perm (history.filter fun l =>
        memLower l.address addresses && l.inWindow fromBlock toBlock)
  | _ => True

namespace ScanArgs
variable (args : ScanArgs) (history : List Log)

def isRole (l : Log) : Bool :=
  decide (l.eventName = .rolesUpdated) &&
    decide (toLowerCase l.address = toLowerCase args.requestContract)

def marks (l : Log) : Option Address :=
  if l.created.map toLowerCase = some (toLowerCase args.requestContract) then
    args.factoryByLower.get? (toLowerCase l.address)
  else none

def deployment (lo : ℤ) : Option Log :=
  history.find? fun l => l.inWindow lo args.latestBlock && (args.marks l).isSome

def roleLogs (lo : ℤ) : List Log :=
  history.filter fun l => args.isRole l && l.inWindow lo args.latestBlock

def specified : RoleScanOutcome :=
  let holders := replayRoleState (args.roleLogs history args.earliestAllowed)
  match args.deployment history args.earliestAllowed with
  | some d => .resolved holders d.blockNumber (args.marks d)
  | none => if args.earliestAllowed > 0 then .tooOld holders else .resolved holders 0 none

end ScanArgs

section Logs
variable {args : ScanArgs} {history logs : List Log} {l d : Log} {st : ScanState} {lo lo' hi : ℤ}

theorem inWindow_iff : l.inWindow lo hi = true ↔ lo ≤ l.blockNumber ∧ (l.blockNumber : ℤ) ≤ hi := by
  rw [Log.inWindow, Bool.and_eq_true, decide_eq_true_iff, decide_eq_true_iff]

theorem isRole_iff : args.isRole l = true ↔ l.eventName = .rolesUpdated ∧
    toLowerCase l.address = toLowerCase args.requestContract := by
  rw [ScanArgs.isRole, Bool.and_eq_true, decide_eq_true_iff, decide_eq_true_iff]

theorem deploys_of_marks {f : Address} (h : args.marks l = some f) :
    f ∈ args.factories ∧ l.deploys f args.requestContract := by
  unfold ScanArgs.marks at h
  split at h
  · rename_i hcreated
    obtain ⟨hf, hlower⟩ := factoryByLower_some h
    refine ⟨hf, fun hname => ?_, hlower.symm, hcreated⟩
    rw [Log.created, hname] at hcreated
    cases hcreated
  · cases h

theorem marks_of_deploys {f : Address} (hf : f ∈ args.factories)
    (h : l.deploys f args.requestContract) : (args.marks l).isSome = true := by
  rw [ScanArgs.marks, if_pos h.2.2]
  cases hget : args.factoryByLower.get? (toLowerCase l.address) with
  | none => exact absurd h.2.1.symm (factoryByLower_none hget f hf)
  | some f' => rfl

theorem takeLog_allLogs : (takeLog args st l).allLogs = st.allLogs ++ [l].filter args.isRole := by
  by_cases hname : l.eventName = .rolesUpdated
  · rw [takeLog_role hname]
    by_cases haddress : toLowerCase l.address = toLowerCase args.requestContract
    · rw [if_pos haddress, List.filter_singleton, isRole_iff.mpr ⟨hname, haddress⟩]
      rfl
    · have hnot : args.isRole l = false :=
        Bool.eq_false_iff.mpr fun h => haddress (isRole_iff.mp h).2
      rw [if_neg haddress, List.filter_singleton, hnot]
      exact (List.append_nil _).symm
  · have hnot : args.isRole l = false := Bool.eq_false_iff.mpr fun h => hname (isRole_iff.mp h).1
    rw [takeLog_deployment hname, List.filter_singleton, hnot]
    split
    · exact (List.append_nil _).symm
    · split
      · exact (List.append_nil _).symm
      · exact (List.append_nil _).symm

theorem foldl_allLogs : (logs.foldl (takeLog args) st).allLogs =
    st.allLogs ++ logs.filter args.isRole := by
  induction logs generalizing st with
  | nil => exact (List.append_nil _).symm
  | cons l logs ih =>
    rw [List.foldl_cons, ih, takeLog_allLogs, List.append_assoc, ← List.filter_append]
    rfl

def ScanState.Marker (st : ScanState) (mark : Option (ℕ × Address)) : Prop :=
  st.foundDeploymentBlock = mark.map Prod.fst ∧ st.deploymentFactory = mark.map Prod.snd

theorem takeLog_unmarked {mark : Option (ℕ × Address)} (h : args.marks l = none)
    (hst : st.Marker mark) : (takeLog args st l).Marker mark := by
  by_cases hname : l.eventName = .rolesUpdated
  · rw [takeLog_role hname]
    split
    · exact hst
    · exact hst
  · rw [takeLog_deployment hname]
    unfold ScanArgs.marks at h
    split
    · exact hst
    · rename_i f hget
      split
      · rename_i hcreated
        rw [if_pos hcreated, hget] at h
        cases h
      · exact hst

theorem takeLog_marked {f : Address} (h : args.marks l = some f) :
    (takeLog args st l).Marker (some (l.blockNumber, f)) := by
  have hname := (deploys_of_marks h).2.1
  unfold ScanArgs.marks at h
  split at h
  · rename_i hcreated
    rw [takeLog_deployment hname, h]
    dsimp only
    rw [if_pos hcreated]
    exact ⟨rfl, rfl⟩
  · cases h

theorem foldl_unmarked {mark : Option (ℕ × Address)} (h : ∀ l ∈ logs, args.marks l = none)
    (hst : st.Marker mark) : (logs.foldl (takeLog args) st).Marker mark := by
  induction logs generalizing st with
  | nil => exact hst
  | cons l logs ih =>
    exact ih (fun l' hl' => h l' (.tail _ hl')) (takeLog_unmarked (h l (.head _)) hst)

theorem foldl_marked {f : Address} (hd : args.marks d = some f)
    (honly : ∀ l ∈ logs, (args.marks l).isSome = true → l = d)
    (h : d ∈ logs ∨ st.Marker (some (d.blockNumber, f))) :
    (logs.foldl (takeLog args) st).Marker (some (d.blockNumber, f)) := by
  induction logs generalizing st with
  | nil =>
    rcases h with h | h
    · cases h
    · exact h
  | cons l logs ih =>
    refine ih (fun l' hl' => honly l' (.tail _ hl')) ?_
    cases hmarks : args.marks l with
    | none =>
      rcases h with h | h
      · rcases List.mem_cons.mp h with rfl | h
        · rw [hd] at hmarks
          cases hmarks
        · exact .inl h
      · exact .inr (takeLog_unmarked hmarks h)
    | some f' =>
      obtain rfl := honly l (.head _) (by rw [hmarks]; rfl)
      exact .inr (takeLog_marked hd)

end Logs

/-- No two marking logs, and none behind a role update. -/
structure DeployedOnce (args : ScanArgs) (history : List Log) : Prop where
  once : ∀ l ∈ history, ∀ l' ∈ history, (args.marks l).isSome = true →
    (args.marks l').isSome = true → l = l'
  first : ∀ d ∈ history, (args.marks d).isSome = true →
    ∀ l ∈ history, args.isRole l = true → d.blockNumber ≤ l.blockNumber

/-- What the walk holds once it has read the window from `lo` on. -/
structure HasRead (args : ScanArgs) (history : List Log) (lo : ℤ) (st : ScanState) : Prop where
  logs : st.allLogs.Perm (args.roleLogs history lo)
  marker : st.Marker ((args.deployment history lo).bind fun d =>
    (args.marks d).map fun f => (d.blockNumber, f))

section Walk
variable {args : ScanArgs} {history : List Log} {lo lo' hi : ℤ} {st : ScanState} {d : Log}

theorem window_split {α : Type} (block : α → ℤ) (p : α → Bool) (l : List α) (hle : lo' ≤ lo)
    (hhi : lo ≤ hi + 1) :
    (l.filter (fun a => p a && (decide (lo ≤ block a) && decide (block a ≤ hi))) ++
      l.filter fun a => p a && (decide (lo' ≤ block a) && decide (block a ≤ lo - 1))).Perm
    (l.filter fun a => p a && (decide (lo' ≤ block a) && decide (block a ≤ hi))) := by
  refine List.Perm.trans ?_ (List.filter_append_perm (fun a => decide (lo ≤ block a)) _)
  rw [List.filter_filter, List.filter_filter]
  refine List.Perm.append (List.Perm.of_eq (List.filter_congr fun a _ => ?_))
    (List.Perm.of_eq (List.filter_congr fun a _ => ?_))
  · rw [Bool.eq_iff_iff]
    simp only [Bool.and_eq_true, decide_eq_true_iff]
    constructor
    · exact fun h => ⟨h.2.1, h.1, by omega, h.2.2⟩
    · exact fun h => ⟨h.2.1, h.1, h.2.2.2⟩
  · rw [Bool.eq_iff_iff]
    simp only [Bool.and_eq_true, Bool.not_eq_true', decide_eq_false_iff_not, decide_eq_true_iff]
    constructor
    · exact fun h => ⟨by omega, h.1, h.2.1, by omega⟩
    · exact fun h => ⟨h.2.1, h.2.2.1, by omega⟩

theorem deployment_some (h : args.deployment history lo = some d) :
    d ∈ history ∧ lo ≤ d.blockNumber ∧ (d.blockNumber : ℤ) ≤ args.latestBlock ∧
      (args.marks d).isSome = true := by
  have hfound := List.find?_some h
  rw [Bool.and_eq_true, inWindow_iff] at hfound
  exact ⟨List.mem_of_find?_eq_some h, hfound.1.1, hfound.1.2, hfound.2⟩

theorem deployment_none (h : args.deployment history lo = none) :
    ∀ l ∈ history, lo ≤ l.blockNumber → (l.blockNumber : ℤ) ≤ args.latestBlock →
      args.marks l = none := by
  intro l hl hlo hhi
  have hnot := List.find?_eq_none.mp h l hl
  rw [Bool.and_eq_true, inWindow_iff] at hnot
  cases hmarks : args.marks l with
  | none => rfl
  | some f => exact absurd ⟨⟨hlo, hhi⟩, by rw [hmarks]; rfl⟩ hnot

theorem deployment_eq (honce : DeployedOnce args history) (hd : d ∈ history)
    (hlo : lo ≤ d.blockNumber) (hhi : (d.blockNumber : ℤ) ≤ args.latestBlock)
    (hmarks : (args.marks d).isSome = true) : args.deployment history lo = some d := by
  cases h : args.deployment history lo with
  | none =>
    rw [deployment_none h d hd hlo hhi] at hmarks
    cases hmarks
  | some d' =>
    obtain ⟨hd', _, _, hmarks'⟩ := deployment_some h
    rw [honce.once d' hd' d hd hmarks' hmarks]

theorem hasRead_start : HasRead args history (args.latestBlock + 1) .start := by
  have hnone : args.deployment history (args.latestBlock + 1) = none := by
    refine List.find?_eq_none.mpr fun l _ h => ?_
    rw [Bool.and_eq_true, inWindow_iff] at h
    omega
  refine ⟨?_, by rw [hnone]; exact ⟨rfl, rfl⟩⟩
  have hempty : args.roleLogs history (args.latestBlock + 1) = [] := by
    refine List.filter_eq_nil_iff.mpr fun l _ h => ?_
    rw [Bool.and_eq_true, inWindow_iff] at h
    omega
  rw [hempty]
  rfl

theorem watched_of_isRole {l : Log} (h : args.isRole l = true) :
    memLower l.address (args.factories ++ [args.requestContract]) = true :=
  memLower_iff.mpr ⟨args.requestContract, by simp, (isRole_iff.mp h).2.symm⟩

theorem watched_of_marks {l : Log} {f : Address} (h : args.marks l = some f) :
    memLower l.address (args.factories ++ [args.requestContract]) = true := by
  obtain ⟨hf, hdeploys⟩ := deploys_of_marks h
  exact memLower_iff.mpr ⟨f, by simp [hf], hdeploys.2.1.symm⟩

theorem HasRead.extend (h : HasRead args history lo st) (honce : DeployedOnce args history)
    (hopen : st.foundDeploymentBlock = none) (hle : lo' ≤ lo) (hhi : lo ≤ args.latestBlock + 1)
    {logs : List Log} (hlogs : logs.Perm (history.filter fun l =>
      memLower l.address (args.factories ++ [args.requestContract]) && l.inWindow lo' (lo - 1))) :
    HasRead args history lo' (logs.foldl (takeLog args) st) := by
  have hunread : args.deployment history lo = none := by
    cases hd : args.deployment history lo with
    | none => rfl
    | some d =>
      obtain ⟨f, hf⟩ := Option.isSome_iff_exists.mp (deployment_some hd).2.2.2
      have hfound := h.marker.1
      rw [hopen, hd, Option.bind_some, hf] at hfound
      cases hfound
  have hmem : ∀ l, l ∈ logs ↔ l ∈ history ∧
      memLower l.address (args.factories ++ [args.requestContract]) = true ∧
      lo' ≤ l.blockNumber ∧ (l.blockNumber : ℤ) ≤ lo - 1 := by
    intro l
    rw [hlogs.mem_iff, List.mem_filter, Bool.and_eq_true, inWindow_iff]
  refine ⟨?_, ?_⟩
  · rw [foldl_allLogs]
    have hchunk : (logs.filter args.isRole).Perm
        (history.filter fun l => args.isRole l && l.inWindow lo' (lo - 1)) := by
      refine (hlogs.filter _).trans (List.Perm.of_eq ?_)
      rw [List.filter_filter]
      refine List.filter_congr fun l _ => ?_
      cases hrole : args.isRole l with
      | false => rfl
      | true =>
        rw [watched_of_isRole hrole]
        rfl
    exact (h.logs.append hchunk).trans
      (window_split (fun l : Log => (l.blockNumber : ℤ)) args.isRole history hle hhi)
  · have hst : st.Marker none := by
      have hmarker := h.marker
      rwa [hunread] at hmarker
    cases hd : args.deployment history lo' with
    | none =>
      refine foldl_unmarked (fun l hl => ?_) hst
      obtain ⟨hl, _, hlo, hhi'⟩ := (hmem l).mp hl
      exact deployment_none hd l hl hlo (by omega)
    | some d =>
      obtain ⟨hdmem, hdlo, hdhi, hmarks⟩ := deployment_some hd
      obtain ⟨f, hf⟩ := Option.isSome_iff_exists.mp hmarks
      rw [Option.bind_some, hf]
      refine foldl_marked hf (fun l hl hmarked => ?_) (.inl ?_)
      · exact honce.once l ((hmem l).mp hl).1 d hdmem hmarked hmarks
      · refine (hmem d).mpr ⟨hdmem, watched_of_marks hf, hdlo, ?_⟩
        by_contra hlate
        rw [deployment_none hunread d hdmem (by omega) hdhi] at hf
        cases hf

theorem scanInterrupted_quiet (hsignal : args.hasSignal = false)
    (hdeadline : args.deadlineMs = none)
    (startedAt toBlock : ℤ) (firstChunk : Bool) :
    scanInterrupted args startedAt toBlock firstChunk = .done none := by
  unfold scanInterrupted scanAborted
  rw [hsignal, hdeadline]
  rfl

theorem scanLoop_reads_down (honce : DeployedOnce args history) (hrange : 0 < args.blockRange)
    (hsignal : args.hasSignal = false) (hdeadline : args.deadlineMs = none) {startedAt toBlock : ℤ}
    {fuel : ℕ} {firstChunk : Bool} (hto : toBlock = lo - 1)
    (hfuel : lo - args.earliestAllowed ≤ fuel) (hlo : args.earliestAllowed ≤ lo)
    (hhi : lo ≤ args.latestBlock + 1) (hread : HasRead args history lo st)
    {tr : List SigningEvent} {r : Except Thrown ScanState}
    (hrun : Executes (scanLoop args startedAt fuel toBlock firstChunk st) tr r)
    (hserves : ∀ e ∈ tr, ServesLogs history e) :
    ∃ st' lo', r = .ok st' ∧ HasRead args history lo' st' ∧ args.earliestAllowed ≤ lo' ∧
      (st'.foundDeploymentBlock = none → lo' = args.earliestAllowed) := by
  induction fuel generalizing lo toBlock firstChunk st tr with
  | zero =>
    cases (runs_done.mp hrun).2
    exact ⟨st, lo, rfl, hread, hlo, fun _ => by push_cast at hfuel; omega⟩
  | succ fuel ih =>
    subst hto
    rw [scanLoop] at hrun
    split at hrun
    · rename_i hcond
      rw [scanInterrupted_quiet hsignal hdeadline] at hrun
      obtain ⟨answer, tr', rfl, hrest⟩ := executes_perform.mp hrun
      obtain ⟨logs, rfl, hlogs⟩ := hserves _ (.head _)
      rw [bind_done] at hrest
      dsimp only at hrest
      obtain ⟨hge, hfrom⟩ := fromBlock_bounds hrange hcond.1
      have hread' := hread.extend honce hcond.2 (by omega) hhi hlogs
      split at hrest
      · rename_i hlast
        cases (runs_done.mp hrest).2
        exact ⟨_, _, rfl, hread', hge, fun _ => by have := earliestAllowed_nonneg args; omega⟩
      · exact ih rfl (by push_cast at hfuel; omega) hge (by omega) hread' hrest
          fun e he => hserves e (.tail _ he)
    · rename_i hcond
      cases (runs_done.mp hrun).2
      refine ⟨st, lo, rfl, hread, hlo, fun hnone => ?_⟩
      have hbelow : ¬lo - 1 ≥ args.earliestAllowed := fun h => hcond ⟨h, hnone⟩
      omega

theorem earliestAllowed_eq : args.earliestAllowed =
    max 0 ((args.latestBlock : ℤ) - args.maxLookbackBlocks) := by
  unfold ScanArgs.earliestAllowed
  split <;> omega

theorem replayRoleState_perm {logs logs' : List Log} (h : logs.Perm logs')
    (hpositions : ∀ l ∈ logs, ∀ l' ∈ logs, l.position = l'.position → l = l') :
    replayRoleState logs = replayRoleState logs' := by
  rw [replayRoleState, replayRoleState,
    Write.replay_perm (h.filterMap Log.write?) fun u hu w hw hposition => ?_]
  obtain ⟨l, hl, hlu⟩ := List.mem_filterMap.mp hu
  obtain ⟨l', hl', hlw⟩ := List.mem_filterMap.mp hw
  have hsame : l = l' := hpositions l hl l' hl' (by
    rw [(write?_eq_some.mp hlu).1, (write?_eq_some.mp hlw).1, hposition])
  rw [hsame, hlw] at hlu
  exact (Option.some.inj hlu).symm

theorem positions_injective (hpositions : (history.map Log.position).Nodup) :
    ∀ l ∈ history, ∀ l' ∈ history, l.position = l'.position → l = l' :=
  fun _ hl _ hl' h => List.inj_on_of_nodup_map hpositions hl hl' h

theorem scanOutcome_specified (hpositions : (history.map Log.position).Nodup)
    (honce : DeployedOnce args history) (hread : HasRead args history lo st)
    (hlo : args.earliestAllowed ≤ lo)
    (hdone : st.foundDeploymentBlock = none → lo = args.earliestAllowed) :
    scanOutcome args st = args.specified history := by
  have hreplay : ∀ {logs}, st.allLogs.Perm logs →
      logs = args.roleLogs history args.earliestAllowed →
      replayRoleState st.allLogs =
        replayRoleState (args.roleLogs history args.earliestAllowed) := by
    intro logs hperm heq
    subst heq
    refine replayRoleState_perm hperm fun l hl l' hl' => ?_
    exact positions_injective hpositions l (List.mem_filter.mp (hperm.mem_iff.mp hl)).1 l'
      (List.mem_filter.mp (hperm.mem_iff.mp hl')).1
  obtain ⟨hblock, hfactory⟩ := hread.marker
  unfold scanOutcome ScanArgs.specified
  dsimp only
  cases hd : args.deployment history lo with
  | none =>
    rw [hd] at hblock hfactory
    obtain rfl := hdone hblock
    rw [hd, hblock, hfactory, hreplay hread.logs rfl]
    rfl
  | some d =>
    obtain ⟨hdmem, hdlo, hdhi, hmarks⟩ := deployment_some hd
    obtain ⟨f, hf⟩ := Option.isSome_iff_exists.mp hmarks
    rw [hd, Option.bind_some, hf] at hblock hfactory
    have hwindow : args.roleLogs history lo = args.roleLogs history args.earliestAllowed := by
      refine List.filter_congr fun l hl => ?_
      cases hrole : args.isRole l with
      | false => rfl
      | true =>
        have hfirst := honce.first d hdmem hmarks l hl hrole
        rw [Bool.true_and, Bool.true_and, Bool.eq_iff_iff, inWindow_iff, inWindow_iff]
        constructor
        · exact fun h => ⟨by omega, h.2⟩
        · exact fun h => ⟨by omega, h.2⟩
    rw [deployment_eq honce hdmem (hlo.trans hdlo) hdhi hmarks, hblock, hfactory,
      hreplay hread.logs hwindow]
    dsimp only
    rw [hf]
    rfl

theorem scanRoleHolders_specified (hpositions : (history.map Log.position).Nodup)
    (honce : DeployedOnce args history) (hargs : scanArgsError args = none)
    (hsignal : args.hasSignal = false) (hdeadline : args.deadlineMs = none)
    {tr : List SigningEvent} {r : Except Thrown RoleScanOutcome}
    (hrun : Executes (scanRoleHolders args) tr r) (hserves : ∀ e ∈ tr, ServesLogs history e) :
    r = .ok (args.specified history) := by
  have hearliest : args.earliestAllowed = max 0 ((args.latestBlock : ℤ) - args.maxLookbackBlocks) :=
    earliestAllowed_eq
  have hrange := (scanArgsError_none hargs).1
  have hlookback := (scanArgsError_none hargs).2.1
  unfold scanRoleHolders at hrun
  rw [hargs] at hrun
  obtain ⟨startedAt, tr', rfl, hrest⟩ := executes_perform.mp hrun
  rw [bind_done] at hrest
  obtain ⟨walk, last, result, rfl, hwalk, hlast⟩ := executes_bind.mp hrest
  have hfuel : (args.latestBlock : ℤ) + 1 - args.earliestAllowed ≤ (scanFuel args : ℕ) := by
    rw [scanFuel]
    push_cast
    omega
  obtain ⟨st, lo, rfl, hread, hlo, hdone⟩ := scanLoop_reads_down honce hrange hsignal hdeadline
    (show (args.latestBlock : ℤ) = (args.latestBlock + 1 : ℤ) - 1 by omega) hfuel (by omega) le_rfl
    hasRead_start hwalk fun e he => hserves e (.tail _ (List.mem_append_left _ he))
  cases (runs_done.mp hlast).2
  rw [scanOutcome_specified hpositions honce hread hlo hdone]

end Walk

/-- At most one deployment event of the contract, and no role update of it in an earlier block. -/
structure SingleDeployment (factories : List Address) (rc : Address) (history : List Log) :
    Prop where
  once : ∀ l ∈ history, ∀ l' ∈ history, ∀ f ∈ factories, ∀ f' ∈ factories,
    l.deploys f rc → l'.deploys f' rc → l = l'
  first : ∀ d ∈ history, ∀ f ∈ factories, d.deploys f rc → ∀ l ∈ history,
    l.eventName = .rolesUpdated → toLowerCase l.address = toLowerCase rc →
      d.blockNumber ≤ l.blockNumber

/-- A role update of the contract, or a deployment event of it by one of the factories. -/
def Concerns (factories : List Address) (rc : Address) (l : Log) : Prop :=
  (l.eventName = .rolesUpdated ∧ toLowerCase l.address = toLowerCase rc) ∨
    ∃ f ∈ factories, l.deploys f rc

/-- The roles of the user's update with the greatest position in the window. -/
def LatestRolesIn (history : List Log) (rc : Address) (lo hi : ℤ) (user : Address) (roles : ℕ) :
    Prop :=
  ∃ l ∈ history, (lo ≤ l.blockNumber ∧ (l.blockNumber : ℤ) ≤ hi) ∧ l.updates rc user roles ∧
    ∀ l' ∈ history, ∀ roles', lo ≤ l'.blockNumber ∧ (l'.blockNumber : ℤ) ≤ hi →
      l'.updates rc user roles' → l'.position ≤ l.position

def RoleScanOutcome.holders : RoleScanOutcome → RoleMap
  | .resolved holders _ _ => holders
  | .tooOld partialHolders => partialHolders

def ScanArgs.DeployedAt (args : ScanArgs) (history : List Log) (lo : ℤ) (d : Log) : Prop :=
  d ∈ history ∧ (lo ≤ d.blockNumber ∧ (d.blockNumber : ℤ) ≤ args.latestBlock) ∧
    ∃ f ∈ args.factories, d.deploys f args.requestContract

/-- What the scan of a window from `earliest` on has to return. -/
structure ScanSpec (history : List Log) (args : ScanArgs) (earliest : ℤ)
    (outcome : RoleScanOutcome) : Prop where
  seen : ∀ d, args.DeployedAt history earliest d → ∃ f ∈ args.factories,
    toLowerCase f = toLowerCase d.address ∧
      outcome = .resolved outcome.holders d.blockNumber (some f)
  unseen : (¬∃ d, args.DeployedAt history earliest d) →
    outcome = if earliest = 0 then .resolved outcome.holders 0 none else .tooOld outcome.holders
  roles : ∀ user roles, outcome.holders.get? user = some roles ↔
    roles ≠ 0 ∧ LatestRolesIn history args.requestContract earliest args.latestBlock user roles

section Specified
variable {args : ScanArgs} {history history' : List Log} {lo : ℤ} {d : Log}

theorem marks_isSome_iff : (args.marks d).isSome = true ↔
    ∃ f ∈ args.factories, d.deploys f args.requestContract := by
  constructor
  · intro h
    obtain ⟨f, hf⟩ := Option.isSome_iff_exists.mp h
    exact ⟨f, deploys_of_marks hf⟩
  · intro h
    obtain ⟨f, hf, hdeploys⟩ := h
    exact marks_of_deploys hf hdeploys

theorem deployedOnce_of_single
    (h : SingleDeployment args.factories args.requestContract history) :
    DeployedOnce args history where
  once l hl l' hl' hmarks hmarks' := by
    obtain ⟨f, hf, hdeploys⟩ := marks_isSome_iff.mp hmarks
    obtain ⟨f', hf', hdeploys'⟩ := marks_isSome_iff.mp hmarks'
    exact h.once l hl l' hl' f hf f' hf' hdeploys hdeploys'
  first d hd hmarks l hl hrole := by
    obtain ⟨f, hf, hdeploys⟩ := marks_isSome_iff.mp hmarks
    exact h.first d hd f hf hdeploys l hl (isRole_iff.mp hrole).1 (isRole_iff.mp hrole).2

def windowChain (history : List Log) (latestBlock : ℕ)
    (hpositions : (history.map Log.position).Nodup) : Chain where
  head := latestBlock
  logs := history.filter fun l => decide (l.blockNumber ≤ latestBlock)
  owner _ := none
  provenance _ _ := none
  operation _ := none
  code _ _ := none
  logs_le_head l hl := by simpa using (List.mem_filter.mp hl).2
  logs_positioned l hl l' hl' := positions_injective hpositions l (List.mem_filter.mp hl).1 l'
    (List.mem_filter.mp hl').1

theorem latestRoles_windowChain (hpositions : (history.map Log.position).Nodup) {latestBlock : ℕ}
    {rc user : Address} {roles : ℕ} :
    (windowChain history latestBlock hpositions).LatestRoles rc lo user roles ↔
      LatestRolesIn history rc lo latestBlock user roles := by
  have hmem : ∀ l, l ∈ (windowChain history latestBlock hpositions).logs ↔
      l ∈ history ∧ (l.blockNumber : ℤ) ≤ latestBlock := by
    intro l
    rw [windowChain, List.mem_filter, decide_eq_true_iff]
    exact and_congr_right fun _ => Int.ofNat_le.symm
  unfold Chain.LatestRoles LatestRolesIn
  simp only [hmem]
  constructor
  · intro h
    obtain ⟨l, ⟨hl, hhi⟩, hlo, hupdates, hlatest⟩ := h
    exact ⟨l, hl, ⟨hlo, hhi⟩, hupdates, fun l' hl' r' hwindow =>
      hlatest l' ⟨hl', hwindow.2⟩ r' hwindow.1⟩
  · intro h
    obtain ⟨l, hl, ⟨hlo, hhi⟩, hupdates, hlatest⟩ := h
    exact ⟨l, ⟨hl, hhi⟩, hlo, hupdates, fun l' hl' r' hlo' =>
      hlatest l' hl'.1 r' ⟨hlo', hl'.2⟩⟩

theorem specified_roles (hpositions : (history.map Log.position).Nodup) {user : Address}
    {roles : ℕ} : (replayRoleState (args.roleLogs history lo)).get? user = some roles ↔
      roles ≠ 0 ∧ LatestRolesIn history args.requestContract lo args.latestBlock user roles := by
  have hlogs : RoleLogs (windowChain history args.latestBlock hpositions) args.requestContract lo
      (args.roleLogs history lo) := by
    intro l
    rw [ScanArgs.roleLogs, List.mem_filter, Bool.and_eq_true, isRole_iff, inWindow_iff, windowChain,
      List.mem_filter, decide_eq_true_iff, Int.ofNat_le]
    constructor
    · exact fun h => ⟨⟨h.1, h.2.2.2⟩, h.2.2.1, h.2.1⟩
    · exact fun h => ⟨h.1.1, h.2.2, h.2.1, h.1.2⟩
  rw [replayRoleState_get? hlogs, latestRoles_windowChain]

theorem deployment_of_deployedAt (honce : DeployedOnce args history)
    (h : args.DeployedAt history lo d) : args.deployment history lo = some d :=
  deployment_eq honce h.1 h.2.1.1 h.2.1.2 (marks_isSome_iff.mpr h.2.2)

theorem deployment_unseen (h : ¬∃ d, args.DeployedAt history lo d) :
    args.deployment history lo = none := by
  cases hd : args.deployment history lo with
  | none => rfl
  | some d =>
    obtain ⟨hmem, hlo, hhi, hmarks⟩ := deployment_some hd
    exact absurd ⟨d, hmem, ⟨hlo, hhi⟩, marks_isSome_iff.mp hmarks⟩ h

theorem specified_spec (hpositions : (history.map Log.position).Nodup)
    (honce : DeployedOnce args history) :
    ScanSpec history args args.earliestAllowed (args.specified history) := by
  have hholders : (args.specified history).holders =
      replayRoleState (args.roleLogs history args.earliestAllowed) := by
    unfold ScanArgs.specified
    cases args.deployment history args.earliestAllowed with
    | some d => rfl
    | none =>
      dsimp only
      split
      · rfl
      · rfl
  refine ⟨fun d hd => ?_, fun hnone => ?_, fun user roles => ?_⟩
  · obtain ⟨f, hf⟩ := Option.isSome_iff_exists.mp (marks_isSome_iff.mpr hd.2.2)
    obtain ⟨hmem, hdeploys⟩ := deploys_of_marks hf
    refine ⟨f, hmem, hdeploys.2.1.symm, ?_⟩
    rw [hholders, ScanArgs.specified, deployment_of_deployedAt honce hd]
    dsimp only
    rw [hf]
  · have hnonneg := earliestAllowed_nonneg args
    rw [hholders, ScanArgs.specified, deployment_unseen hnone]
    dsimp only
    by_cases hzero : args.earliestAllowed = 0
    · rw [if_neg (by omega), if_pos hzero]
    · rw [if_pos (by omega), if_neg hzero]
  · rw [hholders]
    exact specified_roles hpositions

theorem specified_congr (hpositions : (history.map Log.position).Nodup)
    (hpositions' : (history'.map Log.position).Nodup) (honce : DeployedOnce args history)
    (hagree : ∀ l, Concerns args.factories args.requestContract l →
      (l ∈ history ↔ l ∈ history')) :
    args.specified history' = args.specified history := by
  have hmarks : ∀ l, (args.marks l).isSome = true → (l ∈ history ↔ l ∈ history') :=
    fun l h => hagree l (.inr (marks_isSome_iff.mp h))
  have hdeployment : args.deployment history' args.earliestAllowed =
      args.deployment history args.earliestAllowed := by
    cases hd : args.deployment history' args.earliestAllowed with
    | some d =>
      obtain ⟨hmem, hlo, hhi, hmarked⟩ := deployment_some hd
      exact (deployment_eq honce ((hmarks d hmarked).mpr hmem) hlo hhi hmarked).symm
    | none =>
      refine (deployment_unseen fun h => ?_).symm
      obtain ⟨d, hmem, ⟨hlo, hhi⟩, hdeploys⟩ := h
      have hmarked := marks_isSome_iff.mpr hdeploys
      rw [deployment_none hd d ((hmarks d hmarked).mp hmem) hlo hhi] at hmarked
      cases hmarked
  have hroles : (args.roleLogs history' args.earliestAllowed).Perm
      (args.roleLogs history args.earliestAllowed) := by
    refine (List.perm_ext_iff_of_nodup ((List.Nodup.of_map _ hpositions').filter _)
      ((List.Nodup.of_map _ hpositions).filter _)).mpr fun l => ?_
    simp only [List.mem_filter, Bool.and_eq_true, isRole_iff]
    constructor
    · exact fun h => ⟨(hagree l (.inl h.2.1)).mpr h.1, h.2⟩
    · exact fun h => ⟨(hagree l (.inl h.2.1)).mp h.1, h.2⟩
  unfold ScanArgs.specified
  rw [hdeployment, replayRoleState_perm hroles fun l hl l' hl' =>
    positions_injective hpositions' l (List.mem_filter.mp hl).1 l' (List.mem_filter.mp hl').1]

end Specified

/-- The scan meets its specification whatever its chunks and the order of their logs; chunk size
and logs of other emitters never change the result. -/
theorem scan_specification (history : List Log) (hpositions : (history.map Log.position).Nodup)
    (args : ScanArgs) (hfactories : args.factories ≠ []) (hrange : 0 < args.blockRange)
    (hlookback : 0 < args.maxLookbackBlocks) (hsignal : args.hasSignal = false)
    (hdeadline : args.deadlineMs = none)
    (hdeployment : SingleDeployment args.factories args.requestContract history)
    (tr : List SigningEvent) (r : Except Thrown RoleScanOutcome)
    (hrun : Executes (scanRoleHolders args) tr r) (hserves : ∀ e ∈ tr, ServesLogs history e) :
    (∃ outcome, r = .ok outcome ∧
      ScanSpec history args (max 0 ((args.latestBlock : ℤ) - args.maxLookbackBlocks)) outcome) ∧
    ∀ (blockRange : ℤ) (history' : List Log), 0 < blockRange →
      (history'.map Log.position).Nodup →
      (∀ l, Concerns args.factories args.requestContract l → (l ∈ history ↔ l ∈ history')) →
      ∀ tr' r', Executes (scanRoleHolders { args with blockRange := blockRange }) tr' r' →
        (∀ e ∈ tr', ServesLogs history' e) → r' = r := by
  have hargs : ∀ range : ℤ, 0 < range →
      scanArgsError { args with blockRange := range } = none := by
    intro range hpositive
    simp only [scanArgsError, hdeadline]
    rw [if_neg hfactories, if_neg (by omega), if_neg (by omega)]
  have honce := deployedOnce_of_single hdeployment
  have hr := scanRoleHolders_specified hpositions honce (hargs args.blockRange hrange) hsignal
    hdeadline hrun hserves
  refine ⟨⟨_, hr, ?_⟩,
    fun blockRange history' hpositive hpositions' hagree tr' r' hrun' hserves' => ?_⟩
  · rw [← earliestAllowed_eq]
    exact specified_spec hpositions honce
  · have honce' : DeployedOnce { args with blockRange := blockRange } history' := by
      refine ⟨fun l hl l' hl' h h' => ?_, fun d hd h l hl hrole => ?_⟩
      · exact honce.once l ((hagree l (.inr (marks_isSome_iff.mp h))).mpr hl) l'
          ((hagree l' (.inr (marks_isSome_iff.mp h'))).mpr hl') h h'
      · exact honce.first d ((hagree d (.inr (marks_isSome_iff.mp h))).mpr hd) h l
          ((hagree l (.inl (isRole_iff.mp hrole))).mpr hl) hrole
    have hr' := scanRoleHolders_specified hpositions' honce' (hargs blockRange hpositive) hsignal
      hdeadline hrun' hserves'
    have hcongr : args.specified history' = args.specified history :=
      specified_congr hpositions hpositions' honce hagree
    rw [hr, hr', ← hcongr]
    rfl

namespace Sample

def grantHistory : List Log :=
  [⟨"0xfac", .requestCreated, 4, 0, none, none, some "0xREQ", none⟩,
    ⟨"0xreq", .rolesUpdated, 4, 1, some "0xU", some 3, none, none⟩,
    ⟨"0xfac", .rolesUpdated, 6, 0, some "0xV", some 1, none, none⟩,
    ⟨"0xReq", .rolesUpdated, 7, 2, some "0xu", some 1, none, none⟩]

def grantScan : ScanArgs := ⟨1, ["0xFAC"], "0xreq", 9, 3, 8, none, false⟩

def grantServer : (op : Op) → op.Answer
  | .getLogs _ addresses fromBlock toBlock => .ok (grantHistory.filter fun l =>
      memLower l.address addresses && l.inWindow fromBlock toBlock)
  | op => serve (fun _ => windowChain [] 0 List.nodup_nil) op

theorem grantServer_serves (op : Op) : ServesLogs grantHistory ⟨op, grantServer op⟩ := by
  cases op with
  | getLogs => exact ⟨_, rfl, .refl _⟩
  | _ => trivial

theorem grantHistory_single :
    SingleDeployment grantScan.factories grantScan.requestContract grantHistory where
  once := by unfold Log.deploys; decide +kernel
  first := by unfold Log.deploys; decide +kernel

end Sample

/-- Read in chunks of three blocks or of one, the user holds the later bitfield. -/
theorem scan_specification_granted :
    (scanRoleHolders { Sample.grantScan with blockRange := 1 }).eval Sample.grantServer =
        (scanRoleHolders Sample.grantScan).eval Sample.grantServer ∧
      ∃ outcome, (scanRoleHolders Sample.grantScan).eval Sample.grantServer = .ok outcome ∧
        outcome.holders.get? "0xu" = some 1 := by
  have hserves : ∀ {args : ScanArgs}, ∀ e ∈ (scanRoleHolders args).trace Sample.grantServer,
      ServesLogs Sample.grantHistory e := by
    intro args e he
    obtain ⟨op, answer⟩ := e
    obtain rfl : answer = Sample.grantServer op := trace_answered _ _ _ he
    exact Sample.grantServer_serves op
  obtain ⟨⟨outcome, houtcome, hspec⟩, hsame⟩ := scan_specification Sample.grantHistory
    (by decide) Sample.grantScan (by decide) (by decide) (by decide) rfl rfl
    Sample.grantHistory_single _ _ (executes_trace Sample.grantServer _) hserves
  have hrun := executes_trace Sample.grantServer
    (scanRoleHolders { Sample.grantScan with blockRange := 1 })
  refine ⟨hsame 1 Sample.grantHistory (by decide) (by decide) (fun _ _ => Iff.rfl) _ _ hrun hserves,
    outcome, houtcome, (hspec.roles _ _).mpr ?_⟩
  refine ⟨by decide, ⟨"0xReq", .rolesUpdated, 7, 2, some "0xu", some 1, none, none⟩, ?_, ?_, ?_, ?_⟩
  · decide
  · decide
  · unfold Log.updates
    decide +kernel
  · intro l hl roles hwindow hupdates
    revert hl
    simp only [Sample.grantHistory, List.mem_cons, List.not_mem_nil, or_false]
    intro hl
    rcases hl with rfl | rfl | rfl | rfl
    · decide
    · decide
    · decide
    · decide

end Guardian
