import Guardian.Defaults.ArchiveRead
import Guardian.Lib.Interleaving

/-!
# Cache transparency of A.1

Calls of `runA1` that share one cache, under policies that agree on everything a
fetch reads. The entries are described by what a scan under the shared policy
returns; a reader decides on such an entry as it would on its own fetch, because
the code probe of the `fail` disposition only ever replaces a too-old scan.
-/

namespace Guardian
open Effect Text

structure SharedReads (p q : IntentRequestBindingPolicy) : Prop where
  retargetters : p.acceptedRetargetters = q.acceptedRetargetters
  factories : p.acceptedRequestFactories = q.acceptedRequestFactories
  flashLoanFactories : p.acceptedFlashLoanRequestFactories = q.acceptedFlashLoanRequestFactories
  blockRange : p.eventScanBlockRange = q.eventScanBlockRange
  maxLookbackBlocks : p.eventScanMaxLookbackBlocks = q.eventScanMaxLookbackBlocks
  deadlineMs : p.eventScanDeadlineMs = q.eventScanDeadlineMs

/-- One answer for each read, up to the case of the contract, from an honest client. -/
structure FixedRpc (chains : ℕ → Chain) (rpc : (op : Op) → op.Answer) : Prop where
  honest : ∀ op, Answers chains ⟨op, rpc op⟩
  owner : ∀ c rc rc' checks, toLowerCase rc = toLowerCase rc' →
    rpc (.ownerAndProvenance c rc checks) = rpc (.ownerAndProvenance c rc' checks)
  code : ∀ c rc rc' n, toLowerCase rc = toLowerCase rc' →
    rpc (.getCode c rc n) = rpc (.getCode c rc' n)
  logs : ∀ c factories rc rc' fromBlock toBlock, toLowerCase rc = toLowerCase rc' →
    rpc (.getLogs c (factories ++ [rc]) fromBlock toBlock) =
      rpc (.getLogs c (factories ++ [rc']) fromBlock toBlock)
  notAborted : rpc .signalAborted = false

/-- A contract has no code before a deployment event of one of the factories. -/
def CodeFromDeployment (chain : Chain) (factories : List Address) : Prop :=
  ∀ rc n, chain.code (toLowerCase rc) n ≠ none → ∀ f ∈ factories, ∀ l ∈ chain.logs,
    l.deploys f rc → (l.blockNumber : ℤ) ≤ n

/-- Every clock read falls in an interval that no scan budget is shorter than. -/
def WithinBudget (p : IntentRequestBindingPolicy) (width : ℤ) : Prop :=
  ∀ budget, p.eventScanDeadlineMs = some budget → width ≤ budget

def InRange (start width t : ℤ) : Prop := start ≤ t ∧ t ≤ start + width

def Served (rpc : (op : Op) → op.Answer) (start width : ℤ) : SigningEvent → Prop
  | ⟨.cacheGet _, _⟩ => True
  | ⟨.cacheSet .., _⟩ => True
  | ⟨.dateNow, t⟩ => InRange start width t
  | ⟨op, answer⟩ => answer = rpc op

/-- A write may be lost; a read may fail, miss, or return any value written under its key. -/
def cacheWorld (ι : Type) (rpc : (op : Op) → op.Answer) (start width : ℤ) :
    World env ι (List (String × A1OnChainData)) where
  serves _ writes e writes' := Served rpc start width e ∧
    match e with
    | ⟨.cacheGet k, answer⟩ =>
      writes' = writes ∧ ∀ v, answer = .ok (some v) → (k, v) ∈ writes
    | ⟨.cacheSet k v _, _⟩ => writes' = writes ∨ writes' = writes ++ [(k, v)]
    | _ => writes' = writes
  evolves _ _ := False

inductive Decision where
  | accepted (checks : List CheckEntry)
  | rejected
  | unavailable (error : SigningError)

def decision : CheckResult → Decision
  | .ok checks => .accepted checks
  | .error (.validationFailed ..) => .rejected
  | .error e => .unavailable e

section Fetch
variable {chains : ℕ → Chain} {rpc : (op : Op) → op.Answer} {start width : ℤ}
  {P : Protocol env Unit}

/-- The protocol of a call: reads are served, and only cache writes are constrained. -/
structure Reads (P : Protocol env Unit) (rpc : (op : Op) → op.Answer) (start width : ℤ) : Prop where
  permits : ∀ op, (∀ k v t, op ≠ .cacheSet k v t) → P.permits () op
  served : ∀ e, P.expects () e → Served rpc start width e

theorem scanAborted_false (hP : Reads P rpc start width) (hrpc : FixedRpc chains rpc)
    {args : ScanArgs} : (scanAborted args).Obeys P (fun _ r => r = false) () := by
  rw [scanAborted]
  split
  · refine ⟨hP.permits _ (by simp), fun r hr => ?_⟩
    have hserved : r = rpc .signalAborted := hP.served _ hr
    exact hserved.trans hrpc.notAborted
  · exact .pure rfl

theorem scanOverBudget_false (hP : Reads P rpc start width)
    {startedAt deadlineMs : ℤ} {firstChunk : Bool} (hbudget : width ≤ deadlineMs)
    (hstart : start ≤ startedAt) :
    (scanOverBudget startedAt firstChunk deadlineMs).Obeys P (fun _ r => r = false) () := by
  rw [scanOverBudget]
  split
  · exact .pure rfl
  · refine .call_bind (hP.permits _ (by simp)) fun now hnow => .pure ?_
    have hserved : InRange start width now := hP.served _ hnow
    have hle := hserved.2
    simp only [decide_eq_false_iff_not, gt_iff_lt, not_lt]
    omega

theorem scanInterrupted_none (hP : Reads P rpc start width) (hrpc : FixedRpc chains rpc)
    {args : ScanArgs} {startedAt toBlock : ℤ} {firstChunk : Bool}
    (hbudget : ∀ budget, args.deadlineMs = some budget → width ≤ budget)
    (hstart : start ≤ startedAt) :
    (scanInterrupted args startedAt toBlock firstChunk).Obeys P (fun _ r => r = none) () := by
  unfold scanInterrupted
  refine .bind (scanAborted_false hP hrpc) fun _ aborted h => ?_
  subst h
  simp only [Bool.false_eq_true, if_false]
  cases hd : args.deadlineMs with
  | none => exact .pure rfl
  | some deadlineMs =>
    refine .bind (scanOverBudget_false hP (hbudget _ hd) hstart) fun _ exceeded h => ?_
    subst h
    exact .pure rfl

def fixedReads (rpc : (op : Op) → op.Answer) (start : ℤ) : Protocol env Unit :=
  ⟨fun _ _ => True, fun _ => Served rpc start 0, fun _ _ => ()⟩

theorem fixedReads_reads (start : ℤ) : Reads (fixedReads rpc start) rpc start 0 :=
  ⟨fun _ _ => trivial, fun _ h => h⟩

theorem served_fixed (op : Op) : Served rpc (rpc .dateNow) 0 ⟨op, rpc op⟩ := by
  cases op with
  | dateNow => exact ⟨le_rfl, by rw [Int.add_zero]⟩
  | cacheGet => trivial
  | cacheSet => trivial
  | _ => rfl

theorem eval_of_reads {α : Type} {p : Signing α} {a : α}
    (h : ∀ P, Reads P rpc (rpc .dateNow) 0 → p.Obeys P (fun _ r => r = a) ()) : p.eval rpc = a :=
  Program.Obeys.eval (h _ (fixedReads_reads _)) served_fixed

/-- The same scan for the contract written in another case, with or without a signal. -/
def ScanArgs.alike (args : ScanArgs) (rc : Address) (hasSignal : Bool) : ScanArgs :=
  { args with requestContract := rc, hasSignal := hasSignal }

theorem takeLog_alike {args : ScanArgs} {rc : Address} {s : Bool}
    (hrc : toLowerCase args.requestContract = toLowerCase rc) :
    takeLog (args.alike rc s) = takeLog args := by
  funext st log
  simp only [takeLog, ScanArgs.alike, ScanArgs.factoryByLower, hrc]
  rfl

section Scan
variable {args : ScanArgs} {rc : Address} (s : Bool)

theorem scanLoop_determined (hP : Reads P rpc start width) (hrpc : FixedRpc chains rpc)
    (hbudget : ∀ budget, args.deadlineMs = some budget → 0 ≤ budget ∧ width ≤ budget)
    (hrc : toLowerCase args.requestContract = toLowerCase rc) {startedAt : ℤ}
    (hstart : start ≤ startedAt) (fuel : ℕ) (toBlock : ℤ) (firstChunk : Bool) (st : ScanState) :
    (scanLoop args startedAt fuel toBlock firstChunk st).Obeys P
      (fun _ r => r =
        (scanLoop (args.alike rc s) (rpc .dateNow) fuel toBlock firstChunk st).eval rpc) () := by
  induction fuel generalizing toBlock firstChunk st with
  | zero => exact .pure rfl
  | succ fuel ih =>
    have hnone : (scanInterrupted (args.alike rc s) (rpc .dateNow) toBlock firstChunk).eval rpc =
        none := eval_of_reads fun P hP =>
      scanInterrupted_none hP hrpc (fun b hb => (hbudget b hb).1) le_rfl
    rw [scanLoop, scanLoop]
    by_cases hcond : toBlock ≥ args.earliestAllowed ∧ st.foundDeploymentBlock = none
    · have hcond' : toBlock ≥ (args.alike rc s).earliestAllowed ∧
        st.foundDeploymentBlock = none := hcond
      rw [if_pos hcond, if_pos hcond', Program.eval_bind_def, hnone]
      refine .bind (scanInterrupted_none hP hrpc (fun b hb => (hbudget b hb).2) hstart)
        fun _ r hr => ?_
      subst hr
      refine .call_bind (hP.permits _ (by simp)) fun answer hanswer => ?_
      have hsame := (hP.served _ hanswer).trans (hrpc.logs _ _ _ _ _ _ hrc)
      rw [Program.eval_bind_def, show Program.eval rpc (ask (.getLogs (args.alike rc s).chain
        ((args.alike rc s).factories ++ [(args.alike rc s).requestContract])
        ((args.alike rc s).fromBlock toBlock) toBlock)) = answer from hsame.symm,
        takeLog_alike hrc]
      cases answer with
      | error e => exact .pure rfl
      | ok logs =>
        by_cases hlast : args.fromBlock toBlock = 0 ∨
            args.fromBlock toBlock = args.earliestAllowed
        · have hlast' : (args.alike rc s).fromBlock toBlock = 0 ∨
            (args.alike rc s).fromBlock toBlock = (args.alike rc s).earliestAllowed := hlast
          simp only [if_pos hlast, if_pos hlast']
          exact .pure rfl
        · have hlast' : ¬ ((args.alike rc s).fromBlock toBlock = 0 ∨
            (args.alike rc s).fromBlock toBlock = (args.alike rc s).earliestAllowed) := hlast
          simp only [if_neg hlast, if_neg hlast']
          exact ih _ _ _
    · have hcond' : ¬ (toBlock ≥ (args.alike rc s).earliestAllowed ∧
        st.foundDeploymentBlock = none) := hcond
      rw [if_neg hcond, if_neg hcond']
      exact .pure rfl

theorem scanRoleHolders_determined (hP : Reads P rpc start width) (hrpc : FixedRpc chains rpc)
    (hbudget : ∀ budget, args.deadlineMs = some budget → width ≤ budget)
    (hrc : toLowerCase args.requestContract = toLowerCase rc) :
    (scanRoleHolders args).Obeys P
      (fun _ r => r = (scanRoleHolders (args.alike rc s)).eval rpc) () := by
  unfold scanRoleHolders
  rw [show scanArgsError (args.alike rc s) = scanArgsError args from rfl]
  cases herror : scanArgsError args with
  | some e => exact .pure rfl
  | none =>
    have hpos := (scanArgsError_none herror).2.2
    refine .call_bind (hP.permits _ (by simp)) fun startedAt hstarted => ?_
    have hin : InRange start width startedAt := hP.served _ hstarted
    refine .bind (scanLoop_determined s hP hrpc (fun b hb => ⟨hpos b hb, hbudget b hb⟩) hrc hin.1
      _ _ _ _) fun _ r hr => ?_
    have hr' : r = Program.eval rpc (scanLoop (args.alike rc s) (rpc .dateNow)
      (scanFuel (args.alike rc s)) (args.alike rc s).latestBlock true .start) := hr
    rw [Program.eval_bind_def, Program.eval_bind_def,
      show Program.eval rpc (ask .dateNow) = rpc .dateNow from rfl, ← hr']
    cases r with
    | error e => exact .pure rfl
    | ok st => exact .pure rfl

end Scan

section Calls
variable {chainId : ℕ} {now : ℤ} (now' : ℤ) {s : Bool} (s' : Bool) {rc rc' : Address}
  {policy : IntentRequestBindingPolicy}

theorem predatesWindow_determined (hP : Reads P rpc start width) (hrpc : FixedRpc chains rpc)
    (hrc : toLowerCase rc = toLowerCase rc') (latestBlock : ℕ) :
    (predatesWindow ⟨chainId, now, s⟩ rc policy latestBlock).Obeys P
      (fun _ r => r = (predatesWindow ⟨chainId, now', s'⟩ rc' policy latestBlock).eval rpc) () := by
  rw [predatesWindow, predatesWindow]
  by_cases h : policy.onLookbackExhausted = some .fail ∧
      (latestBlock : ℤ) > policy.eventScanMaxLookbackBlocks
  · rw [if_pos h, if_pos h]
    refine .call_bind (hP.permits _ (by simp)) fun answer hanswer => ?_
    have hsame := (hP.served _ hanswer).trans (hrpc.code _ _ _ _ hrc)
    rw [Program.eval_bind_def, show Program.eval rpc (ask (.getCode chainId rc'
      ((latestBlock : ℤ) - policy.eventScanMaxLookbackBlocks - 1))) = answer from hsame.symm]
    cases answer with
    | error e => exact .pure rfl
    | ok code => exact .pure rfl
  · rw [if_neg h, if_neg h]
    exact .pure rfl

theorem scanRoles_determined (hP : Reads P rpc start width) (hrpc : FixedRpc chains rpc)
    (hbudget : WithinBudget policy width) (hrc : toLowerCase rc = toLowerCase rc')
    (owner firstFactory : Address) (matched : List Address) (latestBlock : ℕ) :
    (scanRoles ⟨chainId, now, s⟩ rc policy owner firstFactory matched latestBlock).Obeys P
      (fun _ r => r = (scanRoles ⟨chainId, now', s'⟩ rc' policy owner firstFactory matched
        latestBlock).eval rpc) () := by
  unfold scanRoles
  refine .bind (scanRoleHolders_determined s' hP hrpc hbudget hrc) fun _ outcome houtcome => ?_
  have houtcome' : outcome = Program.eval rpc (scanRoleHolders
    (scanArgs ⟨chainId, now', s'⟩ rc' policy matched latestBlock)) := houtcome
  rw [Program.eval_bind_def, ← houtcome']
  match outcome with
  | .error e => exact .pure rfl
  | .ok (.tooOld p) => exact .pure rfl
  | .ok (.resolved h b f) => exact .pure rfl

theorem fetchRoles_determined (hP : Reads P rpc start width) (hrpc : FixedRpc chains rpc)
    (hbudget : WithinBudget policy width) (hrc : toLowerCase rc = toLowerCase rc')
    (owner firstFactory : Address) (matched : List Address) :
    (fetchRoles ⟨chainId, now, s⟩ rc policy owner firstFactory matched).Obeys P
      (fun _ r => r =
        (fetchRoles ⟨chainId, now', s'⟩ rc' policy owner firstFactory matched).eval rpc) () := by
  unfold fetchRoles
  refine .call_bind (hP.permits _ (by simp)) fun answer hanswer => ?_
  have hsame : answer = rpc (.getBlockNumber chainId) := hP.served _ hanswer
  rw [Program.eval_bind_def,
    show Program.eval rpc (ask (.getBlockNumber chainId)) = answer from hsame.symm]
  cases answer with
  | error e => exact .pure rfl
  | ok latestBlock =>
    refine .bind (predatesWindow_determined now' s' hP hrpc hrc latestBlock)
      fun _ probe hprobe => ?_
    dsimp only
    rw [Program.eval_bind_def, ← hprobe]
    cases probe with
    | true => exact .pure rfl
    | false => exact scanRoles_determined now' s' hP hrpc hbudget hrc _ _ _ _

theorem fetchA1OnChain_determined (hP : Reads P rpc start width) (hrpc : FixedRpc chains rpc)
    (hbudget : WithinBudget policy width) (hrc : toLowerCase rc = toLowerCase rc') (id : ℕ) :
    (fetchA1OnChain ⟨chainId, now, s⟩ id rc policy).Obeys P
      (fun _ r => r = (fetchA1OnChain ⟨chainId, now', s'⟩ id rc' policy).eval rpc) () := by
  unfold fetchA1OnChain
  refine .call_bind (hP.permits _ (by simp)) fun answer hanswer => ?_
  have hsame := (hP.served _ hanswer).trans (hrpc.owner _ _ _ _ hrc)
  dsimp only
  rw [Program.eval_bind_def, show Program.eval rpc (ask (.ownerAndProvenance chainId rc'
    (factoryChecks policy id))) = answer from hsame.symm]
  match answer with
  | .error e => exact .pure rfl
  | .ok (.failure e, slots) =>
    dsimp only
    split <;> exact .pure rfl
  | .ok (.success owner, slots) =>
    dsimp only
    split
    · unfold fetchRetargetterOperation
      refine .call_bind (hP.permits _ (by simp)) fun operation hoperation => ?_
      have hop : operation = rpc (.operation chainId owner) := hP.served _ hoperation
      rw [Program.eval_bind_def,
        show Program.eval rpc (ask (.operation chainId owner)) = operation from hop.symm]
      cases operation with
      | error e => exact .pure rfl
      | ok o => exact .pure rfl
    · split
      · split <;> exact .pure rfl
      · exact fetchRoles_determined now' s' hP hrpc hbudget hrc _ _ _

end Calls

theorem fetchA1OnChain_shared {p q : IntentRequestBindingPolicy} (h : SharedReads p q)
    (ctx : SigningContext) (id : ℕ) (rc : Address) :
    fetchA1OnChain ctx id rc p = fetchA1OnChain ctx id rc (q.disposed p.onLookbackExhausted) := by
  obtain ⟨h₁, h₂, h₃, h₄, h₅, h₆⟩ := h
  cases p
  cases q
  dsimp only at h₁ h₂ h₃ h₄ h₅ h₆
  subst h₁ h₂ h₃ h₄ h₅ h₆
  rfl

/-- The one difference: the probe rejected what the scan finds too old or cannot read. -/
def ProbeReplaces (disposition : Option LookbackExhausted) (r r₀ : Except SigningError FetchedA1) :
    Prop :=
  disposition = some .fail ∧ ∃ factory owner, r = .ok (.onChain (.tooOld factory owner none)) ∧
    ∀ fetched, r₀ = .ok fetched → ∃ p, fetched = .onChain (.tooOld factory owner (some p))

section Probe
variable {ctx : SigningContext} {rc : Address} {policy : IntentRequestBindingPolicy}
  {disposition : Option LookbackExhausted}

theorem scan_not_resolved (hrpc : FixedRpc chains rpc) {fs : List Address}
    (hcode : CodeFromDeployment (chains ctx.chainId) fs) {matched : List Address}
    (hmatched : ∀ f ∈ matched, f ∈ fs) {latestBlock : ℕ}
    (hblock : rpc (.getBlockNumber ctx.chainId) = .ok latestBlock)
    (hlookback : (latestBlock : ℤ) > policy.eventScanMaxLookbackBlocks) {code : String}
    (hprobe : rpc (.getCode ctx.chainId rc
      ((latestBlock : ℤ) - policy.eventScanMaxLookbackBlocks - 1)) = .ok (some code))
    {holders : RoleMap} {block : ℕ} {factory : Option Address} :
    (scanRoleHolders (scanArgs ctx rc policy matched latestBlock)).eval rpc ≠
      .ok (.resolved holders block factory) := by
  intro hscan
  have hhead : latestBlock = (chains ctx.chainId).head :=
    hrpc.honest (.getBlockNumber ctx.chainId) latestBlock hblock
  have hensures : (scanRoleHolders (scanArgs ctx rc policy matched latestBlock)).Ensures
      (Answers chains) _ := scanRoleHolders_ensures rfl hhead
  have hsound := hensures.executes
    (Program.executes_trace rpc (scanRoleHolders (scanArgs ctx rc policy matched latestBlock)))
    (fun e he => by
      rw [show e = ⟨e.op, e.answer⟩ from rfl, Program.trace_answered _ _ e he]
      exact hrpc.honest e.op) _ hscan
  have hearliest : (scanArgs ctx rc policy matched latestBlock).earliestAllowed =
      latestBlock - policy.eventScanMaxLookbackBlocks := if_pos hlookback
  obtain ⟨lo, _, ⟨_, _, h0⟩ | ⟨f, hf, _, hlo, l, hl, hlb, hdep⟩⟩ := hsound
  · rw [hearliest] at h0
    omega
  · have hsome : (chains ctx.chainId).code (toLowerCase rc)
        ((latestBlock : ℤ) - policy.eventScanMaxLookbackBlocks - 1) ≠ none := by
      rw [← hrpc.honest (.getCode ctx.chainId rc
        ((latestBlock : ℤ) - policy.eventScanMaxLookbackBlocks - 1)) _ hprobe]
      simp
    have hle := hcode rc _ hsome f (hmatched f hf) l hl hdep
    rw [hearliest] at hlo
    omega

theorem fetchA1OnChain_probe (hrpc : FixedRpc chains rpc) {id : ℕ}
    (hcode : CodeFromDeployment (chains ctx.chainId)
      ((factoryChecks policy id).map FactoryCheck.factory))
    (hskip : policy.onLookbackExhausted ≠ some .fail) :
    let r := (fetchA1OnChain ctx id rc (policy.disposed disposition)).eval rpc
    let r₀ := (fetchA1OnChain ctx id rc policy).eval rpc
    r = r₀ ∨ ProbeReplaces disposition r r₀ := by
  intro r r₀
  have hunprobed : r = r₀ ∨ Probed rpc ctx id rc (policy.disposed disposition) r r₀ :=
    fetchA1OnChain_unprobed id (fun _ _ => rfl) (predatesWindow_skip hskip)
  rcases hunprobed with hsame | ⟨owner, slots, firstFactory, rest, latestBlock, _, hhit, hblock,
    hprobe, hr, hr₀⟩
  · exact .inl hsame
  · obtain ⟨hfail, hlookback, code, hgot⟩ := predatesWindow_true hprobe
    refine .inr ⟨hfail, firstFactory, owner, hr, fun fetched hfetched => ?_⟩
    have hmatched : ∀ f ∈ firstFactory :: rest,
        f ∈ (factoryChecks policy id).map FactoryCheck.factory := by
      intro f hf
      obtain ⟨slot, hslot, _, hfactory⟩ := hhit f hf
      exact List.mem_map.mpr ⟨slot.1, (List.of_mem_zip hslot).1, hfactory⟩
    have hne : ∀ holders block factory,
        (scanRoleHolders (scanArgs ctx rc (policy.disposed disposition) (firstFactory :: rest)
          latestBlock)).eval rpc ≠ .ok (.resolved holders block factory) := fun _ _ _ =>
      scan_not_resolved hrpc hcode hmatched hblock hlookback hgot
    rw [show r₀ = _ from hr₀, scanRoles, Program.eval_bind_def] at hfetched
    generalize (scanRoleHolders (scanArgs ctx rc (policy.disposed disposition)
      (firstFactory :: rest) latestBlock)).eval rpc = outcome at hne hfetched
    match outcome with
    | .error e => simp at hfetched
    | .ok (.tooOld p) => exact ⟨p, by simpa using hfetched.symm⟩
    | .ok (.resolved holders block factory) => exact absurd rfl (hne _ _ _)

end Probe

end Fetch

structure A1Call where
  ctx : SigningContext
  body : A1Request
  deps : A1Deps
  chain : ctx.chainId = body.chainId

def A1Call.run (call : A1Call) : Signing CheckResult := runA1 call.ctx call.body call.deps

def A1Call.uncached (call : A1Call) : Signing CheckResult :=
  runA1 call.ctx call.body { call.deps with cache := false }

def Written (rpc : (op : Op) → op.Answer) (policy : IntentRequestBindingPolicy) (k : String)
    (data : A1OnChainData) : Prop :=
  ∃ id rc, k = key id (toLowerCase rc) ∧
    (fetchA1OnChain ⟨id, 0, false⟩ id rc policy).eval rpc = .ok (.onChain data)

/-- A call writes only what a scan returns, and relies on reading nothing else. -/
def callProtocol (rpc : (op : Op) → op.Answer) (policy : IntentRequestBindingPolicy)
    (start width : ℤ) : Protocol env Unit where
  permits _ op := ∀ k data ttl, op = .cacheSet k data ttl → Written rpc policy k data
  expects _ e := Served rpc start width e ∧
    ∀ k data, e = ⟨.cacheGet k, .ok (some data)⟩ → Written rpc policy k data
  advance _ _ := ()

section Calls
variable {chains : ℕ → Chain} {rpc : (op : Op) → op.Answer} {start width : ℤ}
  {policy : IntentRequestBindingPolicy} {call : A1Call}

theorem callProtocol_reads : Reads (callProtocol rpc policy start width) rpc start width :=
  ⟨fun _ h k v t hop => absurd hop (h k v t), fun _ h => h.1⟩

def A1Call.decide (call : A1Call) : Except SigningError FetchedA1 → CheckResult
  | .error e => .error e
  | .ok (.retargetter data) =>
    rollupA1 (evaluateRetargetter data call.body.requestContract call.ctx.nowUnixSeconds
      call.deps.policy (checkDeadline call.ctx.nowUnixSeconds call.body.deadline
        call.deps.policy.maxDeadlineSecondsAhead))
  | .ok (.onChain data) =>
    rollupA1 (evaluateA1 data call.body.chainId call.deps.policy
      (checkDeadline call.ctx.nowUnixSeconds call.body.deadline
        call.deps.policy.maxDeadlineSecondsAhead))

def A1Call.fetch (call : A1Call) : Signing (Except SigningError FetchedA1) :=
  fetchA1OnChain call.ctx call.body.chainId call.body.requestContract call.deps.policy

theorem decision_rejected {data : A1OnChainData} {factory owner : Address} {p : Option RoleMap}
    (hdata : data = .tooOld factory owner p)
    (hfail : call.deps.policy.onLookbackExhausted = some .fail) :
    decision (call.decide (.ok (.onChain data))) = .rejected := by
  subst hdata
  cases h : call.decide (.ok (.onChain (.tooOld factory owner p))) with
  | error e =>
    obtain ⟨rfl, _⟩ := rollUp_error.mp h
    rfl
  | ok checks =>
    obtain ⟨-, -, -, hroles⟩ := evaluateRoles_passed.mp (rollUp_ok.mp h).2
    exact absurd hfail (disposition_of_tooOld hroles)

theorem written_fetch (hrpc : FixedRpc chains rpc) (hbudget : WithinBudget policy 0)
    {data : A1OnChainData} (h : Written rpc policy call.body.cacheKey data) :
    (fetchA1OnChain call.ctx call.body.chainId call.body.requestContract policy).eval rpc =
      .ok (.onChain data) := by
  obtain ⟨id, rc, hkey, hfetch⟩ := h
  obtain ⟨hid, hrc⟩ := key_injective hkey
  obtain ⟨⟨chainId, now, s⟩, body, deps, hchain⟩ := call
  obtain rfl : chainId = body.chainId := hchain
  obtain rfl : body.chainId = id := hid
  rw [← hfetch]
  exact eval_of_reads fun P hP => fetchA1OnChain_determined _ _ hP hrpc hbudget hrc _

theorem fetch_written (hrpc : FixedRpc chains rpc) (hbudget : WithinBudget policy 0)
    {data : A1OnChainData}
    (h : (fetchA1OnChain call.ctx call.body.chainId call.body.requestContract policy).eval rpc =
      .ok (.onChain data)) : Written rpc policy call.body.cacheKey data := by
  refine ⟨call.body.chainId, call.body.requestContract, rfl, ?_⟩
  rw [← h]
  obtain ⟨⟨chainId, now, s⟩, body, deps, hchain⟩ := call
  obtain rfl : chainId = body.chainId := hchain
  exact eval_of_reads fun P hP => fetchA1OnChain_determined _ _ hP hrpc hbudget rfl _

theorem cached_decision {disposition : Option LookbackExhausted} {data : A1OnChainData}
    {r : Except SigningError FetchedA1} (hd : disposition = call.deps.policy.onLookbackExhausted)
    (h : r = .ok (.onChain data) ∨ ProbeReplaces disposition r (.ok (.onChain data))) :
    decision (call.decide (.ok (.onChain data))) = decision (call.decide r) := by
  rcases h with h | ⟨hfail, factory, owner, hr, hp⟩
  · rw [h]
  · obtain ⟨p, hp⟩ := hp _ rfl
    rw [hr, decision_rejected rfl (hd ▸ hfail), decision_rejected (FetchedA1.onChain.inj hp)
      (hd ▸ hfail)]

def A1Call.result (call : A1Call) (rpc : (op : Op) → op.Answer) : CheckResult :=
  if isTrustedRequestContract call.body.requestContract call.body.chainId call.deps.policy then
    rollupA1 (trustedRequestContractChecks (checkDeadline call.ctx.nowUnixSeconds
      call.body.deadline call.deps.policy.maxDeadlineSecondsAhead))
  else call.decide (call.fetch.eval rpc)

theorem A1Call.run_eval (call : A1Call) (hcache : call.deps.cache = false)
    (rpc : (op : Op) → op.Answer) : call.run.eval rpc = call.result rpc := by
  rw [A1Call.run, runA1, A1Call.result]
  split
  · rfl
  · rw [show readCache call.body call.deps = pure none by simp [readCache, hcache], pure_bind,
      Program.eval_bind_def, A1Call.fetch]
    generalize Program.eval rpc (fetchA1OnChain call.ctx call.body.chainId
      call.body.requestContract call.deps.policy) = r
    rcases r with e | (data | data)
    · rfl
    · dsimp only
      rw [show writeCache call.body call.deps data = pure () by simp [writeCache, hcache]]
      rfl
    · rfl

theorem fetch_determined {P : Protocol env Unit} (hP : Reads P rpc start width)
    (hrpc : FixedRpc chains rpc) (hbudget : WithinBudget call.deps.policy width) :
    call.fetch.Obeys P (fun _ r => r = call.fetch.eval rpc) () :=
  fetchA1OnChain_determined call.ctx.now call.ctx.hasSignal hP hrpc hbudget rfl _

theorem uncached_determined {P : Protocol env Unit} (hP : Reads P rpc start width)
    (hrpc : FixedRpc chains rpc) (hbudget : WithinBudget call.deps.policy width) :
    call.uncached.Obeys P (fun _ r => r = call.result rpc) () := by
  rw [A1Call.uncached, runA1, A1Call.result]
  dsimp only
  split
  · exact .pure rfl
  · rw [show readCache call.body { call.deps with cache := false } = pure none from rfl, pure_bind]
    refine .bind (fetch_determined hP hrpc hbudget) fun _ r hr => ?_
    rw [← hr]
    rcases r with e | (data | data)
    · exact .pure rfl
    · exact .pure rfl
    · exact .pure rfl

theorem usableEntry_some {id : ℕ} {p : IntentRequestBindingPolicy} {data data' : A1OnChainData}
    (h : usableEntry id p data = some data') : data' = data := by
  cases data <;> simp only [usableEntry] at h
  · exact (Option.some.inj h).symm
  all_goals
    split at h
    · simp at h
    · exact (Option.some.inj h).symm

theorem readCache_obeys :
    (readCache call.body call.deps).Obeys (callProtocol rpc policy start width)
      (fun _ r => ∀ data, r = some data → Written rpc policy call.body.cacheKey data) () := by
  rw [readCache]
  split
  · refine .call_bind (by simp [callProtocol]) fun hit hhit => ?_
    rcases hit with e | (_ | data)
    · exact .pure fun data hd => by simp at hd
    · exact .pure fun data hd => by simp at hd
    · refine .pure fun data' hd => ?_
      rw [usableEntry_some hd]
      exact hhit.2 _ _ rfl
  · exact .pure fun data hd => by simp at hd

theorem writeCache_obeys {data : A1OnChainData}
    (h : isProbeOnly data = false → Written rpc policy call.body.cacheKey data) :
    (writeCache call.body call.deps data).Obeys (callProtocol rpc policy start width)
      (fun _ _ => True) () := by
  rw [writeCache]
  split
  · rename_i hcond
    simp only [Bool.and_eq_true, Bool.not_eq_true'] at hcond
    refine .call_bind (fun k v t hop => ?_) fun _ _ => .pure trivial
    obtain ⟨rfl, rfl, _⟩ := Op.cacheSet.inj hop
    exact h hcond.2
  · exact .pure trivial

theorem run_obeys (hrpc : FixedRpc chains rpc) (hwidth : 0 ≤ width)
    (hbudget : WithinBudget policy width)
    (hcode : CodeFromDeployment (chains call.body.chainId)
      ((factoryChecks policy call.body.chainId).map FactoryCheck.factory))
    (hskip : policy.onLookbackExhausted ≠ some .fail)
    (hshared : SharedReads call.deps.policy policy) :
    call.run.Obeys (callProtocol rpc policy start width)
      (fun _ r => decision r = decision (call.result rpc)) () := by
  have hbudget₀ : WithinBudget policy 0 := fun b hb => le_trans hwidth (hbudget b hb)
  have hbudget' : WithinBudget call.deps.policy width := fun b hb =>
    hbudget b (hshared.deadlineMs ▸ hb)
  have hprobe : call.fetch.eval rpc = (fetchA1OnChain call.ctx call.body.chainId
        call.body.requestContract policy).eval rpc ∨
      ProbeReplaces call.deps.policy.onLookbackExhausted (call.fetch.eval rpc)
        ((fetchA1OnChain call.ctx call.body.chainId call.body.requestContract policy).eval
          rpc) := by
    rw [A1Call.fetch, fetchA1OnChain_shared hshared]
    exact fetchA1OnChain_probe hrpc (call.chain ▸ hcode) hskip
  rw [A1Call.run, runA1, A1Call.result]
  split
  · exact .pure rfl
  · refine .bind readCache_obeys fun _ hit hhit => ?_
    cases hit with
    | some data =>
      refine .pure (cached_decision rfl ?_)
      rwa [written_fetch hrpc hbudget₀ (hhit data rfl)] at hprobe
    | none =>
      refine .bind (fetch_determined callProtocol_reads hrpc hbudget') fun _ r hr => ?_
      rw [← hr]
      rcases r with e | (data | data)
      · exact .pure rfl
      · refine .bind (writeCache_obeys fun hdata => ?_) fun _ _ _ => .pure rfl
        rcases hprobe with hsame | ⟨_, factory, owner, hr', _⟩
        · exact fetch_written hrpc hbudget₀ (hsame.symm.trans hr.symm)
        · rw [← hr] at hr'
          obtain rfl := FetchedA1.onChain.inj (Except.ok.inj hr')
          simp [isProbeOnly] at hdata
      · exact .pure rfl

end Calls

def CacheSound (rpc : (op : Op) → op.Answer) (policy : IntentRequestBindingPolicy) {ι : Type}
    (writes : List (String × A1OnChainData)) (_ : List (ι × SigningEvent)) : Prop :=
  ∀ k data, (k, data) ∈ writes → Written rpc policy k data

theorem cacheWorld_serves {ι : Type} {rpc : (op : Op) → op.Answer}
    {policy : IntentRequestBindingPolicy} {start width : ℤ} {g : Unit} (i : ι)
    (writes : List (String × A1OnChainData)) (log : List (ι × SigningEvent)) (e : SigningEvent)
    (writes' : List (String × A1OnChainData)) (hsound : CacheSound rpc policy writes log)
    (hpermits : (callProtocol rpc policy start width).permits g e.op)
    (hserves : (cacheWorld ι rpc start width).serves i writes e writes') :
    (callProtocol rpc policy start width).expects g e ∧
      CacheSound rpc policy writes' (log ++ [(i, e)]) := by
  obtain ⟨hserved, hcache⟩ := hserves
  refine ⟨⟨hserved, fun k data he => ?_⟩, ?_⟩
  · subst he
    exact hsound k data (hcache.2 data rfl)
  · obtain ⟨op, answer⟩ := e
    cases op with
    | cacheGet k => exact hcache.1 ▸ hsound
    | cacheSet k v ttl =>
      rcases hcache with rfl | rfl
      · exact hsound
      · intro k' data hmem
        rcases List.mem_append.mp hmem with hmem | hmem
        · exact hsound k' data hmem
        · obtain ⟨rfl, rfl⟩ := Prod.mk.inj (List.mem_singleton.mp hmem)
          exact hpermits _ _ _ rfl
    | _ => exact hcache ▸ hsound

/-- In any interleaving over one cache, a finished call decided as it would have without it. -/
theorem runA1_cache_transparent {ι : Type} [DecidableEq ι] (chains : ℕ → Chain)
    (rpc : (op : Op) → op.Answer) (policy : IntentRequestBindingPolicy) (start width : ℤ)
    (calls : ι → A1Call) (hrpc : FixedRpc chains rpc) (hwidth : 0 ≤ width)
    (hbudget : WithinBudget policy width)
    (hcode : ∀ id, CodeFromDeployment (chains id)
      ((factoryChecks policy id).map FactoryCheck.factory))
    (hshared : ∀ i, SharedReads (calls i).deps.policy policy)
    (c : Config env ι (List (String × A1OnChainData)) CheckResult)
    (hreach : Config.Reachable (cacheWorld ι rpc start width) [] (fun i => (calls i).run) c)
    (i : ι) (r : CheckResult) (hdone : c.procs i = .done r)
    (tr : List SigningEvent) (r' : CheckResult) (hfresh : Executes (calls i).uncached tr r')
    (hserved : ∀ e ∈ tr, Served rpc start width e) : decision r = decision r' := by
  have hobeys : ∀ i, ((calls i).run).Obeys
      (callProtocol rpc (policy.disposed none) start width)
      (fun _ r => decision r = decision ((calls i).result rpc)) () := fun i => by
    have h := hshared i
    exact run_obeys hrpc hwidth hbudget (hcode _) (by simp [IntentRequestBindingPolicy.disposed])
      ⟨h.1, h.2, h.3, h.4, h.5, h.6⟩
  have hinit : CacheSound rpc (policy.disposed none) [] ([] : List (ι × SigningEvent)) := by
    simp [CacheSound]
  have hrun := (Config.reachable_obeys hinit (fun i s log e s' hI hp hs =>
    cacheWorld_serves i s log e s' hI hp hs) (fun _ _ _ _ h => h.elim) hobeys hreach).2 i
  rw [hdone] at hrun
  have hbudget' : WithinBudget (calls i).deps.policy width := fun b hb =>
    hbudget b ((hshared i).deadlineMs ▸ hb)
  have hP : Reads (.relying (Served rpc start width)) rpc start width :=
    ⟨fun _ _ => trivial, fun _ h => h⟩
  have hresult : r' = (calls i).result rpc :=
    (uncached_determined hP hrpc hbudget').executes hfresh
      (Protocol.follows_of_forall (fun _ _ he => he) hserved)
  rw [hresult]
  exact hrun

theorem serve_fixed (chains : ℕ → Chain) : FixedRpc chains (serve chains) where
  honest := serve_answers chains
  owner c rc rc' checks h := by simp only [serve, h]
  code c rc rc' n h := by simp only [serve, h]
  logs c factories rc rc' a b h := by simp only [serve, memLower, List.map_append, List.map_cons, h]
  notAborted := rfl

namespace Sample

theorem noLogs_le : ∀ l ∈ ([] : List Log), l.blockNumber ≤ 100 := by simp

theorem noLogs_positioned :
    ∀ l ∈ ([] : List Log), ∀ l' ∈ ([] : List Log), l.position = l'.position → l = l' := by simp

def emptyChain : Chain where
  head := 100
  logs := []
  owner := fun _ => none
  provenance := fun _ _ => none
  operation := fun _ => none
  code := fun _ _ => none
  logs_le_head := noLogs_le
  logs_positioned := noLogs_positioned

def calls (second : Bool) : A1Call where
  ctx := ctx
  body := ⟨1, if second then "0xREQ" else "0xreq", 1050⟩
  deps := ⟨if second then { policy with acceptedOwners := fun _ => some ["0xnew"] } else policy,
    true, none⟩
  chain := sameChain

def rpc : (op : Op) → op.Answer := serve fun _ => emptyChain

theorem second_reads_first : ∃ c : Config env Bool (List (String × A1OnChainData)) CheckResult,
    Config.Reachable (cacheWorld Bool rpc 0 0) [] (fun i => (calls i).run) c ∧
      ∃ r, c.procs true = .done r := by
  have h₀ : Config.Reachable (cacheWorld Bool rpc 0 0) [] (fun i => (calls i).run)
    (Config.start [] fun i => (calls i).run) := .refl
  have h₁ := h₀.serve false (.cacheGet "1:0xreq") (.ok none) [] rfl ⟨trivial, rfl, by simp⟩
  have h₂ := h₁.serve false (.ownerAndProvenance 1 "0xreq" [⟨"0xfac", "isRequest"⟩])
    (rpc (.ownerAndProvenance 1 "0xreq" [⟨"0xfac", "isRequest"⟩])) [] rfl ⟨rfl, rfl⟩
  have h₃ := h₂.serve false (.cacheSet "1:0xreq" .noFactory none) (.ok ())
    [("1:0xreq", .noFactory)] rfl ⟨trivial, .inr rfl⟩
  have h₄ := h₃.serve true (.cacheGet "1:0xreq") (.ok (some .noFactory))
    [("1:0xreq", .noFactory)] rfl
    ⟨trivial, rfl, fun v hv => by rw [← Option.some.inj (Except.ok.inj hv)]; exact .head _⟩
  exact ⟨_, h₄, _, rfl⟩

end Sample

theorem runA1_cache_transparent_shared :
    ∃ c : Config env Bool (List (String × A1OnChainData)) CheckResult,
      Config.Reachable (cacheWorld Bool Sample.rpc 0 0) [] (fun i => (Sample.calls i).run) c ∧
        ∃ r, c.procs true = .done r ∧
          decision r = decision ((Sample.calls true).uncached.eval Sample.rpc) := by
  obtain ⟨c, hreach, r, hdone⟩ := Sample.second_reads_first
  refine ⟨c, hreach, r, hdone, ?_⟩
  refine runA1_cache_transparent (fun _ => Sample.emptyChain) Sample.rpc Sample.policy 0 0
    Sample.calls (serve_fixed _) le_rfl (by simp [WithinBudget, Sample.policy])
    (fun _ rc n h => absurd rfl h) (fun i => ?_) c hreach true r hdone
    ((Sample.calls true).uncached.trace Sample.rpc) _ (Program.executes_trace _ _) fun e he => ?_
  · cases i <;> exact ⟨rfl, rfl, rfl, rfl, rfl, rfl⟩
  · rw [show e = ⟨e.op, e.answer⟩ from rfl, Program.trace_answered _ _ e he]
    exact served_fixed e.op

end Guardian
