import Guardian.Defaults.UndisturbedScan

/-!
# The archive probe of the fail disposition

Two runs over one client are compared: one reads the code before the window,
the other finds no archive behind its `getCode`. Only the probe asks for code,
so the runs differ just where the probe answers; there the first rejects, and an
undisturbed scan makes the second find the contract too old and reject as well.
-/

namespace Guardian
open Effect Text

def withoutArchive (rpc : (op : Op) → op.Answer) (e : RpcError) : (op : Op) → op.Answer
  | .getCode .. => .error e
  | op => rpc op

/-- The contract has code exactly from the block of its deployment event on. -/
structure DeployedAt (chain : Chain) (policy : IntentRequestBindingPolicy) (body : A1Request)
    (block : ℕ) : Prop where
  event : ∃ f, Recognised chain policy body f ∧
    ∃ l ∈ chain.logs, l.deploys f body.requestContract ∧ l.blockNumber = block
  only : ∀ f, Recognised chain policy body f → ∀ l ∈ chain.logs,
    l.deploys f body.requestContract → l.blockNumber = block
  code : ∀ n, chain.code (toLowerCase body.requestContract) n ≠ none ↔ (block : ℤ) ≤ n

section Archive
variable {rpc : (op : Op) → op.Answer} {e : RpcError} {ctx : SigningContext} {rc : Address}
  {policy : IntentRequestBindingPolicy}

theorem withoutArchive_op (op : Op) (h : AsksNoCode op) : rpc op = withoutArchive rpc e op := by
  cases op with
  | getCode => exact h.elim
  | _ => rfl

theorem withoutArchive_predatesWindow (latestBlock : ℕ) :
    (predatesWindow ctx rc policy latestBlock).eval (withoutArchive rpc e) = false := by
  rw [predatesWindow]
  split <;> rfl

theorem fetchA1OnChain_archive (id : ℕ) :
    let r := (fetchA1OnChain ctx id rc policy).eval rpc
    let r' := (fetchA1OnChain ctx id rc policy).eval (withoutArchive rpc e)
    r = r' ∨ Probed rpc ctx id rc policy r r' :=
  fetchA1OnChain_unprobed id (fun op hop => withoutArchive_op op hop)
    withoutArchive_predatesWindow

theorem scan_of_probed {chains : ℕ → Chain} {body : A1Request} {block : ℕ}
    {r r' : Except SigningError FetchedA1} (hchain : ctx.chainId = body.chainId)
    (honest : ∀ op, Answers chains ⟨op, rpc op⟩)
    (hlogs : ∀ c addresses fromBlock toBlock, ∃ logs,
      rpc (.getLogs c addresses fromBlock toBlock) = .ok logs)
    (habort : rpc .signalAborted = false) (hrange : 0 < policy.eventScanBlockRange)
    (hlookback : 0 < policy.eventScanMaxLookbackBlocks)
    (hbudget : policy.eventScanDeadlineMs = none)
    (hdeployed : DeployedAt (chains body.chainId) policy body block)
    (h : Probed rpc ctx body.chainId body.requestContract policy r r') :
    ∃ factory owner p, r' = .ok (.onChain (.tooOld factory owner (some p))) := by
  obtain ⟨owner, slots, firstFactory, rest, latestBlock, hread, hhit, hblock, hprobe, -, hr'⟩ := h
  have hhead : latestBlock = (chains ctx.chainId).head :=
    honest (.getBlockNumber ctx.chainId) latestBlock hblock
  have hrecognised : ∀ f ∈ firstFactory :: rest,
      Recognised (chains body.chainId) policy body f := by
    intro f hf
    obtain ⟨s, hs, htrue, hsf⟩ := hhit f hf
    have hslots := (honest (.ownerAndProvenance ctx.chainId body.requestContract _) _ _ hread).2
    exact ⟨s.1, (List.of_mem_zip hs).1, hsf, hchain ▸ hslots s hs true htrue⟩
  have hprobe' : (predatesWindow ctx body.requestContract
      (policy.disposed policy.onLookbackExhausted) latestBlock).eval rpc = true := hprobe
  obtain ⟨-, hbefore, code, hcode⟩ := predatesWindow_true hprobe'
  have hle : (block : ℤ) ≤ latestBlock - policy.eventScanMaxLookbackBlocks - 1 := by
    refine (hdeployed.code _).mp ?_
    rw [← hchain, ← honest (.getCode ctx.chainId body.requestContract _) _ hcode]
    simp
  let args := scanArgs ctx body.requestContract policy (firstFactory :: rest) latestBlock
  have hearliest : args.earliestAllowed = latestBlock - policy.eventScanMaxLookbackBlocks :=
    if_pos hbefore
  have hargs : scanArgsError args = none :=
    scanArgsError_eq_none (by simp [args, scanArgs]) hrange hlookback fun d hd => by
      simp [args, scanArgs, hbudget] at hd
  have hscan : (scanRoleHolders args).Ensures
      (fun e => Answers chains e ∧ Undisturbed (rpc .dateNow) 0 e) _ :=
    scanRoleHolders_exact rfl hhead hargs fun d hd => by simp [args, scanArgs, hbudget] at hd
  obtain ⟨o, ho, hexact⟩ := hscan.eval fun op => ⟨honest op, by
    cases op with
    | getLogs c addresses fromBlock toBlock => exact hlogs c addresses fromBlock toBlock
    | signalAborted => exact habort
    | dateNow => exact ⟨le_rfl, by rw [Int.add_zero]⟩
    | _ => trivial⟩
  rw [hr', scanRoles, Program.eval_bind_def, ho]
  cases o with
  | tooOld p => exact ⟨firstFactory, owner, p, rfl⟩
  | resolved holders at? factory =>
    exfalso
    cases factory with
    | none =>
      obtain ⟨-, -, ⟨-, -, h0⟩ | ⟨f, -, hf, -⟩⟩ := hexact.1
      · omega
      · simp at hf
    | some factory =>
      obtain ⟨lo, -, ⟨h0, -⟩ | ⟨f, hf, -, hlo, l, hl, hlb, hdep⟩⟩ := hexact
      · simp at h0
      · have honly := hdeployed.only f (hrecognised f hf) l (hchain ▸ hl) hdep
        omega

end Archive

/-- The probe never lets a call through that the scan rejects, and rejects no more than the
scan does when the contract has code exactly from its deployment event on. -/
theorem archive_probe_agrees (call : A1Call) (rpc : (op : Op) → op.Answer) (e : RpcError)
    (hcache : call.deps.cache = false)
    (hfail : call.deps.policy.onLookbackExhausted = some .fail)
    (hrange : 0 < call.deps.policy.eventScanBlockRange)
    (hlookback : 0 < call.deps.policy.eventScanMaxLookbackBlocks)
    (hbudget : call.deps.policy.eventScanDeadlineMs = none) (habort : rpc .signalAborted = false) :
    (∀ checks, call.run.eval rpc = .ok checks →
      decision (call.run.eval (withoutArchive rpc e)) ≠ .rejected) ∧
    ∀ (chains : ℕ → Chain) (block : ℕ), (∀ op, Answers chains ⟨op, rpc op⟩) →
      (∀ c addresses fromBlock toBlock, ∃ logs,
        rpc (.getLogs c addresses fromBlock toBlock) = .ok logs) →
      DeployedAt (chains call.body.chainId) call.deps.policy call.body block →
      decision (call.run.eval rpc) = decision (call.run.eval (withoutArchive rpc e)) := by
  rw [call.run_eval hcache, call.run_eval hcache]
  unfold A1Call.result
  have hprobed : call.fetch.eval rpc = call.fetch.eval (withoutArchive rpc e) ∨ _ :=
    fetchA1OnChain_archive call.body.chainId
  split
  · exact ⟨fun checks h => by rw [h]; simp [decision], fun _ _ _ _ _ => rfl⟩
  · rcases hprobed with hsame | hprobed
    · rw [← hsame]
      exact ⟨fun checks h => by rw [h]; simp [decision], fun _ _ _ _ _ => rfl⟩
    · have hr : decision (call.decide (call.fetch.eval rpc)) = .rejected := by
        obtain ⟨owner, slots, firstFactory, rest, latestBlock, -, -, -, -, hr, -⟩ := hprobed
        rw [show call.fetch.eval rpc = _ from hr]
        exact decision_rejected rfl hfail
      refine ⟨fun checks h => ?_, fun chains block honest hlogs hdeployed => ?_⟩
      · rw [h] at hr
        simp [decision] at hr
      · obtain ⟨factory, owner, p, hr'⟩ := scan_of_probed call.chain honest hlogs habort hrange
          hlookback hbudget hdeployed hprobed
        rw [hr, show call.fetch.eval (withoutArchive rpc e) = _ from hr']
        exact (decision_rejected rfl hfail).symm

namespace Sample

def predating : Chain where
  head := 100
  logs := [roleLog 10 0 "0xPULL" 1, roleLog 10 1 "0xCONS" 2,
    ⟨"0xFAC", .requestCreated, 10, 2, none, none, some "0xreq", none⟩]
  owner := fun _ => some "0xOWN"
  provenance := fun _ _ => some true
  operation := fun _ => none
  code := fun _ n => if 10 ≤ n then some "0x60" else none
  logs_le_head := by decide
  logs_positioned := by decide

def failingCall : A1Call where
  ctx := ctx
  body := body
  deps := ⟨{ policy with onLookbackExhausted := some .fail }, false, none⟩
  chain := sameChain

theorem predating_deployedAt : DeployedAt predating failingCall.deps.policy body 10 where
  event := ⟨"0xfac", ⟨⟨"0xfac", "isRequest"⟩, .head _, rfl, rfl⟩, _, .tail _ (.tail _ (.head _)),
    ⟨by decide, by decide, by decide⟩, rfl⟩
  only f _ l hl hdep := by
    have hblock : ∀ l ∈ predating.logs, l.blockNumber = 10 := by decide
    exact hblock l hl
  code n := by simp [predating]

end Sample

theorem archive_probe_agrees_predating :
    decision (Sample.failingCall.run.eval (serve fun _ => Sample.predating)) =
      decision (Sample.failingCall.run.eval
        (withoutArchive (serve fun _ => Sample.predating) (revertError "getCode"))) :=
  (archive_probe_agrees Sample.failingCall (serve fun _ => Sample.predating)
    (revertError "getCode") rfl rfl (by decide) (by decide) rfl rfl).2 (fun _ => Sample.predating)
    10 (serve_answers _) (fun _ _ _ _ => ⟨_, rfl⟩) Sample.predating_deployedAt

end Guardian
