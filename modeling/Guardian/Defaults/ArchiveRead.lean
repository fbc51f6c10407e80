import Guardian.Defaults.IntentRequestBindingSound

/-!
# The one archive read of a fetch

A fetch asks for code only in the probe of the `fail` disposition. Two fetches
whose clients agree elsewhere, one of which finds nothing by its probe, return the
same value unless the other one's probe has found code before the window.
-/

namespace Guardian
open Effect Text

def IntentRequestBindingPolicy.disposed (policy : IntentRequestBindingPolicy)
    (disposition : Option LookbackExhausted) : IntentRequestBindingPolicy :=
  { policy with onLookbackExhausted := disposition }

def AsksNoCode : Op → Prop
  | .getCode .. => False
  | _ => True

section Probe
variable {rpc rpc' : (op : Op) → op.Answer} {ctx : SigningContext} {rc : Address}
  {policy : IntentRequestBindingPolicy} {disposition disposition' : Option LookbackExhausted}

theorem asksNoCode_of_isScanRead {op : Op} (h : IsScanRead op) : AsksNoCode op := by
  cases op with
  | getCode => exact h.elim
  | _ => trivial

theorem fetchRetargetterOperation_performs (owner : Address) :
    (fetchRetargetterOperation ctx owner).Performs AsksNoCode := by
  refine .call_bind trivial fun answer => ?_
  cases answer <;> trivial

theorem scanRoles_performs (owner firstFactory : Address) (matched : List Address)
    (latestBlock : ℕ) :
    (scanRoles ctx rc policy owner firstFactory matched latestBlock).Performs IsScanRead := by
  refine .bind scanRoleHolders_performs fun outcome => ?_
  match outcome with
  | .error _ => trivial
  | .ok (.tooOld _) => trivial
  | .ok (.resolved ..) => trivial

theorem predatesWindow_skip (h : policy.onLookbackExhausted ≠ some .fail) (latestBlock : ℕ) :
    (predatesWindow ctx rc policy latestBlock).eval rpc = false := by
  rw [predatesWindow, if_neg fun hc => h hc.1]
  rfl

theorem predatesWindow_true {latestBlock : ℕ}
    (h : (predatesWindow ctx rc (policy.disposed disposition) latestBlock).eval rpc = true) :
    disposition = some .fail ∧ (latestBlock : ℤ) > policy.eventScanMaxLookbackBlocks ∧
      ∃ code, rpc (.getCode ctx.chainId rc
        ((latestBlock : ℤ) - policy.eventScanMaxLookbackBlocks - 1)) = .ok (some code) := by
  rw [predatesWindow] at h
  split at h
  · rename_i hcond
    rw [Program.eval_bind_def, show Program.eval rpc (ask (.getCode ctx.chainId rc
      ((latestBlock : ℤ) - (policy.disposed disposition).eventScanMaxLookbackBlocks - 1))) =
        rpc (.getCode ctx.chainId rc
          ((latestBlock : ℤ) - policy.eventScanMaxLookbackBlocks - 1)) from rfl] at h
    refine ⟨hcond.1, hcond.2, ?_⟩
    rcases hcode : rpc (.getCode ctx.chainId rc
        ((latestBlock : ℤ) - policy.eventScanMaxLookbackBlocks - 1)) with e | (_ | code)
    · simp [hcode] at h
    · simp [hcode] at h
    · exact ⟨code, rfl⟩
  · simp at h

theorem fetchRoles_eval (rc : Address) {latestBlock : ℕ}
    (hblock : rpc (.getBlockNumber ctx.chainId) = .ok latestBlock) (p : IntentRequestBindingPolicy)
    (owner firstFactory : Address) (matched : List Address) :
    (fetchRoles ctx rc p owner firstFactory matched).eval rpc =
      if (predatesWindow ctx rc p latestBlock).eval rpc then
        .ok (.onChain (.tooOld firstFactory owner none))
      else (scanRoles ctx rc p owner firstFactory matched latestBlock).eval rpc := by
  rw [fetchRoles, Program.eval_bind_def,
    show Program.eval rpc (ask (.getBlockNumber ctx.chainId)) = .ok latestBlock from hblock]
  dsimp only
  rw [Program.eval_bind_def]
  split <;> rfl

theorem fetchRoles_eval_error {e : RpcError} (hblock : rpc (.getBlockNumber ctx.chainId) = .error e)
    (p : IntentRequestBindingPolicy) (owner firstFactory : Address) (matched : List Address) :
    (fetchRoles ctx rc p owner firstFactory matched).eval rpc =
      .error (upstream "getBlockNumber failed upstream") := by
  rw [fetchRoles, Program.eval_bind_def,
    show Program.eval rpc (ask (.getBlockNumber ctx.chainId)) = .error e from hblock]
  rfl

/-- The probe found code before the window, where the scan would have run. -/
def Probed (rpc : (op : Op) → op.Answer) (ctx : SigningContext) (id : ℕ) (rc : Address)
    (policy : IntentRequestBindingPolicy) (r r' : Except SigningError FetchedA1) : Prop :=
  ∃ owner slots firstFactory rest latestBlock,
    rpc (.ownerAndProvenance ctx.chainId rc (factoryChecks policy id)) =
      .ok (.success owner, slots) ∧
    (∀ f ∈ firstFactory :: rest, ∃ s ∈ (factoryChecks policy id).zip slots.toList,
      s.2 = .success true ∧ s.1.factory = f) ∧
    rpc (.getBlockNumber ctx.chainId) = .ok latestBlock ∧
    (predatesWindow ctx rc policy latestBlock).eval rpc = true ∧
    r = .ok (.onChain (.tooOld firstFactory owner none)) ∧
    r' = (scanRoles ctx rc policy owner firstFactory (firstFactory :: rest) latestBlock).eval rpc

theorem fetchA1OnChain_unprobed (id : ℕ) (hagree : ∀ op, AsksNoCode op → rpc op = rpc' op)
    (hunprobed : ∀ latestBlock,
      (predatesWindow ctx rc (policy.disposed disposition') latestBlock).eval rpc' = false) :
    let r := (fetchA1OnChain ctx id rc (policy.disposed disposition)).eval rpc
    let r' := (fetchA1OnChain ctx id rc (policy.disposed disposition')).eval rpc'
    r = r' ∨ Probed rpc ctx id rc (policy.disposed disposition) r r' := by
  dsimp only
  unfold fetchA1OnChain
  dsimp only
  rw [Program.eval_bind_def, Program.eval_bind_def,
    show factoryChecks (policy.disposed disposition) id = factoryChecks policy id from rfl,
    show factoryChecks (policy.disposed disposition') id = factoryChecks policy id from rfl,
    show Program.eval rpc' (ask (.ownerAndProvenance ctx.chainId rc (factoryChecks policy id))) =
      rpc (.ownerAndProvenance ctx.chainId rc (factoryChecks policy id))
      from (hagree (.ownerAndProvenance ctx.chainId rc (factoryChecks policy id)) trivial).symm,
    show Program.eval rpc (ask (.ownerAndProvenance ctx.chainId rc (factoryChecks policy id))) =
      rpc (.ownerAndProvenance ctx.chainId rc (factoryChecks policy id)) from rfl]
  match hread : rpc (.ownerAndProvenance ctx.chainId rc (factoryChecks policy id)) with
  | .error _ => exact .inl rfl
  | .ok (.failure e, slots) =>
    refine .inl ?_
    dsimp only
    split <;> rfl
  | .ok (.success owner, slots) =>
    dsimp only
    rw [show isAcceptedRetargetter owner id (policy.disposed disposition) =
        isAcceptedRetargetter owner id policy from rfl,
      show isAcceptedRetargetter owner id (policy.disposed disposition') =
        isAcceptedRetargetter owner id policy from rfl]
    split
    · exact .inl ((fetchRetargetterOperation_performs owner).mono hagree).eval_congr
    · split
      · refine .inl ?_
        split <;> rfl
      · rename_i firstFactory rest hentries
        have hhit : ∀ f ∈ firstFactory :: rest, ∃ s ∈ (factoryChecks policy id).zip slots.toList,
            s.2 = .success true ∧ s.1.factory = f := by
          intro f hf
          rw [← hentries, List.mem_map] at hf
          obtain ⟨entry, hentry, rfl⟩ := hf
          exact classifyFactories_entries hentry
        cases hblock : rpc (.getBlockNumber ctx.chainId) with
        | error e' =>
          have hblock' := (hagree (.getBlockNumber ctx.chainId) trivial).symm.trans hblock
          exact .inl ((fetchRoles_eval_error hblock _ _ _ _).trans
            (fetchRoles_eval_error hblock' _ _ _ _).symm)
        | ok latestBlock =>
          have hblock' := (hagree (.getBlockNumber ctx.chainId) trivial).symm.trans hblock
          have hscan : (scanRoles ctx rc (policy.disposed disposition) owner firstFactory
              (firstFactory :: rest) latestBlock).eval rpc =
              (scanRoles ctx rc (policy.disposed disposition') owner firstFactory
                (firstFactory :: rest) latestBlock).eval rpc' :=
            ((scanRoles_performs _ _ _ _).mono fun op hop =>
              hagree op (asksNoCode_of_isScanRead hop)).eval_congr
          have hr := fetchRoles_eval rc hblock (policy.disposed disposition) owner firstFactory
            (firstFactory :: rest)
          have hr' := fetchRoles_eval rc hblock' (policy.disposed disposition') owner firstFactory
            (firstFactory :: rest)
          rw [hunprobed, if_neg (by simp), ← hscan] at hr'
          cases hprobe : (predatesWindow ctx rc (policy.disposed disposition)
              latestBlock).eval rpc with
          | false =>
            rw [hprobe, if_neg (by simp)] at hr
            exact .inl (hr.trans hr'.symm)
          | true =>
            rw [hprobe, if_pos rfl] at hr
            exact .inr ⟨owner, slots, firstFactory, rest, latestBlock, hread, hhit, hblock, hprobe,
              hr, hr'⟩

end Probe

end Guardian
