import Guardian.Defaults.IntentRequestBindingSound

/-!
# What a finished fetch has seen

A fetch reads the head once and then logs below it, while the chain grows. Blocks are
never rewritten, so the logs it reads are those of the final chain up to that head,
and the role map of its scan is that of the chain as it then was.
-/

namespace Guardian
open Effect Text

def Chain.upTo (chain : Chain) (head : ℕ) : Chain :=
  { chain with
    head := head
    logs := chain.logs.filter fun l => decide (l.blockNumber ≤ head)
    logs_le_head := fun l hl => by simpa using (List.mem_filter.mp hl).2
    logs_positioned := fun l hl l' hl' => chain.logs_positioned l (List.mem_filter.mp hl).1 l'
      (List.mem_filter.mp hl').1 }

@[simp] theorem mem_logs_upTo {chain : Chain} {head : ℕ} {l : Log} :
    l ∈ (chain.upTo head).logs ↔ l ∈ chain.logs ∧ l.blockNumber ≤ head := by
  simp [Chain.upTo]

theorem Chain.DeployedFirst.upTo {chain : Chain} {rc : Address} {factories : List Address}
    (h : chain.DeployedFirst rc factories) (head : ℕ) :
    (chain.upTo head).DeployedFirst rc factories :=
  fun f hf d hd hdep l hl => h f hf d (mem_logs_upTo.mp hd).1 hdep l (mem_logs_upTo.mp hl).1

/-- Logs up to a head that was read before are final. -/
def Settles (final : ℕ → Chain) (g : List SigningEvent) : SigningEvent → Prop
  | ⟨.getLogs c addresses fromBlock toBlock, answer⟩ =>
    ∀ head : ℕ, ⟨.getBlockNumber c, .ok head⟩ ∈ g → toBlock ≤ head → ∀ logs, answer = .ok logs →
      ∀ l, l ∈ logs ↔ l ∈ (final c).logs ∧ Chain.Matches addresses fromBlock toBlock l
  | _ => True

/-- The protocol of a client whose chains grow; its ghost state is the history. -/
def watching (final : ℕ → Chain) : Protocol env (List SigningEvent) :=
  ⟨fun _ _ => True, Settles final, fun g e => g ++ [e]⟩

section Settles
variable {final : ℕ → Chain} {g g' tr : List SigningEvent}

theorem Settles.subset {e : SigningEvent} (h : Settles final g' e) (hsub : g ⊆ g') :
    Settles final g e := by
  obtain ⟨op, answer⟩ := e
  cases op with
  | getLogs => exact fun head hhead => h head (hsub hhead)
  | _ => trivial

theorem watching_follows_subset (h : (watching final).Follows g' tr) (hsub : g ⊆ g') :
    (watching final).Follows g tr := by
  induction tr generalizing g g' with
  | nil => trivial
  | cons e tr ih =>
    exact ⟨h.1.subset hsub, ih h.2 (List.append_subset.mpr
      ⟨List.subset_append_of_subset_left _ hsub, List.subset_append_right _ _⟩)⟩

theorem watching_state : (watching final).state g tr = g ++ tr := by
  induction tr generalizing g with
  | nil => exact (List.append_nil g).symm
  | cons e tr ih => exact (ih (g := g ++ [e])).trans (List.append_assoc g [e] tr)

theorem watching_follows_mem (h : (watching final).Follows g tr) :
    ∀ e ∈ tr, Settles final g e := by
  induction tr generalizing g with
  | nil => simp
  | cons e tr ih =>
    intro d hd
    rcases List.mem_cons.mp hd with rfl | hd
    · exact h.1
    · exact (ih h.2 d hd).subset (List.subset_append_left _ _)

theorem watching_follows_after {e : SigningEvent} {probe scan : List SigningEvent}
    (h : (watching final).Follows g (e :: (probe ++ scan))) :
    (watching final).Follows [e] scan := by
  refine watching_follows_subset ((Protocol.follows_append _).mp h.2).2 ?_
  rw [watching_state]
  exact List.cons_subset.mpr ⟨by simp [watching], List.nil_subset _⟩

theorem scan_settled {args : ScanArgs} {scan : List SigningEvent} {outcome : RoleScanOutcome}
    (hblock : ⟨.getBlockNumber args.chain, .ok args.latestBlock⟩ ∈ g)
    (hscan : Executes (scanRoleHolders args) scan (.ok outcome))
    (hf : (watching final).Follows g scan) :
    ScanSound ((final args.chain).upTo args.latestBlock) args outcome := by
  have hensures : (scanRoleHolders args).Ensures
      (Answers fun _ => (final args.chain).upTo args.latestBlock) _ :=
    scanRoleHolders_ensures rfl rfl
  refine hensures.executes hscan (fun e he => ?_) outcome rfl
  have hread := scanRoleHolders_reads.runs hscan e he
  have hsettles := watching_follows_mem hf e he
  obtain ⟨op, answer⟩ := e
  cases op with
  | getLogs c addresses fromBlock toBlock =>
    obtain ⟨rfl, hto⟩ := hread
    intro logs hlogs l
    rw [hsettles _ hblock hto logs hlogs l, mem_logs_upTo, Chain.Matches]
    constructor
    · rintro ⟨hl, hm⟩
      exact ⟨⟨hl, by omega⟩, hm⟩
    · rintro ⟨⟨hl, -⟩, hm⟩
      exact ⟨hl, hm⟩
  | signalAborted => trivial
  | dateNow => trivial
  | _ => exact hread.elim

end Settles

theorem classifyFactories_allFalse {slots : List (FactoryCheck × Slot Bool)}
    (hnone : (classifyFactories slots).1.entries.map Prod.snd = [])
    (hfailed : (classifyFactories slots).2 = []) : ∀ s ∈ slots, s.2 = .success false := by
  suffices hacc : ∀ acc : OrderedMap Address Address × List Address,
      (slots.foldl (fun acc s => classifySlot acc s.1 s.2) acc).1.entries = [] →
      (slots.foldl (fun acc s => classifySlot acc s.1 s.2) acc).2 = [] →
        acc.1.entries = [] ∧ acc.2 = [] ∧ ∀ s ∈ slots, s.2 = .success false from
    (hacc _ (List.map_eq_nil_iff.mp hnone) hfailed).2.2
  clear hnone hfailed
  induction slots with
  | nil => exact fun acc h₁ h₂ => ⟨h₁, h₂, by simp⟩
  | cons s slots ih =>
    intro acc h₁ h₂
    obtain ⟨hentries, hfailed, hslots⟩ := ih _ h₁ h₂
    obtain ⟨check, slot⟩ := s
    match slot with
    | .failure e => simp [classifySlot] at hfailed
    | .success true =>
      have hmem : (toLowerCase check.factory, check.factory) ∈
          (acc.1.set (toLowerCase check.factory) check.factory).entries :=
        OrderedMap.mem_entries_set.mpr (by simp)
      rw [show (acc.1.set (toLowerCase check.factory) check.factory).entries = [] from hentries]
        at hmem
      cases hmem
    | .success false => exact ⟨hentries, hfailed, List.forall_mem_cons.mpr ⟨rfl, hslots⟩⟩

section Stages
variable {ctx : SigningContext} {id : ℕ} {rc : Address} {policy : IntentRequestBindingPolicy}
  {tr : List SigningEvent} {data : A1OnChainData}

theorem executes_fetch
    (h : Executes (fetchA1OnChain ctx id rc policy) tr (.ok (.onChain data))) :
    ∃ slot slots tail, tr = ⟨.ownerAndProvenance ctx.chainId rc (factoryChecks policy id),
        .ok (slot, slots)⟩ :: tail ∧
      ((tail = [] ∧ data = .noFactory ∧
          ((∃ e, slot = .failure e ∧ isDeterministicContractCallFailure e ["owner"] = true) ∨
            ∀ s ∈ (factoryChecks policy id).zip slots.toList, s.2 = .success false)) ∨
        ∃ owner firstFactory rest, slot = .success owner ∧
          (∀ f ∈ firstFactory :: rest, ∃ s ∈ (factoryChecks policy id).zip slots.toList,
            s.2 = .success true ∧ s.1.factory = f) ∧
          Executes (fetchRoles ctx rc policy owner firstFactory (firstFactory :: rest)) tail
            (.ok (.onChain data))) := by
  obtain ⟨answer, tail, rfl, hrest⟩ := executes_perform.mp h
  clear h
  rw [Program.bind_done] at hrest
  match answer, hrest with
  | .error e, hrest => cases (runs_done.mp hrest).2
  | .ok (.failure e, slots), hrest =>
    refine ⟨_, slots, tail, rfl, .inl ?_⟩
    dsimp only at hrest
    split at hrest
    · rename_i hdeterministic
      obtain ⟨rfl, hdata⟩ := runs_done.mp hrest
      cases hdata
      exact ⟨rfl, rfl, .inl ⟨e, rfl, hdeterministic⟩⟩
    · cases (runs_done.mp hrest).2
  | .ok (.success owner, slots), hrest =>
    refine ⟨_, slots, tail, rfl, ?_⟩
    dsimp only at hrest
    split at hrest
    · obtain ⟨operation, _, _, hoperation⟩ := executes_perform.mp hrest
      cases operation with
      | error e => cases (runs_done.mp hoperation).2
      | ok operation => cases (runs_done.mp hoperation).2
    · split at hrest
      · rename_i hnone
        split at hrest
        · cases (runs_done.mp hrest).2
        · rename_i hfailed
          obtain ⟨rfl, hdata⟩ := runs_done.mp hrest
          cases hdata
          exact .inl ⟨rfl, rfl, .inr (classifyFactories_allFalse hnone (not_not.mp hfailed))⟩
      · rename_i firstFactory rest hentries
        refine .inr ⟨owner, firstFactory, rest, rfl, fun f hf => ?_, hrest⟩
        rw [← hentries, List.mem_map] at hf
        obtain ⟨entry, hentry, rfl⟩ := hf
        exact classifyFactories_entries hentry

theorem executes_fetchRoles {owner firstFactory : Address} {matched : List Address}
    (h : Executes (fetchRoles ctx rc policy owner firstFactory matched) tr (.ok (.onChain data)))
    (hdata : isProbeOnly data = false) :
    ∃ latestBlock probe scan outcome,
      tr = ⟨.getBlockNumber ctx.chainId, .ok latestBlock⟩ :: (probe ++ scan) ∧
        (∀ e ∈ probe, ∃ n, e.op = .getCode ctx.chainId rc n) ∧
        Executes (scanRoleHolders (scanArgs ctx rc policy matched latestBlock)) scan
          (.ok outcome) ∧
        data = match outcome with
          | .tooOld partialHolders => .tooOld firstFactory owner (some partialHolders)
          | .resolved holders _ deploymentFactory =>
            .resolved (deploymentFactory.getD firstFactory) owner holders := by
  obtain ⟨block, tail, rfl, hroles⟩ := executes_perform.mp h
  clear h
  rw [Program.bind_done] at hroles
  cases block with
  | error e => cases (runs_done.mp hroles).2
  | ok latestBlock =>
    obtain ⟨probe, rest, predates, rfl, hprobe, hrest⟩ := executes_bind.mp hroles
    have hcode := (predatesWindow_performs rc latestBlock).runs hprobe
    cases predates with
    | true =>
      obtain ⟨-, hdone⟩ := runs_done.mp hrest
      cases hdone
      cases hdata
    | false =>
      obtain ⟨scan, last, r, rfl, hscan, hlast⟩ := executes_bind.mp hrest
      match r, hlast with
      | .error e, hlast => cases (runs_done.mp hlast).2
      | .ok (.tooOld partialHolders), hlast =>
        obtain ⟨rfl, hdone⟩ := runs_done.mp hlast
        cases hdone
        exact ⟨latestBlock, probe, scan, _, by rw [List.append_nil], hcode, hscan, rfl⟩
      | .ok (.resolved holders block deploymentFactory), hlast =>
        obtain ⟨rfl, hdone⟩ := runs_done.mp hlast
        cases hdone
        exact ⟨latestBlock, probe, scan, _, by rw [List.append_nil], hcode, hscan, rfl⟩

theorem fetch_no_operation (h : Executes (fetchA1OnChain ctx id rc policy) tr (.ok (.onChain data)))
    (hdata : isProbeOnly data = false) :
    ∀ e ∈ tr, ∀ c retargetter, e.op ≠ .operation c retargetter := by
  obtain ⟨slot, slots, tail, rfl, ⟨rfl, -, -⟩ | ⟨owner, firstFactory, rest, -, -, hroles⟩⟩ :=
    executes_fetch h
  · simp
  · obtain ⟨latestBlock, probe, scan, outcome, rfl, hprobe, hscan, -⟩ :=
      executes_fetchRoles hroles hdata
    intro e he c retargetter hop
    simp only [List.mem_cons, List.mem_append] at he
    rcases he with rfl | rfl | he | he
    · cases hop
    · cases hop
    · obtain ⟨n, hcode⟩ := hprobe e he
      rw [hop] at hcode
      cases hcode
    · have hread := scanRoleHolders_performs.runs hscan e he
      rw [hop] at hread
      exact hread.elim

end Stages

def AnsweredTrue (ctx : SigningContext) (id : ℕ) (rc : Address)
    (policy : IntentRequestBindingPolicy) (tr : List SigningEvent) (owner factory : Address) :
    Prop :=
  ∃ slots, ⟨.ownerAndProvenance ctx.chainId rc (factoryChecks policy id),
      .ok (.success owner, slots)⟩ ∈ tr ∧
    ∃ s ∈ (factoryChecks policy id).zip slots.toList, s.2 = .success true ∧ s.1.factory = factory

/-- The contract has no readable owner, or every accepted factory denied it. -/
def NoneAnswered (ctx : SigningContext) (id : ℕ) (rc : Address)
    (policy : IntentRequestBindingPolicy) (tr : List SigningEvent) : Prop :=
  ∃ slot slots, ⟨.ownerAndProvenance ctx.chainId rc (factoryChecks policy id),
      .ok (slot, slots)⟩ ∈ tr ∧
    ((∃ e, slot = .failure e ∧ isDeterministicContractCallFailure e ["owner"] = true) ∨
      ∀ s ∈ (factoryChecks policy id).zip slots.toList, s.2 = .success false)

def IsRoleMap (chain : Chain) (rc : Address) (lo : ℤ) (holders : RoleMap) : Prop :=
  ∀ u r, holders.get? u = some r ↔ r ≠ 0 ∧ chain.LatestRoles rc lo u r

def FetchSound (final : ℕ → Chain) (ctx : SigningContext) (id : ℕ) (rc : Address)
    (policy : IntentRequestBindingPolicy) (tr : List SigningEvent) : A1OnChainData → Prop
  | .noFactory => NoneAnswered ctx id rc policy tr
  | .tooOld factory owner partialHolders => AnsweredTrue ctx id rc policy tr owner factory ∧
      ∃ (holders : RoleMap) (head : ℕ), partialHolders = some holders ∧
        ⟨.getBlockNumber ctx.chainId, .ok head⟩ ∈ tr ∧
        (head : ℤ) > policy.eventScanMaxLookbackBlocks ∧
        IsRoleMap ((final ctx.chainId).upTo head) rc (head - policy.eventScanMaxLookbackBlocks)
          holders
  | .resolved factory owner holders => AnsweredTrue ctx id rc policy tr owner factory ∧
      ∃ head : ℕ, ⟨.getBlockNumber ctx.chainId, .ok head⟩ ∈ tr ∧
        IsRoleMap ((final ctx.chainId).upTo head) rc 0 holders

theorem fetch_sound {final : ℕ → Chain} {ctx : SigningContext} {id : ℕ} {rc : Address}
    {policy : IntentRequestBindingPolicy} {tr : List SigningEvent} {data : A1OnChainData}
    (h : Executes (fetchA1OnChain ctx id rc policy) tr (.ok (.onChain data)))
    (hdata : isProbeOnly data = false) (hf : (watching final).Follows [] tr)
    (hborn : (final ctx.chainId).DeployedFirst rc
      ((factoryChecks policy id).map FactoryCheck.factory)) :
    FetchSound final ctx id rc policy tr data := by
  obtain ⟨slot, slots, tail, rfl, ⟨rfl, rfl, hnone⟩ | ⟨owner, firstFactory, rest, rfl, hmatched,
    hroles⟩⟩ := executes_fetch h
  · exact ⟨slot, slots, .head _, hnone⟩
  · obtain ⟨latestBlock, probe, scan, outcome, rfl, -, hscan, rfl⟩ :=
      executes_fetchRoles hroles hdata
    have hsound := scan_settled (List.mem_singleton_self _) hscan (watching_follows_after hf.2)
    match outcome, hsound with
    | .tooOld partialHolders, ⟨hpos, hroles, _⟩ =>
      have hearliest : (scanArgs ctx rc policy (firstFactory :: rest) latestBlock).earliestAllowed =
          if (latestBlock : ℤ) > policy.eventScanMaxLookbackBlocks then
            latestBlock - policy.eventScanMaxLookbackBlocks else 0 := rfl
      split at hearliest
      · rename_i hlookback
        rw [hearliest] at hroles
        exact ⟨⟨slots, .head _, hmatched _ (.head _)⟩, partialHolders, latestBlock, rfl,
          .tail _ (.head _), hlookback, hroles⟩
      · omega
    | .resolved holders block deploymentFactory, ⟨lo, hroles, hfactory⟩ =>
      rcases hfactory with ⟨rfl, rfl, -⟩ | ⟨f, hfm, rfl, -, hdeployed⟩
      · exact ⟨⟨slots, .head _, hmatched _ (.head _)⟩, latestBlock, .tail _ (.head _), hroles⟩
      · obtain ⟨s, hs, htrue, rfl⟩ := hmatched f hfm
        have hborn' : ((final ctx.chainId).upTo latestBlock).DeployedFirst rc
            [s.1.factory] := by
          refine fun f hf => (hborn.upTo latestBlock) f (List.mem_map.mpr ⟨s.1, ?_, ?_⟩)
          · exact (List.of_mem_zip hs).1
          · exact (List.mem_singleton.mp hf).symm
        refine ⟨⟨slots, .head _, s, hs, htrue, rfl⟩, latestBlock, .tail _ (.head _),
          fun u r => (hroles u r).trans (and_congr_right fun _ => ?_)⟩
        exact latestRoles_of_deployed hdeployed hborn' u r

end Guardian
