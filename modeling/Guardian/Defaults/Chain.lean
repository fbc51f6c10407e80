import Guardian.Defaults.IntentRequestBinding

/-!
# Chain histories and honest clients

An abstract view of one chain at its head: the logs ever emitted, what each view
answers, and what the log history says about roles. Contracts are named by
lower-cased address. A client is honest for a chain when every read that does
not fail returns what the chain holds; failures stay possible at any read.
-/

namespace Guardian
open Effect Text

def Log.position (log : Log) : ℕ ×ₗ ℕ := toLex (log.blockNumber, log.logIndex)

structure Chain where
  head : ℕ
  logs : List Log
  owner : Address → Option Address
  provenance : FactoryCheck → Address → Option Bool
  operation : Address → Option RetargetterOperation
  code : Address → ℤ → Option String
  logs_le_head : ∀ l ∈ logs, l.blockNumber ≤ head
  logs_positioned : ∀ l ∈ logs, ∀ l' ∈ logs, l.position = l'.position → l = l'

def Log.updates (rc user : Address) (roles : ℕ) (log : Log) : Prop :=
  log.eventName = .rolesUpdated ∧ toLowerCase log.address = toLowerCase rc ∧
    log.user.map toLowerCase = some user ∧ log.roles = some roles

def Log.deploys (factory rc : Address) (log : Log) : Prop :=
  log.eventName ≠ .rolesUpdated ∧ toLowerCase log.address = toLowerCase factory ∧
    log.created.map toLowerCase = some (toLowerCase rc)

namespace Chain
variable (chain : Chain)

/-- The latest `RolesUpdated` for the user, among blocks from `lo` on. -/
def LatestRoles (rc : Address) (lo : ℤ) (user : Address) (roles : ℕ) : Prop :=
  ∃ l ∈ chain.logs, lo ≤ l.blockNumber ∧ l.updates rc user roles ∧
    ∀ l' ∈ chain.logs, ∀ r', lo ≤ l'.blockNumber → l'.updates rc user r' → l'.position ≤ l.position

def HoldsSince (rc : Address) (lo : ℤ) (mask : ℕ) (user : Address) : Prop :=
  ∃ roles, chain.LatestRoles rc lo user roles ∧ roles &&& mask ≠ 0

def Holds (rc : Address) (mask : ℕ) (user : Address) : Prop := chain.HoldsSince rc 0 mask user

def Deployed (factory rc : Address) (lo : ℤ) : Prop :=
  ∃ l ∈ chain.logs, lo ≤ l.blockNumber ∧ l.deploys factory rc

def DeployedFirst (rc : Address) (factories : List Address) : Prop :=
  ∀ f ∈ factories, ∀ d ∈ chain.logs, d.deploys f rc →
    ∀ l ∈ chain.logs, ∀ u r, l.updates rc u r → d.blockNumber ≤ l.blockNumber

def Matches (addresses : List Address) (fromBlock toBlock : ℤ) (l : Log) : Prop :=
  memLower l.address addresses = true ∧ fromBlock ≤ l.blockNumber ∧ (l.blockNumber : ℤ) ≤ toBlock

end Chain

def Answers (chains : ℕ → Chain) : SigningEvent → Prop
  | ⟨.ownerAndProvenance c rc checks, answer⟩ =>
    ∀ slot slots, answer = .ok (slot, slots) →
      (∀ a, slot = .success a → (chains c).owner (toLowerCase rc) = some a) ∧
        ∀ s ∈ checks.zip slots.toList, ∀ b, s.2 = .success b →
          (chains c).provenance s.1 (toLowerCase rc) = some b
  | ⟨.operation c r, answer⟩ =>
    ∀ op, answer = .ok op → (chains c).operation (toLowerCase r) = some op
  | ⟨.getBlockNumber c, answer⟩ => ∀ n, answer = .ok n → n = (chains c).head
  | ⟨.getCode c a n, answer⟩ =>
    ∀ code, answer = .ok code → code = (chains c).code (toLowerCase a) n
  | ⟨.getLogs c addresses fromBlock toBlock, answer⟩ =>
    ∀ logs, answer = .ok logs →
      ∀ l, l ∈ logs ↔ l ∈ (chains c).logs ∧ Chain.Matches addresses fromBlock toBlock l
  | _ => True

def revertError (functionName : String) : RpcError :=
  ⟨true, true, functionName, [.contractFunctionReverted true true]⟩

def slotOf {α : Type} (functionName : String) : Option α → Slot α
  | some a => .success a
  | none => .failure (revertError functionName)

def serve (chains : ℕ → Chain) : (op : Op) → op.Answer
  | .cacheGet _ => .ok none
  | .cacheSet .. => .ok ()
  | .ownerAndProvenance c rc checks =>
    .ok (slotOf "owner" ((chains c).owner (toLowerCase rc)),
      ⟨checks.map fun check =>
        slotOf check.functionName ((chains c).provenance check (toLowerCase rc)), by simp⟩)
  | .operation c r =>
    match (chains c).operation (toLowerCase r) with
    | some operation => .ok operation
    | none => .error (revertError "operation")
  | .getBlockNumber c => .ok (chains c).head
  | .getCode c a n => .ok ((chains c).code (toLowerCase a) n)
  | .getLogs c addresses fromBlock toBlock =>
    .ok ((chains c).logs.filter fun l => memLower l.address addresses &&
      decide (fromBlock ≤ l.blockNumber ∧ (l.blockNumber : ℤ) ≤ toBlock))
  | .signalAborted => false
  | .dateNow => (0 : ℤ)
  | .fundReads .. => .error (revertError "owner")
  | .isPositionManager _ calls => .ok (List.Vector.replicate calls.length (.success false))
  | .positionManagerReads .. => .error (revertError "owner")
  | .nonceReads .. => .error (revertError "validatorNonceFloor")
  | .domainCacheGet _ => .ok none
  | .domainCacheSet .. => .ok ()
  | .eip712Domain .. => .error (revertError "eip712Domain")
  | .signTypedData _ => .error (.internalError "no signer")

theorem serve_answers (chains : ℕ → Chain) (op : Op) : Answers chains ⟨op, serve chains op⟩ := by
  cases op with
  | ownerAndProvenance c rc checks =>
    intro slot slots h
    obtain ⟨rfl, rfl⟩ := Prod.mk.inj (Except.ok.inj h)
    have hslot : ∀ {α : Type} (name : String) (o : Option α) (a : α),
        slotOf name o = .success a → o = some a := by
      intro α name o a h
      cases o <;> simp_all [slotOf]
    refine ⟨fun a ha => hslot _ _ _ ha, fun s hs b hb => ?_⟩
    have hs' := List.mem_iff_getElem.mp hs
    obtain ⟨i, hi, rfl⟩ := hs'
    simp only [List.Vector.toList_mk, List.getElem_zip, List.getElem_map] at hb ⊢
    exact hslot _ _ _ hb
  | operation c r =>
    intro operation h
    simp only [serve] at h
    split at h
    · rename_i o ho
      rw [ho, Except.ok.inj h]
    · simp at h
  | getBlockNumber c => exact fun n h => (Except.ok.inj h).symm
  | getCode c a n => exact fun code h => (Except.ok.inj h).symm
  | getLogs c addresses fromBlock toBlock =>
    intro logs h l
    rw [← Except.ok.inj h]
    simp [Chain.Matches]
  | _ => trivial

theorem mem_holdersOf {m : RoleMap} {mask : ℕ} {u : Address} :
    u ∈ holdersOf m mask ↔ ∃ r, m.get? u = some r ∧ r &&& mask ≠ 0 := by
  simp only [holdersOf, List.mem_map, List.mem_filter, decide_eq_true_eq, OrderedMap.get?_eq_some]
  constructor
  · rintro ⟨e, ⟨he, hm⟩, rfl⟩
    exact ⟨e.2, he, hm⟩
  · rintro ⟨r, he, hm⟩
    exact ⟨(u, r), ⟨he, hm⟩, rfl⟩

theorem write?_eq_some {l : Log} {w : Write (ℕ ×ₗ ℕ) Address ℕ} :
    l.write? = some w ↔
      l.position = w.position ∧ l.user.map toLowerCase = some w.key ∧ l.roles = some w.value := by
  obtain ⟨p, k, v⟩ := w
  unfold Log.write? Log.position
  cases l.user <;> cases l.roles <;> simp

def RoleLogs (chain : Chain) (rc : Address) (lo : ℤ) (logs : List Log) : Prop :=
  ∀ l, l ∈ logs ↔ l ∈ chain.logs ∧ lo ≤ l.blockNumber ∧ l.eventName = .rolesUpdated ∧
    toLowerCase l.address = toLowerCase rc

theorem roleLogs_positioned {chain : Chain} {rc : Address} {lo : ℤ} {logs : List Log}
    (h : RoleLogs chain rc lo logs) : Write.Positioned (logs.filterMap Log.write?) := by
  intro u hu w hw _ hpos
  obtain ⟨l, hl, hlu⟩ := List.mem_filterMap.mp hu
  obtain ⟨l', hl', hlw⟩ := List.mem_filterMap.mp hw
  have hsame : l.position = l'.position := by
    rw [(write?_eq_some.mp hlu).1, (write?_eq_some.mp hlw).1, hpos]
  have hll := chain.logs_positioned l ((h l).mp hl).1 l' ((h l').mp hl').1 hsame
  rw [hll, hlw] at hlu
  exact (Option.some.inj hlu).symm

theorem updates_of_write {chain : Chain} {rc : Address} {lo : ℤ} {logs : List Log}
    (h : RoleLogs chain rc lo logs) {l : Log} (hl : l ∈ logs) {w : Write (ℕ ×ₗ ℕ) Address ℕ}
    (hw : l.write? = some w) : l.updates rc w.key w.value :=
  ⟨((h l).mp hl).2.2.1, ((h l).mp hl).2.2.2, (write?_eq_some.mp hw).2⟩

theorem write_of_updates {rc u : Address} {r : ℕ} {l : Log} (h : l.updates rc u r) :
    l.write? = some ⟨l.position, u, r⟩ :=
  write?_eq_some.mpr ⟨rfl, h.2.2⟩

theorem replayRoleState_get? {chain : Chain} {rc : Address} {lo : ℤ} {logs : List Log}
    (h : RoleLogs chain rc lo logs) {u : Address} {r : ℕ} :
    (replayRoleState logs).get? u = some r ↔ r ≠ 0 ∧ chain.LatestRoles rc lo u r := by
  rw [replayRoleState, OrderedMap.get?_filter, Option.filter_eq_some_iff, decide_eq_true_eq,
    and_comm, Write.get?_replay (roleLogs_positioned h)]
  refine and_congr_right fun _ => ?_
  constructor
  · rintro ⟨w, ⟨hw, hlatest⟩, rfl, rfl⟩
    obtain ⟨l, hl, hlw⟩ := List.mem_filterMap.mp hw
    refine ⟨l, ((h l).mp hl).1, ((h l).mp hl).2.1, updates_of_write h hl hlw, ?_⟩
    intro l' hl' r' hlo hup
    have hmem : l' ∈ logs := (h l').mpr ⟨hl', hlo, hup.1, hup.2.1⟩
    have hle := hlatest _ (List.mem_filterMap.mpr ⟨l', hmem, write_of_updates hup⟩) rfl
    rwa [← (write?_eq_some.mp hlw).1] at hle
  · rintro ⟨l, hl, hlo, hup, hlatest⟩
    have hmem : l ∈ logs := (h l).mpr ⟨hl, hlo, hup.1, hup.2.1⟩
    refine ⟨⟨l.position, u, r⟩, ⟨List.mem_filterMap.mpr ⟨l, hmem, write_of_updates hup⟩, ?_⟩,
      rfl, rfl⟩
    intro w hw hk
    obtain ⟨l', hl', hlw⟩ := List.mem_filterMap.mp hw
    have hup' := updates_of_write h hl' hlw
    rw [show w.key = u from hk] at hup'
    have hle := hlatest l' ((h l').mp hl').1 _ ((h l').mp hl').2.1 hup'
    rwa [(write?_eq_some.mp hlw).1] at hle

section Seen
variable {args : ScanArgs}

theorem get?_foldl_factories (fs : List Address) (m : OrderedMap Address Address) (a : Address) :
    (fs.foldl (fun m f => m.set (toLowerCase f) f) m).get? a =
      ((fs.reverse.find? fun f => decide (toLowerCase f = a)).or (m.get? a)) := by
  have h := OrderedMap.get?_foldl_set (fs.map fun f => (toLowerCase f, f)) m a
  rw [List.foldl_map] at h
  rw [h, ← List.map_reverse, List.find?_map, Option.map_map]
  have hid : (Prod.snd ∘ fun f : Address => (toLowerCase f, f)) = id := rfl
  rw [hid, Option.map_id_fun]
  rfl

theorem factoryByLower_some {a f : Address} (h : args.factoryByLower.get? a = some f) :
    f ∈ args.factories ∧ toLowerCase f = a := by
  rw [ScanArgs.factoryByLower, get?_foldl_factories, OrderedMap.get?_empty, Option.or_none] at h
  exact ⟨by simpa using List.mem_of_find?_eq_some h, by simpa using List.find?_some h⟩

theorem factoryByLower_none {a : Address} (h : args.factoryByLower.get? a = none) :
    ∀ f ∈ args.factories, toLowerCase f ≠ a := by
  rw [ScanArgs.factoryByLower, get?_foldl_factories, OrderedMap.get?_empty, Option.or_none] at h
  intro f hf
  simpa using List.find?_eq_none.mp h f (by simpa using hf)

/-- What the deployment marker says about the logs taken so far. -/
def Marked (args : ScanArgs) (seen : List Log) (block : Option ℕ) (factory : Option Address) :
    Prop :=
  (block = none ∧ factory = none ∧
      ∀ l ∈ seen, ∀ f ∈ args.factories, ¬ l.deploys f args.requestContract) ∨
    ∃ f ∈ args.factories, ∃ l ∈ seen,
      block = some l.blockNumber ∧ factory = some f ∧ l.deploys f args.requestContract

structure Seen (args : ScanArgs) (seen : List Log) (st : ScanState) : Prop where
  logs : ∀ l, l ∈ st.allLogs ↔ l ∈ seen ∧ l.eventName = .rolesUpdated ∧
    toLowerCase l.address = toLowerCase args.requestContract
  marked : Marked args seen st.foundDeploymentBlock st.deploymentFactory

theorem seen_start : Seen args [] .start :=
  ⟨by simp [ScanState.start], .inl ⟨rfl, rfl, by simp⟩⟩

theorem Marked.snoc {seen : List Log} {block : Option ℕ} {factory : Option Address} {l : Log}
    (h : Marked args seen block factory)
    (hl : ∀ f ∈ args.factories, ¬ l.deploys f args.requestContract) :
    Marked args (seen ++ [l]) block factory := by
  rcases h with ⟨hb, hf, hnone⟩ | ⟨f, hf, k, hk, hb, hdf, hdep⟩
  · refine .inl ⟨hb, hf, fun k hk => ?_⟩
    rcases List.mem_append.mp hk with hk | hk
    · exact hnone k hk
    · rw [List.mem_singleton.mp hk]
      exact hl
  · exact .inr ⟨f, hf, k, by simp [hk], hb, hdf, hdep⟩

theorem logs_snoc_other {seen logs : List Log} {l : Log}
    (h : ∀ k, k ∈ logs ↔ k ∈ seen ∧ k.eventName = .rolesUpdated ∧
      toLowerCase k.address = toLowerCase args.requestContract)
    (hl : ¬ (l.eventName = .rolesUpdated ∧
      toLowerCase l.address = toLowerCase args.requestContract)) :
    ∀ k, k ∈ logs ↔ k ∈ seen ++ [l] ∧ k.eventName = .rolesUpdated ∧
      toLowerCase k.address = toLowerCase args.requestContract := by
  intro k
  rw [h, List.mem_append, List.mem_singleton]
  constructor
  · exact fun hk => ⟨.inl hk.1, hk.2⟩
  · rintro ⟨hk | rfl, hk'⟩
    · exact ⟨hk, hk'⟩
    · exact absurd hk' hl

theorem Seen.takeRole {seen : List Log} {st : ScanState} (h : Seen args seen st) {l : Log}
    (hname : l.eventName = .rolesUpdated) : Seen args (seen ++ [l]) (takeLog args st l) := by
  have hnot : ∀ f ∈ args.factories, ¬ l.deploys f args.requestContract :=
    fun f _ hd => hd.1 hname
  rw [takeLog_role hname]
  by_cases haddr : toLowerCase l.address = toLowerCase args.requestContract
  · rw [if_pos haddr]
    refine ⟨fun k => ?_, h.marked.snoc hnot⟩
    simp only [List.mem_append, List.mem_singleton, h.logs]
    constructor
    · rintro (hk | rfl)
      · exact ⟨.inl hk.1, hk.2⟩
      · exact ⟨.inr rfl, hname, haddr⟩
    · rintro ⟨hk | rfl, hk'⟩
      · exact .inl ⟨hk, hk'⟩
      · exact .inr rfl
  · rw [if_neg haddr]
    exact ⟨logs_snoc_other h.logs fun hr => haddr hr.2, h.marked.snoc hnot⟩

theorem Seen.takeDeployment {seen : List Log} {st : ScanState} (h : Seen args seen st) {l : Log}
    (hname : l.eventName ≠ .rolesUpdated) : Seen args (seen ++ [l]) (takeLog args st l) := by
  have hrole : ¬ (l.eventName = .rolesUpdated ∧
      toLowerCase l.address = toLowerCase args.requestContract) := fun hr => hname hr.1
  rw [takeLog_deployment hname]
  cases hget : args.factoryByLower.get? (toLowerCase l.address) with
  | none =>
    have hnot : ∀ f ∈ args.factories, ¬ l.deploys f args.requestContract :=
      fun f hf hd => factoryByLower_none hget f hf hd.2.1.symm
    exact ⟨logs_snoc_other h.logs hrole, h.marked.snoc hnot⟩
  | some f =>
    obtain ⟨hf, hlower⟩ := factoryByLower_some hget
    by_cases hc : l.created.map toLowerCase = some (toLowerCase args.requestContract)
    · simp only [hc, if_true]
      exact ⟨logs_snoc_other h.logs hrole,
        .inr ⟨f, hf, l, by simp, rfl, rfl, hname, hlower.symm, hc⟩⟩
    · simp only [hc, if_false]
      exact ⟨logs_snoc_other h.logs hrole, h.marked.snoc fun _ _ hd => hc hd.2.2⟩

theorem Seen.takeLogs {seen : List Log} {st : ScanState} (h : Seen args seen st)
    (logs : List Log) : Seen args (seen ++ logs) (logs.foldl (takeLog args) st) := by
  induction logs generalizing seen st with
  | nil => simpa using h
  | cons l logs ih =>
    rw [List.foldl_cons, ← List.singleton_append, ← List.append_assoc]
    by_cases hname : l.eventName = .rolesUpdated
    · exact ih (h.takeRole hname)
    · exact ih (h.takeDeployment hname)

end Seen

section Walk
variable {chains : ℕ → Chain} (chain : Chain) {args : ScanArgs}

/-- The logs of the watched addresses from block `lo` up to the head. -/
def Covers (args : ScanArgs) (lo : ℤ) (seen : List Log) : Prop :=
  ∀ l, l ∈ seen ↔ l ∈ chain.logs ∧ lo ≤ l.blockNumber ∧
    memLower l.address (args.factories ++ [args.requestContract]) = true

variable {chain}

theorem Covers.extend {lo lo' hi : ℤ} {seen logs : List Log} (h : Covers chain args lo seen)
    (hhi : hi = lo - 1) (hle : lo' ≤ lo)
    (hlogs : ∀ l, l ∈ logs ↔ l ∈ chain.logs ∧
      Chain.Matches (args.factories ++ [args.requestContract]) lo' hi l) :
    Covers chain args lo' (seen ++ logs) := by
  intro l
  rw [List.mem_append, h, hlogs, Chain.Matches]
  constructor
  · rintro (⟨hl, hlo, hm⟩ | ⟨hl, hm, hlo, -⟩)
    · exact ⟨hl, by omega, hm⟩
    · exact ⟨hl, hlo, hm⟩
  · rintro ⟨hl, hlo, hm⟩
    by_cases hb : lo ≤ l.blockNumber
    · exact .inl ⟨hl, hb, hm⟩
    · exact .inr ⟨hl, hm, hlo, by omega⟩

theorem covers_start (h : args.latestBlock = chain.head) :
    Covers chain args (args.latestBlock + 1) [] := by
  intro l
  simp only [List.not_mem_nil, false_iff, not_and]
  intro hl hlo
  have := chain.logs_le_head l hl
  omega

def Walked (chain : Chain) (args : ScanArgs) (st : ScanState) : Prop :=
  ∃ lo seen, Seen args seen st ∧ Covers chain args lo seen ∧ args.earliestAllowed ≤ lo ∧
    (st.foundDeploymentBlock = none → lo = args.earliestAllowed)

theorem walked_of_covers {lo : ℤ} {st : ScanState} {seen : List Log} (hseen : Seen args seen st)
    (hcovers : Covers chain args lo seen) (hlo : args.earliestAllowed ≤ lo)
    (hdone : st.foundDeploymentBlock = none → lo ≤ args.earliestAllowed) :
    Walked chain args st :=
  ⟨lo, seen, hseen, hcovers, hlo, fun h => le_antisymm (hdone h) hlo⟩

theorem scanLoop_ensures (hchain : chains args.chain = chain) (hrange : 0 < args.blockRange)
    (h0 : 0 ≤ args.earliestAllowed) (startedAt : ℤ) (fuel : ℕ) (lo toBlock : ℤ) (firstChunk : Bool)
    {st : ScanState}
    {seen : List Log} (hto : toBlock = lo - 1)
    (hseen : Seen args seen st) (hcovers : Covers chain args lo seen)
    (hlo : args.earliestAllowed ≤ lo) (hfuel : lo - args.earliestAllowed ≤ fuel) :
    (scanLoop args startedAt fuel toBlock firstChunk st).Ensures (Answers chains)
      (fun r => ∀ st', r = .ok st' → Walked chain args st') := by
  induction fuel generalizing lo toBlock firstChunk st seen with
  | zero =>
    refine .pure fun st' hst => ?_
    obtain rfl := Except.ok.inj hst
    exact walked_of_covers hseen hcovers hlo fun _ => by push_cast at hfuel; omega
  | succ fuel ih =>
    rw [scanLoop]
    split
    · rename_i hcond
      refine .bind (Program.ensures_true _) fun interrupted _ => ?_
      cases interrupted with
      | some e => exact .pure fun st' hst => by simp at hst
      | none =>
        refine .call_bind fun answer hanswer => ?_
        cases answer with
        | error e => exact .pure fun st' hst => by simp at hst
        | ok logs =>
          obtain ⟨hge, hle⟩ := fromBlock_bounds hrange hcond.1
          have hseen' := hseen.takeLogs logs
          have hcovers' := hcovers.extend hto (by omega) (hchain ▸ hanswer logs rfl)
          dsimp only
          split
          · rename_i hlast
            refine .pure fun st' hst => ?_
            obtain rfl := Except.ok.inj hst
            exact walked_of_covers hseen' hcovers' hge fun _ => by omega
          · exact ih (args.fromBlock toBlock) _ false rfl hseen' hcovers' hge
              (by push_cast at hfuel; omega)
    · rename_i hcond
      refine .pure fun st' hst => ?_
      obtain rfl := Except.ok.inj hst
      refine walked_of_covers hseen hcovers hlo fun hnone => ?_
      have : ¬ toBlock ≥ args.earliestAllowed := fun h => hcond ⟨h, hnone⟩
      omega

def ScanSound (chain : Chain) (args : ScanArgs) : RoleScanOutcome → Prop
  | .resolved holders _ factory => ∃ lo,
      (∀ u r, holders.get? u = some r ↔ r ≠ 0 ∧ chain.LatestRoles args.requestContract lo u r) ∧
        ((factory = none ∧ lo = 0 ∧ args.earliestAllowed = 0) ∨
          ∃ f ∈ args.factories, factory = some f ∧ args.earliestAllowed ≤ lo ∧
            chain.Deployed f args.requestContract lo)
  | .tooOld partialHolders => 0 < args.earliestAllowed ∧
      (∀ u r, partialHolders.get? u = some r ↔
        r ≠ 0 ∧ chain.LatestRoles args.requestContract args.earliestAllowed u r) ∧
      ∀ f ∈ args.factories, ¬ chain.Deployed f args.requestContract args.earliestAllowed

theorem earliestAllowed_nonneg (args : ScanArgs) : 0 ≤ args.earliestAllowed := by
  unfold ScanArgs.earliestAllowed
  split <;> omega

theorem seen_roleLogs {lo : ℤ} {st : ScanState} {seen : List Log} (hseen : Seen args seen st)
    (hcovers : Covers chain args lo seen) :
    RoleLogs chain args.requestContract lo st.allLogs := by
  intro l
  rw [hseen.logs, hcovers]
  constructor
  · rintro ⟨⟨hl, hlo, -⟩, hrole⟩
    exact ⟨hl, hlo, hrole⟩
  · rintro ⟨hl, hlo, hrole⟩
    exact ⟨⟨hl, hlo, memLower_iff.mpr ⟨args.requestContract, by simp, hrole.2.symm⟩⟩, hrole⟩

theorem not_deployed_of_seen {lo : ℤ} {seen : List Log} (hcovers : Covers chain args lo seen)
    (hnone : ∀ l ∈ seen, ∀ f ∈ args.factories, ¬ l.deploys f args.requestContract) :
    ∀ f ∈ args.factories, ¬ chain.Deployed f args.requestContract lo := by
  rintro f hf ⟨l, hl, hlo, hd⟩
  have hm : memLower l.address (args.factories ++ [args.requestContract]) = true :=
    memLower_iff.mpr ⟨f, by simp [hf], hd.2.1.symm⟩
  exact hnone l ((hcovers l).mpr ⟨hl, hlo, hm⟩) f hf hd

theorem scanOutcome_sound {st : ScanState} (h : Walked chain args st) :
    ScanSound chain args (scanOutcome args st) := by
  obtain ⟨lo, seen, hseen, hcovers, hge, hdone⟩ := h
  have h0 := earliestAllowed_nonneg args
  have hroles : ∀ u r, (replayRoleState st.allLogs).get? u = some r ↔
      r ≠ 0 ∧ chain.LatestRoles args.requestContract lo u r :=
    fun u r => replayRoleState_get? (seen_roleLogs hseen hcovers)
  rcases hseen.marked with ⟨hb, hf, hnone⟩ | ⟨f, hf, l, hl, hb, hdf, hdep⟩
  · have hlo : lo = args.earliestAllowed := hdone hb
    simp only [scanOutcome, hb]
    split
    · rename_i hpos
      exact ⟨hpos, hlo ▸ hroles, hlo ▸ not_deployed_of_seen hcovers hnone⟩
    · exact ⟨lo, hroles, .inl ⟨hf, by omega, by omega⟩⟩
  · simp only [scanOutcome, hb]
    have hmem := (hcovers l).mp hl
    exact ⟨lo, hroles, .inr ⟨f, hf, hdf, hge, l, hmem.1, hmem.2.1, hdep⟩⟩

theorem scanRoleHolders_walked (hchain : chains args.chain = chain)
    (hblock : args.latestBlock = chain.head) :
    (scanRoleHolders args).Ensures (Answers chains)
      (fun r => ∀ o, r = .ok o → ∃ st, Walked chain args st ∧ o = scanOutcome args st) := by
  unfold scanRoleHolders
  cases herror : scanArgsError args with
  | some e => exact .pure fun o ho => by simp at ho
  | none =>
    obtain ⟨hrange, hlookback, -⟩ := scanArgsError_none herror
    refine .call_bind fun startedAt _ => ?_
    have h0 := earliestAllowed_nonneg args
    have hstart : args.earliestAllowed ≤ (args.latestBlock : ℤ) + 1 := by
      unfold ScanArgs.earliestAllowed
      split <;> omega
    refine .bind (scanLoop_ensures hchain hrange h0 startedAt _ (args.latestBlock + 1) _ true
      (by omega) seen_start (covers_start hblock) hstart (by unfold scanFuel; push_cast; omega))
      fun r hr => ?_
    cases r with
    | error e => exact .pure fun o ho => by simp at ho
    | ok st =>
      refine .pure fun o ho => ?_
      obtain rfl := Except.ok.inj ho
      exact ⟨st, hr st rfl, rfl⟩

theorem scanRoleHolders_ensures (hchain : chains args.chain = chain)
    (hblock : args.latestBlock = chain.head) :
    (scanRoleHolders args).Ensures (Answers chains)
      (fun r => ∀ o, r = .ok o → ScanSound chain args o) := by
  refine (scanRoleHolders_walked hchain hblock).mono fun _ r hr o ho => ?_
  obtain ⟨st, hwalked, rfl⟩ := hr o ho
  exact scanOutcome_sound hwalked

end Walk
end Guardian
