import Guardian.Defaults.CacheContent
import Guardian.Defaults.InMemoryCache

/-!
# Overlapping scans over one cache

Calls of `runA1` share one in-memory cache while the chain grows. A write carries no
version, so a slow early scan can replace the result of a later one. When the calls
write in the order in which they read the chain, entries only get younger.
-/

namespace Guardian
open Effect Text

/-- When a call last read the chain's state, by the order of reads and by the head. -/
structure Stamp where
  tick : ℕ
  block : ℕ

structure Stamped where
  data : A1OnChainData
  read : Stamp

structure RaceState (ι : Type) where
  heads : ℕ → ℕ
  now : ℤ
  cache : InMemoryCache Stamped
  tick : ℕ
  read : ι → Stamp
  written : List (String × Stamped)

namespace RaceState
variable {ι : Type} [DecidableEq ι]

def start (heads : ℕ → ℕ) (now : ℤ) (defaultTtlMs : Option ℤ) (maxEntries : ℕ) : RaceState ι :=
  ⟨heads, now, ⟨defaultTtlMs.map fun t => t, maxEntries, .empty⟩, 1, fun _ => ⟨0, 0⟩, []⟩

def reads (s : RaceState ι) (i : ι) (c : ℕ) : RaceState ι :=
  { s with tick := s.tick + 1, read := Function.update s.read i ⟨s.tick, s.heads c⟩ }

@[simp] theorem reads_self (s : RaceState ι) (i : ι) (c : ℕ) :
    (s.reads i c).read i = ⟨s.tick, s.heads c⟩ := Function.update_self ..

theorem reads_other (s : RaceState ι) {i j : ι} (h : i ≠ j) (c : ℕ) :
    (s.reads i c).read j = s.read j := Function.update_of_ne (Ne.symm h) ..

def stores (s : RaceState ι) (i : ι) (k : String) (data : A1OnChainData)
    (cache : InMemoryCache Stamped) : RaceState ι :=
  { s with cache := cache, written := s.written ++ [(k, ⟨data, s.read i⟩)] }

def IsStamp (s : RaceState ι) (x : Stamp) : Prop :=
  (∃ i, s.read i = x) ∨ ∃ w ∈ s.written, w.2.read = x

end RaceState

section World
variable (ι : Type) [DecidableEq ι] (final : ℕ → Chain)

def raceWorld : World env ι (RaceState ι) where
  serves i s e s' := AnswersAt final s.heads e ∧
    match e with
    | ⟨.ownerAndProvenance c _ _, _⟩ => s' = s.reads i c
    | ⟨.getBlockNumber c, _⟩ => s' = s.reads i c
    | ⟨.cacheGet k, answer⟩ => answer = .ok ((s.cache.rawGet s.now k).1.map Stamped.data) ∧
        s' = { s with cache := (s.cache.rawGet s.now k).2 }
    | ⟨.cacheSet k data ttl, answer⟩ => ∃ sweptAt,
        match s.cache.set s.now sweptAt k ⟨data, s.read i⟩ (ttl.map fun t => .finite t) with
        | .ok cache => answer = .ok () ∧ s' = s.stores i k data cache
        | .error _ => answer = .error () ∧ s' = s
    | _ => s' = s
  evolves s s' := (∀ c, s.heads c ≤ s'.heads c) ∧
    s' = { s with heads := s'.heads, now := s'.now }

/-- A write comes after every read behind what was written under its key before. -/
def InReadOrder {ι : Type} (s : RaceState ι) (i : ι) (e : SigningEvent) : Prop :=
  ∀ k data ttl, e.op = .cacheSet k data ttl →
    ∀ w ∈ s.written, w.1 = k → w.2.read.tick ≤ (s.read i).tick

theorem inReadOrder_of_nil {ι : Type} {s : RaceState ι} {i : ι} {e : SigningEvent}
    (h : s.written = []) : InReadOrder s i e := by
  intro k data ttl _ w hw
  rw [h] at hw
  cases hw

def isWrite : Op → Bool
  | .cacheSet .. => true
  | _ => false

theorem inReadOrder_of_not_write {ι : Type} {s : RaceState ι} {i : ι} {e : SigningEvent}
    (h : isWrite e.op = false) : InReadOrder s i e := by
  intro k data ttl hop
  rw [hop] at h
  cases h

/-- The runs whose calls write in the order in which they read the chain. -/
def orderedWorld : World env ι (RaceState ι) where
  serves i s e s' := (raceWorld ι final).serves i s e s' ∧ InReadOrder s i e
  evolves := (raceWorld ι final).evolves

end World

def headAfter (head : Option ℕ) : SigningEvent → Option ℕ
  | ⟨.ownerAndProvenance .., _⟩ => none
  | ⟨.getBlockNumber _, .ok n⟩ => some n
  | ⟨.getBlockNumber _, .error _⟩ => none
  | _ => head

def lastHead (tr : List SigningEvent) : Option ℕ := tr.foldl headAfter none

structure RaceInv {ι : Type} [DecidableEq ι] (id : ℕ) (s : RaceState ι)
    (log : List (ι × SigningEvent)) : Prop where
  bounded : ∀ x, s.IsStamp x → x.tick < s.tick ∧ x.block ≤ s.heads id
  mono : ∀ x y, s.IsStamp x → s.IsStamp y → x.tick ≤ y.tick → x.block ≤ y.block
  holdsLast : s.cache.HoldsLast s.written
  ordered : s.written.Pairwise fun a b => a.1 = b.1 → a.2.read.block ≤ b.2.read.block
  current : ∀ i n, lastHead (Config.eventsOf i log) = some n → (s.read i).block = n
  traced : ∀ w ∈ s.written, ∃ i pre post ttl r,
    log = pre ++ (i, ⟨.cacheSet w.1 w.2.data ttl, r⟩) :: post ∧
      ∀ n, lastHead (Config.eventsOf i pre) = some n → w.2.read.block = n

section Inv
variable {ι : Type} [DecidableEq ι] {final : ℕ → Chain} {id : ℕ} {s s' : RaceState ι}
  {log : List (ι × SigningEvent)}

theorem raceInv_start (heads : ℕ → ℕ) (now : ℤ) (defaultTtlMs : Option ℤ) (maxEntries : ℕ) :
    RaceInv id (.start heads now defaultTtlMs maxEntries : RaceState ι) [] where
  bounded x hx := by
    rcases hx with ⟨i, rfl⟩ | ⟨w, hw, -⟩
    · exact ⟨Nat.one_pos, Nat.zero_le _⟩
    · cases hw
  mono x y hx hy _ := by
    rcases hx with ⟨i, rfl⟩ | ⟨w, hw, -⟩
    · exact Nat.zero_le _
    · cases hw
  holdsLast k entry h := by cases h
  ordered := .nil
  current i n h := by cases h
  traced w hw := by cases hw

theorem lastHead_snoc (tr : List SigningEvent) (e : SigningEvent) :
    lastHead (tr ++ [e]) = headAfter (lastHead tr) e := List.foldl_concat ..

theorem RaceInv.current_snoc (h : RaceInv id s log) {i : ι} {e : SigningEvent}
    (he : ∀ head, headAfter head e = head) (j : ι) (n : ℕ)
    (hn : lastHead (Config.eventsOf j (log ++ [(i, e)])) = some n) : (s.read j).block = n := by
  by_cases hij : i = j
  · subst j
    rw [Config.eventsOf_snoc_self, lastHead_snoc, he] at hn
    exact h.current i n hn
  · rw [Config.eventsOf_snoc_other hij] at hn
    exact h.current j n hn

theorem RaceInv.traced_snoc (h : RaceInv id s log) (x : ι × SigningEvent) :
    ∀ w ∈ s.written, ∃ i pre post ttl r,
      log ++ [x] = pre ++ (i, ⟨.cacheSet w.1 w.2.data ttl, r⟩) :: post ∧
        ∀ n, lastHead (Config.eventsOf i pre) = some n → w.2.read.block = n := by
  intro w hw
  obtain ⟨i, pre, post, ttl, r, rfl, hblock⟩ := h.traced w hw
  exact ⟨i, pre, post ++ [x], ttl, r, by simp, hblock⟩

theorem RaceInv.quiet (h : RaceInv id s log) {i : ι} {e : SigningEvent}
    (he : ∀ head, headAfter head e = head) : RaceInv id s (log ++ [(i, e)]) :=
  ⟨h.bounded, h.mono, h.holdsLast, h.ordered, h.current_snoc he, h.traced_snoc _⟩

theorem isStamp_reads {i : ι} {c : ℕ} {x : Stamp} (hx : (s.reads i c).IsStamp x) :
    s.IsStamp x ∨ x = ⟨s.tick, s.heads c⟩ := by
  rcases hx with ⟨j, rfl⟩ | hw
  · by_cases hij : j = i
    · subst j
      exact .inr (s.reads_self i c)
    · exact .inl (.inl ⟨j, (s.reads_other (Ne.symm hij) c).symm⟩)
  · exact .inl (.inr hw)

theorem RaceInv.reads (h : RaceInv id s log) {i : ι} {e : SigningEvent}
    (he : ∀ head n, headAfter head e = some n → s.heads id = n) :
    RaceInv id (s.reads i id) (log ++ [(i, e)]) where
  bounded x hx := by
    have htick : (s.reads i id).tick = s.tick + 1 := rfl
    rcases isStamp_reads hx with hx | rfl
    · have hb := h.bounded x hx
      exact ⟨by omega, hb.2⟩
    · exact ⟨by rw [htick]; exact Nat.lt_succ_self _, le_rfl⟩
  mono x y hx hy hxy := by
    rcases isStamp_reads hx with hx | rfl
    · rcases isStamp_reads hy with hy | rfl
      · exact h.mono x y hx hy hxy
      · exact (h.bounded x hx).2
    · rcases isStamp_reads hy with hy | rfl
      · have hb := (h.bounded y hy).1
        dsimp only at hxy
        omega
      · exact le_rfl
  holdsLast := h.holdsLast
  ordered := h.ordered
  current j n hn := by
    by_cases hij : i = j
    · subst j
      rw [Config.eventsOf_snoc_self, lastHead_snoc] at hn
      rw [RaceState.reads_self]
      exact he _ n hn
    · rw [Config.eventsOf_snoc_other hij] at hn
      rw [s.reads_other hij]
      exact h.current j n hn
  traced := h.traced_snoc _

omit [DecidableEq ι] in
theorem isStamp_stores {i : ι} {k : String} {data : A1OnChainData} {cache : InMemoryCache Stamped}
    {x : Stamp} (hx : (s.stores i k data cache).IsStamp x) : s.IsStamp x := by
  rcases hx with ⟨j, rfl⟩ | ⟨w, hw, rfl⟩
  · exact .inl ⟨j, rfl⟩
  · rcases List.mem_append.mp hw with hw | hw
    · exact .inr ⟨w, hw, rfl⟩
    · rw [List.mem_singleton.mp hw]
      exact .inl ⟨i, rfl⟩

theorem RaceInv.stores (h : RaceInv id s log) {i : ι} {k : String} {data : A1OnChainData}
    {ttl : Option ℤ} {r : Except Unit Unit} {sweptAt : ℚ} {cache : InMemoryCache Stamped}
    (hset : s.cache.set s.now sweptAt k ⟨data, s.read i⟩ (ttl.map fun t => .finite t) = .ok cache)
    (horder : ∀ w ∈ s.written, w.1 = k → w.2.read.tick ≤ (s.read i).tick) :
    RaceInv id (s.stores i k data cache) (log ++ [(i, ⟨.cacheSet k data ttl, r⟩)]) where
  bounded x hx := h.bounded x (isStamp_stores hx)
  mono x y hx hy := h.mono x y (isStamp_stores hx) (isStamp_stores hy)
  holdsLast := h.holdsLast.set hset
  ordered := by
    refine List.pairwise_append.mpr ⟨h.ordered, List.pairwise_singleton _ _, ?_⟩
    intro a ha b hb hkey
    obtain rfl := List.mem_singleton.mp hb
    exact h.mono _ _ (.inr ⟨a, ha, rfl⟩) (.inl ⟨i, rfl⟩) (horder a ha hkey)
  current := h.current_snoc fun _ => rfl
  traced w hw := by
    rcases List.mem_append.mp hw with hw | hw
    · exact h.traced_snoc _ w hw
    · obtain rfl := List.mem_singleton.mp hw
      exact ⟨i, log, [], ttl, r, rfl, h.current i⟩

def ReadsChain (id : ℕ) : Op → Prop
  | .ownerAndProvenance c _ _ => c = id
  | .getBlockNumber c => c = id
  | _ => True

theorem RaceInv.serve (h : RaceInv id s log) {i : ι} {e : SigningEvent}
    (hchain : ReadsChain id e.op) (hserves : (orderedWorld ι final).serves i s e s') :
    RaceInv id s' (log ++ [(i, e)]) := by
  obtain ⟨⟨hanswers, hserves⟩, horder⟩ := hserves
  obtain ⟨op, answer⟩ := e
  cases op with
  | ownerAndProvenance c rc checks =>
    obtain rfl : c = id := hchain
    rw [show s' = s.reads i c from hserves]
    exact h.reads fun head n hn => by cases hn
  | getBlockNumber c =>
    obtain rfl : c = id := hchain
    rw [show s' = s.reads i c from hserves]
    refine h.reads fun head n hn => ?_
    cases answer with
    | error e => cases hn
    | ok m =>
      obtain rfl := Option.some.inj hn
      exact (hanswers m rfl).symm
  | cacheGet k =>
    obtain ⟨-, rfl⟩ := hserves
    have hquiet := h.quiet (i := i) (e := ⟨.cacheGet k, answer⟩) fun _ => rfl
    exact ⟨hquiet.bounded, hquiet.mono, h.holdsLast.rawGet s.now k, hquiet.ordered,
      hquiet.current, hquiet.traced⟩
  | cacheSet k data ttl =>
    obtain ⟨sweptAt, hset⟩ := hserves
    cases hcache : s.cache.set s.now sweptAt k ⟨data, s.read i⟩ (ttl.map fun t => .finite t) with
    | ok cache =>
      rw [hcache] at hset
      obtain ⟨-, rfl⟩ := hset
      exact h.stores hcache (horder k data ttl rfl)
    | error e =>
      rw [hcache] at hset
      obtain ⟨-, rfl⟩ := hset
      exact h.quiet fun _ => rfl
  | _ =>
    obtain rfl : s' = s := hserves
    exact h.quiet fun _ => rfl

theorem RaceInv.evolve (h : RaceInv id s log) (hevolves : (orderedWorld ι final).evolves s s') :
    RaceInv id s' log := by
  obtain ⟨hheads, hs'⟩ := hevolves
  have hgrow := hheads id
  rw [hs'] at hgrow ⊢
  exact ⟨fun x hx => ⟨(h.bounded x hx).1, (h.bounded x hx).2.trans hgrow⟩, h.mono, h.holdsLast,
    h.ordered, h.current, h.traced⟩

theorem written_step {α : Type} {c c' : Config env ι (RaceState ι) α}
    (h : Config.Step (orderedWorld ι final) c c') : c.world.written <+: c'.world.written := by
  cases h with
  | @serve i op next r s' issued served =>
    obtain ⟨⟨-, hserves⟩, -⟩ := served
    cases op with
    | cacheGet k =>
      obtain ⟨-, rfl⟩ := hserves
      exact List.prefix_rfl
    | cacheSet k data ttl =>
      obtain ⟨sweptAt, hset⟩ := hserves
      cases hcache : c.world.cache.set c.world.now sweptAt k ⟨data, c.world.read i⟩
          (ttl.map fun t => .finite t) with
      | ok cache =>
        rw [hcache] at hset
        obtain ⟨-, rfl⟩ := hset
        exact List.prefix_append ..
      | error e =>
        rw [hcache] at hset
        obtain ⟨-, rfl⟩ := hset
        exact List.prefix_rfl
    | ownerAndProvenance => exact hserves ▸ List.prefix_rfl
    | getBlockNumber => exact hserves ▸ List.prefix_rfl
    | _ => exact hserves ▸ List.prefix_rfl
  | evolve moved =>
    exact moved.2 ▸ List.prefix_rfl

theorem written_run {α : Type} {c c' : Config env ι (RaceState ι) α}
    (h : Relation.ReflTransGen (Config.Step (orderedWorld ι final)) c c') :
    c.world.written <+: c'.world.written := by
  induction h with
  | refl => exact List.prefix_rfl
  | tail _ hstep ih => exact ih.trans (written_step hstep)

theorem block_le_last {written : List (String × Stamped)}
    (h : written.Pairwise fun a b => a.1 = b.1 → a.2.read.block ≤ b.2.read.block)
    {w : String × Stamped} (hw : w ∈ written) {hit : Stamped}
    (hlast : InMemoryCache.lastWritten written w.1 = some hit) :
    w.2.read.block ≤ hit.read.block := by
  obtain ⟨before, after, rfl, hafter⟩ := InMemoryCache.lastWritten_split hlast
  rcases List.mem_append.mp hw with hbefore | hrest
  · exact (List.pairwise_append.mp h).2.2 w hbefore _ (.head _) rfl
  · rcases List.mem_cons.mp hrest with heq | hin
    · rw [heq]
    · exact absurd rfl (hafter w hin)

end Inv

theorem lastHead_scan {head : Option ℕ} {tr : List SigningEvent}
    (h : ∀ e ∈ tr, ∀ head, headAfter head e = head) : tr.foldl headAfter head = head := by
  induction tr generalizing head with
  | nil => rfl
  | cons e tr ih =>
    rw [List.foldl_cons, h e (.head _) head]
    exact ih fun d hd => h d (.tail _ hd)

theorem lastHead_fetch {ctx : SigningContext} {id : ℕ} {rc : Address}
    {policy : IntentRequestBindingPolicy} {fetch : List SigningEvent} {data : A1OnChainData}
    (h : Executes (fetchA1OnChain ctx id rc policy) fetch (.ok (.onChain data)))
    (hdata : isProbeOnly data = false) (hroles : data ≠ .noFactory) :
    ∃ n : ℕ, ⟨.getBlockNumber ctx.chainId, .ok n⟩ ∈ fetch ∧
      ∀ before, lastHead (before ++ fetch) = some n := by
  obtain ⟨slot, slots, tail, rfl, ⟨-, rfl, -⟩ | ⟨owner, firstFactory, rest, -, -, hfetch⟩⟩ :=
    executes_fetch h
  · exact absurd rfl hroles
  · obtain ⟨n, probe, scan, outcome, rfl, hprobe, hscan, -⟩ := executes_fetchRoles hfetch hdata
    refine ⟨n, .tail _ (.head _), fun before => ?_⟩
    rw [lastHead, List.foldl_append, List.foldl_cons, List.foldl_cons, List.foldl_append,
      lastHead_scan fun e he => ?_, lastHead_scan fun e he => ?_]
    · rfl
    · obtain ⟨op, answer⟩ := e
      obtain ⟨m, rfl⟩ := hprobe _ he
      exact fun _ => rfl
    · have hread := scanRoleHolders_performs.runs hscan e he
      obtain ⟨op, answer⟩ := e
      cases op with
      | getLogs => exact fun _ => rfl
      | signalAborted => exact fun _ => rfl
      | dateNow => exact fun _ => rfl
      | _ => exact hread.elim

theorem run_readsChain (call : A1Call) : call.run.Performs (ReadsChain call.ctx.chainId) := by
  rw [A1Call.run, runA1]
  split
  · trivial
  · refine .bind ((readCache_performs _ _).mono ?_) fun hit => ?_
    · rintro op ⟨k, rfl⟩
      trivial
    cases hit with
    | some data => trivial
    | none =>
      refine .bind ((fetchA1OnChain_performs _ _).mono fun op hop => ?_) fun r => ?_
      · cases op with
        | ownerAndProvenance => exact hop
        | getBlockNumber => exact hop
        | _ => trivial
      rcases r with e | (data | data)
      · trivial
      · refine .bind ((writeCache_performs _ _ _).mono ?_) fun _ => trivial
        rintro op ⟨k, v, ttl, rfl⟩
        trivial
      · trivial

def ReadAtHead {ι : Type} (calls : ι → A1Call) (log : List (ι × SigningEvent))
    (w : String × Stamped) : Prop :=
  ∃ i fetch, Executes (calls i).fetch fetch (.ok (.onChain w.2.data)) ∧
    (∀ e ∈ fetch, (i, e) ∈ log) ∧
    (w.2.data ≠ .noFactory →
      ⟨.getBlockNumber (calls i).ctx.chainId, .ok w.2.read.block⟩ ∈ fetch)

section Runs
variable {ι : Type} [DecidableEq ι] {final : ℕ → Chain} {calls : ι → A1Call} {id : ℕ}
  (hone : ∀ i, (calls i).ctx.chainId = id) {heads : ℕ → ℕ} {now : ℤ} {defaultTtlMs : Option ℤ}
  {maxEntries : ℕ} {c : Config env ι (RaceState ι) CheckResult}
  (hreach : Config.Reachable (orderedWorld ι final) (.start heads now defaultTtlMs maxEntries)
    (fun i => (calls i).run) c)
include hone hreach

theorem raceInv_reachable : RaceInv id c.world c.log := by
  let P : ι → Protocol env Unit := fun _ => ⟨fun _ => ReadsChain id, fun _ _ => True, fun _ _ => ()⟩
  have hprogs : ∀ i, ((calls i).run).Obeys (P i) (fun _ _ => True) () := fun i =>
    (run_readsChain (calls i)).permitted fun _ op hop => by
      rw [hone i] at hop
      exact hop
  exact (Config.reachable_obeys (raceInv_start heads now defaultTtlMs maxEntries)
    (fun i s log e s' h hchain hserves => ⟨trivial, h.serve hchain hserves⟩)
    (fun s log s' h hevolves => h.evolve hevolves) hprogs hreach).1

theorem readAtHead_reachable : ∀ w ∈ c.world.written, ReadAtHead calls c.log w := by
  intro w hw
  obtain ⟨i, pre, post, ttl, r, hlog, hblock⟩ := (raceInv_reachable hone hreach).traced w hw
  obtain ⟨next, hissued⟩ := Config.reachable_issued hreach hlog
  obtain ⟨read, fetch, hpre, hwrites⟩ := run_writes hissued
  refine ⟨i, fetch, hwrites.fetched, fun e he => ?_, fun hroles => ?_⟩
  · have hmem : e ∈ Config.eventsOf i pre := by
      rw [hpre]
      exact List.mem_append_right _ he
    rw [hlog]
    exact List.mem_append_left _ (Config.mem_eventsOf.mp hmem)
  · obtain ⟨n, hn, hlast⟩ := lastHead_fetch hwrites.fetched hwrites.scanned hroles
    rw [hblock n (by rw [hpre]; exact hlast read)]
    exact hn

end Runs

theorem answersAt_upTo (final : ℕ → Chain) (heads : ℕ → ℕ) (op : Op) :
    AnswersAt final heads ⟨op, serve (fun c => (final c).upTo (heads c)) op⟩ := by
  cases op with
  | getBlockNumber c => exact fun n h => (Except.ok.inj h).symm
  | getLogs c addresses fromBlock toBlock =>
    intro logs h l
    exact serve_answers (fun c => (final c).upTo (heads c))
      (.getLogs c addresses fromBlock toBlock) logs h l
  | _ => trivial

theorem answersAt_below {final : ℕ → Chain} {heads heads' : ℕ → ℕ} {c : ℕ}
    (hle : heads c ≤ heads' c) (addresses : List Address) (fromBlock : ℤ) {toBlock : ℤ}
    (hto : toBlock ≤ heads c) :
    AnswersAt final heads' ⟨.getLogs c addresses fromBlock toBlock,
      serve (fun c => (final c).upTo (heads c)) (.getLogs c addresses fromBlock toBlock)⟩ := by
  intro logs h l
  rw [serve_answers (fun c => (final c).upTo (heads c))
    (.getLogs c addresses fromBlock toBlock) logs h l, mem_logs_upTo, mem_logs_upTo,
    Chain.Matches]
  constructor
  · rintro ⟨⟨hl, hb⟩, hm⟩
    exact ⟨⟨hl, hb.trans hle⟩, hm⟩
  · rintro ⟨⟨hl, -⟩, hm⟩
    exact ⟨⟨hl, by omega⟩, hm⟩

namespace Sample

def grown : Chain where
  head := 101
  logs := chain.logs ++ [roleLog 101 0 "0xROGUE" 1]
  owner := chain.owner
  provenance := chain.provenance
  operation := chain.operation
  code := chain.code
  logs_le_head := by decide
  logs_positioned := by decide

def racing : A1Call := ⟨ctx, body, ⟨policy, true, none⟩, sameChain⟩

abbrev rpcAt (head : ℕ) : (op : Op) → op.Answer := serve fun _ => grown.upTo head

abbrev raceStart : RaceState (Fin 3) := .start (fun _ => 100) 0 none 0

theorem answersAt_head (head : ℕ) (op : Op) :
    AnswersAt (fun _ => grown) (fun _ => head) ⟨op, rpcAt head op⟩ :=
  answersAt_upTo (fun _ => grown) (fun _ => head) op

abbrev slowTrace : List SigningEvent := racing.run.trace (rpcAt 100)

abbrev fastTrace : List SigningEvent := racing.run.trace (rpcAt 101)

def dataAt (head : ℕ) : A1OnChainData :=
  match racing.fetch.eval (rpcAt head) with
  | .ok (.onChain data) => data
  | _ => .noFactory

def storesAt (s : RaceState (Fin 3)) (i : Fin 3) (head : ℕ) : RaceState (Fin 3) :=
  let entry := ⟨⟨dataAt head, s.read i⟩, none⟩
  s.stores i "1:0xreq" (dataAt head)
    { s.cache with map := (s.cache.map.delete "1:0xreq").set "1:0xreq" entry }

def headRead : RaceState (Fin 3) := (raceStart.reads 0 1).reads 0 1

theorem alone_served : Config.Served (orderedWorld (Fin 3) fun _ => grown) 0 raceStart slowTrace
    (storesAt headRead 0 100) := by
  have hset : (raceWorld (Fin 3) fun _ => grown).serves 0 headRead
      ⟨.cacheSet "1:0xreq" (dataAt 100) none, .ok ()⟩ (storesAt headRead 0 100) :=
    ⟨trivial, 0, rfl, rfl⟩
  exact .cons ⟨⟨answersAt_head 100 _, rfl, rfl⟩, inReadOrder_of_nil rfl⟩
    (.cons ⟨⟨answersAt_head 100 _, rfl⟩, inReadOrder_of_nil rfl⟩
      (.cons ⟨⟨answersAt_head 100 _, rfl⟩, inReadOrder_of_nil rfl⟩
        (.cons ⟨⟨answersAt_head 100 _, rfl⟩, inReadOrder_of_nil rfl⟩
          (.cons ⟨⟨answersAt_head 100 _, rfl⟩, inReadOrder_of_nil rfl⟩
            (.cons ⟨⟨answersAt_head 100 _, rfl⟩, inReadOrder_of_nil rfl⟩
              (.cons ⟨hset, inReadOrder_of_nil rfl⟩ (.nil _)))))))

def regrown : RaceState (Fin 3) := { storesAt headRead 0 100 with heads := fun _ => 101 }

def lateRead : RaceState (Fin 3) := (regrown.reads 1 1).reads 1 1

theorem missed_served : Config.Served (orderedWorld (Fin 3) fun _ => grown) 1 raceStart
    (fastTrace.take 1) raceStart :=
  .cons ⟨⟨trivial, rfl, rfl⟩, inReadOrder_of_nil rfl⟩ (.nil _)

theorem late_served : Config.Served (orderedWorld (Fin 3) fun _ => grown) 1 regrown
    (fastTrace.drop 1) (storesAt lateRead 1 101) := by
  have hset : (raceWorld (Fin 3) fun _ => grown).serves 1 lateRead
      ⟨.cacheSet "1:0xreq" (dataAt 101) none, .ok ()⟩ (storesAt lateRead 1 101) :=
    ⟨trivial, 0, rfl, rfl⟩
  have hlate : InReadOrder lateRead 1 ⟨.cacheSet "1:0xreq" (dataAt 101) none, .ok ()⟩ := by
    intro k data ttl _ w hw _
    obtain rfl := List.mem_singleton.mp hw
    decide
  exact .cons ⟨⟨answersAt_head 101 _, rfl⟩, inReadOrder_of_not_write rfl⟩
    (.cons ⟨⟨answersAt_head 101 _, rfl⟩, inReadOrder_of_not_write rfl⟩
      (.cons ⟨⟨answersAt_head 101 _, rfl⟩, inReadOrder_of_not_write rfl⟩
        (.cons ⟨⟨answersAt_head 101 _, rfl⟩, inReadOrder_of_not_write rfl⟩
          (.cons ⟨⟨answersAt_head 101 _, rfl⟩, inReadOrder_of_not_write rfl⟩
            (.cons ⟨hset, hlate⟩ (.nil _))))))

def lateHit : SigningEvent := ⟨.cacheGet "1:0xreq", .ok (some (dataAt 101))⟩

theorem lateHit_served : Config.Served (orderedWorld (Fin 3) fun _ => grown) 2
    (storesAt lateRead 1 101) [lateHit] (storesAt lateRead 1 101) :=
  .cons ⟨⟨trivial, rfl, rfl⟩, inReadOrder_of_not_write rfl⟩ (.nil _)

theorem late_hit : ∃ c c' : Config env (Fin 3) (RaceState (Fin 3)) CheckResult,
    Config.Reachable (orderedWorld (Fin 3) fun _ => grown) raceStart (fun _ => racing.run) c ∧
      Relation.ReflTransGen (Config.Step (orderedWorld (Fin 3) fun _ => grown)) c c' ∧
      c.world = storesAt lateRead 1 101 ∧ c'.world = storesAt lateRead 1 101 ∧
      Config.eventsOf 2 c'.log = [lateHit] := by
  have hfast : Executes racing.run (fastTrace.take 1 ++ fastTrace.drop 1)
      (racing.run.eval (rpcAt 101)) := by
    rw [List.take_append_drop]
    exact Program.executes_trace _ _
  obtain ⟨missed, hmissed, hresumed⟩ := Runs.append hfast
  have hgrows : (orderedWorld (Fin 3) fun _ => grown).evolves (storesAt headRead 0 100) regrown :=
    ⟨fun _ => Nat.le_succ 100, rfl⟩
  have hfirst : Config.Reachable (orderedWorld (Fin 3) fun _ => grown) raceStart
      (fun _ => racing.run) _ :=
    (Config.steps_run (i := 1) hmissed missed_served).trans
      (Config.steps_run (i := 0) (Program.executes_trace (rpcAt 100) racing.run) alone_served)
  have hsecond := (hfirst.tail (.evolve hgrows)).trans
    (Config.steps_run (i := 1) hresumed late_served)
  have hhit : Runs racing.run [lateHit] _ := .step _ (.refl _)
  exact ⟨_, _, hsecond, Config.steps_run (i := 2) hhit lateHit_served, rfl, rfl, rfl⟩

end Sample

/-- When calls on one chain write in the order in which they read it, no entry is replaced
by an older one, and no later hit is older than an entry that was once in the cache. -/
theorem no_stale_overwrite {ι : Type} [DecidableEq ι] (final : ℕ → Chain) (calls : ι → A1Call)
    (id : ℕ) (hone : ∀ i, (calls i).ctx.chainId = id) (heads : ℕ → ℕ) (now : ℤ)
    (defaultTtlMs : Option ℤ) (maxEntries : ℕ) (c : Config env ι (RaceState ι) CheckResult)
    (hreach : Config.Reachable (orderedWorld ι final) (.start heads now defaultTtlMs maxEntries)
      (fun i => (calls i).run) c) :
    (c.world.written.Pairwise fun a b => a.1 = b.1 → a.2.read.block ≤ b.2.read.block) ∧
    (∀ w ∈ c.world.written, ReadAtHead calls c.log w) ∧
    ∀ w ∈ c.world.written, ∀ c', Relation.ReflTransGen (Config.Step (orderedWorld ι final)) c c' →
      ∀ hit, (c'.world.cache.rawGet c'.world.now w.1).1 = some hit →
        w.2.read.block ≤ hit.read.block := by
  refine ⟨(raceInv_reachable hone hreach).ordered, readAtHead_reachable hone hreach,
    fun w hw c' hrun hit hhit => ?_⟩
  have hinv := raceInv_reachable hone (hreach.trans hrun)
  exact block_le_last hinv.ordered ((written_run hrun).subset hw)
    (InMemoryCache.rawGet_last hinv.holdsLast hhit)

/-- Two calls that missed write in the order of their reads; a third is served the later entry. -/
theorem no_stale_overwrite_in_order :
    ∃ (c c' : Config env (Fin 3) (RaceState (Fin 3)) CheckResult) (older newer hit : Stamped),
      c.world.written = [("1:0xreq", older), ("1:0xreq", newer)] ∧
      older.read = ⟨2, 100⟩ ∧ newer.read = ⟨4, 101⟩ ∧
      (c.world.written.Pairwise fun a b => a.1 = b.1 → a.2.read.block ≤ b.2.read.block) ∧
      (∀ w ∈ c.world.written, ReadAtHead (fun _ => Sample.racing) c.log w) ∧
      Config.eventsOf 2 c'.log = [⟨.cacheGet "1:0xreq", .ok (some newer.data)⟩] ∧
      (c'.world.cache.rawGet c'.world.now "1:0xreq").1 = some hit ∧
      older.read.block ≤ hit.read.block := by
  obtain ⟨c, c', hreach, hlater, hworld, hworld', hevents⟩ := Sample.late_hit
  have hsafe := no_stale_overwrite (fun _ => Sample.grown) (fun _ => Sample.racing) 1
    (fun _ => rfl) (fun _ => 100) 0 none 0 c hreach
  have hwritten : c.world.written = [("1:0xreq", ⟨Sample.dataAt 100, Sample.headRead.read 0⟩),
      ("1:0xreq", ⟨Sample.dataAt 101, Sample.lateRead.read 1⟩)] := by
    rw [hworld]
    rfl
  have hhit : (c'.world.cache.rawGet c'.world.now "1:0xreq").1 =
      some ⟨Sample.dataAt 101, Sample.lateRead.read 1⟩ := by
    rw [hworld']
    rfl
  have holder : ("1:0xreq", ⟨Sample.dataAt 100, Sample.headRead.read 0⟩) ∈ c.world.written := by
    rw [hwritten]
    exact .head _
  exact ⟨c, c', _, _, _, hwritten, rfl, rfl, hsafe.1, hsafe.2.1, hevents, hhit,
    hsafe.2.2 _ holder c' hlater _ hhit⟩

namespace Sample

def granted : RaceState (Fin 3) := { headRead with heads := fun _ => 101 }

theorem slow_served : Config.Served (raceWorld (Fin 3) fun _ => grown) 0 raceStart
    (slowTrace.take 5) headRead :=
  .cons ⟨answersAt_head 100 _, rfl, rfl⟩ (.cons ⟨answersAt_head 100 _, rfl⟩
    (.cons ⟨answersAt_head 100 _, rfl⟩ (.cons ⟨answersAt_head 100 _, rfl⟩
      (.cons ⟨answersAt_head 100 _, rfl⟩ (.nil _)))))

def fastRead : RaceState (Fin 3) := (granted.reads 1 1).reads 1 1

def fastDone : RaceState (Fin 3) := storesAt fastRead 1 101

theorem fast_served : Config.Served (raceWorld (Fin 3) fun _ => grown) 1 granted fastTrace
    fastDone := by
  have hset : (raceWorld (Fin 3) fun _ => grown).serves 1 fastRead
      ⟨.cacheSet "1:0xreq" (dataAt 101) none, .ok ()⟩ fastDone := ⟨trivial, 0, rfl, rfl⟩
  exact .cons ⟨answersAt_head 101 _, rfl, rfl⟩ (.cons ⟨answersAt_head 101 _, rfl⟩
    (.cons ⟨answersAt_head 101 _, rfl⟩ (.cons ⟨answersAt_head 101 _, rfl⟩
      (.cons ⟨answersAt_head 101 _, rfl⟩ (.cons ⟨answersAt_head 101 _, rfl⟩
        (.cons hset (.nil _)))))))

def slowDone : RaceState (Fin 3) := storesAt fastDone 0 100

theorem slow_resumed : Config.Served (raceWorld (Fin 3) fun _ => grown) 0 fastDone
    (slowTrace.drop 5) slowDone := by
  have hbelow : AnswersAt (fun _ => grown) fastDone.heads
      ⟨.getLogs 1 ["0xfac", "0xreq"] 87 93, rpcAt 100 (.getLogs 1 ["0xfac", "0xreq"] 87 93)⟩ :=
    @answersAt_below (fun _ => grown) (fun _ => 100) fastDone.heads 1 (by decide) _ _ _ (by decide)
  have hset : (raceWorld (Fin 3) fun _ => grown).serves 0 fastDone
      ⟨.cacheSet "1:0xreq" (dataAt 100) none, .ok ()⟩ slowDone := ⟨trivial, 0, rfl, rfl⟩
  exact .cons ⟨hbelow, rfl⟩ (.cons hset (.nil _))

def hit : SigningEvent := ⟨.cacheGet "1:0xreq", .ok (some (dataAt 100))⟩

theorem hit_served : Config.Served (raceWorld (Fin 3) fun _ => grown) 2 slowDone [hit] slowDone :=
  .cons ⟨trivial, rfl, rfl⟩ (.nil _)

theorem hit_accepted : Runs racing.run [hit] (.done (.ok checks)) :=
  .step _ (.refl _)

end Sample

/-- A write replaces an entry that shows a grant by one read before it, and a decision is
then served from the older one. -/
theorem slow_scan_overwrites : ∃ (before after : Config env (Fin 3) (RaceState (Fin 3)) CheckResult)
    (young old : Stamped) (holders : RoleMap) (reason : String) (details : List CheckEntry),
    Config.Reachable (raceWorld (Fin 3) fun _ => Sample.grown) Sample.raceStart
      (fun _ => Sample.racing.run) before ∧
    Relation.ReflTransGen (Config.Step (raceWorld (Fin 3) fun _ => Sample.grown)) before after ∧
    (before.world.cache.rawGet before.world.now "1:0xreq").1 = some young ∧
    young.read.block = 101 ∧ young.data = .resolved "0xfac" "0xOWN" holders ∧
    holders.get? "0xrogue" = some 1 ∧ Sample.roleLog 101 0 "0xROGUE" 1 ∈ Sample.grown.logs ∧
    before.procs 1 = .done (.error (.validationFailed reason details)) ∧
    after.world.now = before.world.now ∧
    (after.world.cache.rawGet after.world.now "1:0xreq").1 = some old ∧ old.read.block = 100 ∧
    after.procs 2 = .done (.ok Sample.checks) ∧
    Config.eventsOf 2 after.log = [⟨.cacheGet "1:0xreq", .ok (some old.data)⟩] := by
  have hslow : Executes Sample.racing.run (Sample.slowTrace.take 5 ++ Sample.slowTrace.drop 5)
      (Sample.racing.run.eval (Sample.rpcAt 100)) := by
    rw [List.take_append_drop]
    exact Program.executes_trace _ _
  obtain ⟨paused, hpaused, hresumed⟩ := Runs.append hslow
  have hgrows : (raceWorld (Fin 3) fun _ => Sample.grown).evolves Sample.headRead
      Sample.granted := ⟨fun _ => Nat.le_succ 100, rfl⟩
  have hgranted : Config.Reachable (raceWorld (Fin 3) fun _ => Sample.grown) Sample.raceStart
      (fun _ => Sample.racing.run) _ :=
    (Config.steps_run (i := 0) hpaused Sample.slow_served).tail (.evolve hgrows)
  have hbefore := hgranted.run (i := 1)
    (Program.executes_trace (Sample.rpcAt 101) Sample.racing.run) Sample.fast_served
  refine ⟨_, _, ⟨Sample.dataAt 101, Sample.fastRead.read 1⟩,
    ⟨Sample.dataAt 100, Sample.fastDone.read 0⟩, _, _, _, hbefore,
    (Config.steps_run (i := 0) hresumed Sample.slow_resumed).trans
      (Config.steps_run (i := 2) Sample.hit_accepted Sample.hit_served),
    rfl, rfl, rfl, rfl, List.mem_append_right _ (.head _), rfl, rfl, rfl, rfl, rfl, rfl⟩

end Guardian
