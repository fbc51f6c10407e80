import Mathlib.Data.List.Basic
import Mathlib.Logic.Function.Basic
import Mathlib.Order.Nat
import Mathlib.Tactic.Common

/-!
# The per-key lock of the rate limiter

`withKeyLock` chains each task of a key to the settling of the one before. A chain object
counts the tasks that have not been released, and its map entry goes with the last of them;
a later caller starts from a new object. A ticket is what one accepted call leaves behind.
The order of the reactions to one settling is left open.
-/

namespace Guardian

def MAX_PENDING_PER_KEY : ℕ := 64

/-- The tail is the settling of the task queued last; `none` is `Promise.resolve()`. -/
structure KeyChain where
  tail : Option ℕ
  pending : ℕ

/-- `settled` is the promise that forgets the outcome; at `released` its reaction has run. -/
inductive TicketStage where
  | queued
  | running
  | finished
  | settled
  | released
  deriving DecidableEq, Repr

def TicketStage.isSettled : TicketStage → Bool
  | .settled => true
  | .released => true
  | _ => false

def TicketStage.atWork : TicketStage → Bool
  | .running => true
  | .finished => true
  | _ => false

structure Ticket where
  key : String
  chain : ℕ
  tail : Option ℕ
  stage : TicketStage
  deriving DecidableEq

/-- `chains` holds references to the chain objects, tickets are numbered by arrival. -/
structure KeyLock where
  chains : String → Option ℕ
  objects : ℕ → KeyChain
  allocated : ℕ
  tickets : List Ticket

namespace KeyLock

def idle : KeyLock := ⟨fun _ => none, fun _ => ⟨none, 0⟩, 0, []⟩

/-- `chains.get(key) ?? { tail: Promise.resolve(), pending: 0 }`. -/
def chainOf (l : KeyLock) (key : String) : ℕ × KeyChain :=
  match l.chains key with
  | some c => (c, l.objects c)
  | none => (l.allocated, ⟨none, 0⟩)

/-- The call itself; `none` when the backlog of the key is full. -/
def withKeyLock (l : KeyLock) (key : String) : Option KeyLock :=
  let (c, chain) := l.chainOf key
  if chain.pending ≥ MAX_PENDING_PER_KEY then none
  else some {
    chains := Function.update l.chains key (some c)
    objects := Function.update l.objects c ⟨some l.tickets.length, chain.pending + 1⟩
    allocated := max l.allocated (c + 1)
    tickets := l.tickets ++ [⟨key, c, chain.tail, .queued⟩] }

def hasSettled (l : KeyLock) : Option ℕ → Bool
  | none => true
  | some w => (l.tickets[w]?.map fun j => j.stage.isSettled).getD false

def move (l : KeyLock) (t : ℕ) (k : Ticket) (stage : TicketStage) : KeyLock :=
  { l with tickets := l.tickets.set t { k with stage := stage } }

/-- The task starts once the tail it was chained to has settled. -/
def start (l : KeyLock) (t : ℕ) : Option KeyLock :=
  l.tickets[t]?.bind fun k =>
    if k.stage = .queued ∧ l.hasSettled k.tail = true then some (l.move t k .running) else none

def finish (l : KeyLock) (t : ℕ) : Option KeyLock :=
  l.tickets[t]?.bind fun k => if k.stage = .running then some (l.move t k .finished) else none

def settle (l : KeyLock) (t : ℕ) : Option KeyLock :=
  l.tickets[t]?.bind fun k => if k.stage = .finished then some (l.move t k .settled) else none

/-- The reaction of `settled`: one task less, and no entry without tasks. -/
def release (l : KeyLock) (t : ℕ) : Option KeyLock :=
  l.tickets[t]?.bind fun k =>
    if k.stage = .settled then
      let pending := (l.objects k.chain).pending - 1
      let l := l.move t k .released
      some { l with
        objects := Function.update l.objects k.chain ⟨(l.objects k.chain).tail, pending⟩
        chains := if pending = 0 ∧ l.chains k.key = some k.chain then
          Function.update l.chains k.key none else l.chains }
    else none

/-- Two tasks of one key, the first of them called earlier. -/
structure Earlier (tickets : List Ticket) (u t : ℕ) (j k : Ticket) : Prop where
  first : tickets[u]? = some j
  second : tickets[t]? = some k
  lt : u < t
  key : j.key = k.key

/-- A task starts after every earlier one of its key has settled: those that have not are
among the tasks up to its tail. -/
structure Ordered (tickets : List Ticket) : Prop where
  order : ∀ {u t j k}, Earlier tickets u t j k → k.stage ≠ .queued → j.stage.isSettled = true
  chained : ∀ {u t j k}, Earlier tickets u t j k →
    j.stage.isSettled = true ∨ ∃ w, k.tail = some w ∧ u ≤ w
  tail : ∀ {t w : ℕ} {k : Ticket}, tickets[t]? = some k → k.tail = some w →
    ∃ j, Earlier tickets w t j k

section Move
variable {tickets : List Ticket} {t : ℕ} {k : Ticket} {s : TicketStage}

theorem lookup_set (hk : tickets[t]? = some k) (j : Ticket) (u : ℕ) :
    (tickets.set t j)[u]? = if t = u then some j else tickets[u]? := by
  have ht : t < tickets.length := (List.getElem?_eq_some_iff.mp hk).1
  rw [List.getElem?_set]
  simp only [ht, if_true]

theorem lookup_from (hk : tickets[t]? = some k) {u : ℕ} {j : Ticket}
    (hj : (tickets.set t { k with stage := s })[u]? = some j) :
    ∃ i, tickets[u]? = some i ∧ j = { i with stage := if t = u then s else i.stage } := by
  rw [lookup_set hk] at hj
  split at hj
  · rename_i htu
    subst htu
    cases hj
    exact ⟨k, hk, by rw [if_pos rfl]⟩
  · rename_i htu
    exact ⟨j, hj, by rw [if_neg htu]⟩

theorem lookup_to (hk : tickets[t]? = some k) {u : ℕ} {i : Ticket} (hi : tickets[u]? = some i) :
    (tickets.set t { k with stage := s })[u]? =
      some { i with stage := if t = u then s else i.stage } := by
  rw [lookup_set hk]
  split
  · rename_i htu
    subst htu
    rw [hk] at hi
    cases hi
    rfl
  · exact hi

theorem Earlier.moved_from (hk : tickets[t]? = some k) {u v : ℕ} {i j : Ticket}
    (h : Earlier (tickets.set t { k with stage := s }) u v i j) :
    ∃ i' j', Earlier tickets u v i' j' ∧
      i = { i' with stage := if t = u then s else i'.stage } ∧
      j = { j' with stage := if t = v then s else j'.stage } := by
  obtain ⟨i', hi', rfl⟩ := lookup_from hk h.first
  obtain ⟨j', hj', rfl⟩ := lookup_from hk h.second
  exact ⟨i', j', ⟨hi', hj', h.lt, h.key⟩, rfl, rfl⟩

theorem Earlier.moved_to (hk : tickets[t]? = some k) {u v : ℕ} {i j : Ticket}
    (h : Earlier tickets u v i j) : Earlier (tickets.set t { k with stage := s }) u v
      { i with stage := if t = u then s else i.stage }
      { j with stage := if t = v then s else j.stage } :=
  ⟨lookup_to hk h.first, lookup_to hk h.second, h.lt, h.key⟩

theorem settled_set (hk : tickets[t]? = some k)
    (hsettled : k.stage.isSettled = true → s.isSettled = true) {u : ℕ} {i : Ticket}
    (hi : tickets[u]? = some i) (h : i.stage.isSettled = true) :
    (if t = u then s else i.stage).isSettled = true := by
  split
  · rename_i htu
    subst htu
    rw [hk] at hi
    cases hi
    exact hsettled h
  · exact h

theorem Ordered.set (h : Ordered tickets) (hk : tickets[t]? = some k)
    (hsettled : k.stage.isSettled = true → s.isSettled = true)
    (hstart : s ≠ .queued → ∀ {u j}, Earlier tickets u t j k → j.stage.isSettled = true) :
    Ordered (tickets.set t { k with stage := s }) := by
  refine ⟨@fun u v i j hearlier hqueued => ?_, fun hearlier => ?_, fun hj hw => ?_⟩
  · obtain ⟨i, j, hij, rfl, rfl⟩ := hearlier.moved_from hk
    refine settled_set hk hsettled hij.first ?_
    by_cases htv : t = v
    · subst htv
      rw [if_pos rfl] at hqueued
      have hjk := hij.second
      rw [hk] at hjk
      cases hjk
      exact hstart hqueued hij
    · dsimp only at hqueued
      rw [if_neg htv] at hqueued
      exact h.order hij hqueued
  · obtain ⟨i, j, hij, rfl, rfl⟩ := hearlier.moved_from hk
    exact (h.chained hij).imp_left (settled_set hk hsettled hij.first)
  · obtain ⟨i, hi, rfl⟩ := lookup_from hk hj
    obtain ⟨j, hearlier⟩ := h.tail hi hw
    exact ⟨_, hearlier.moved_to hk⟩

end Move

theorem lookup_snoc {tickets : List Ticket} {k j : Ticket} {u : ℕ} :
    (tickets ++ [k])[u]? = some j ↔ tickets[u]? = some j ∨ u = tickets.length ∧ j = k := by
  rw [List.getElem?_append]
  split
  · rename_i hlt
    simp only [Nat.ne_of_lt hlt, false_and, or_false]
  · rename_i hge
    rw [List.getElem?_eq_none (Nat.le_of_not_lt hge)]
    cases hu : u - tickets.length with
    | zero =>
      have hlen : u = tickets.length := by omega
      simp [hlen, eq_comm]
    | succ n =>
      have hlen : u ≠ tickets.length := by omega
      simp [hlen]

theorem Ordered.snoc {tickets : List Ticket} {k : Ticket} (h : Ordered tickets)
    (hqueued : k.stage = .queued)
    (hlast : ∀ u j, tickets[u]? = some j → j.key = k.key →
      j.stage.isSettled = true ∨ ∃ w, k.tail = some w ∧ u ≤ w)
    (htail : ∀ w, k.tail = some w → ∃ j, tickets[w]? = some j ∧ j.key = k.key) :
    Ordered (tickets ++ [k]) := by
  have hbelow : ∀ {u : ℕ} {j : Ticket}, tickets[u]? = some j → u < tickets.length :=
    fun hj => (List.getElem?_eq_some_iff.mp hj).1
  have hsplit : ∀ {u t : ℕ} {j i : Ticket}, Earlier (tickets ++ [k]) u t j i →
      Earlier tickets u t j i ∨ tickets[u]? = some j ∧ j.key = k.key ∧ i = k := by
    intro u t j i hearlier
    have hlt := hearlier.lt
    rcases lookup_snoc.mp hearlier.second with ht | ⟨rfl, rfl⟩
    · have hbound := hbelow ht
      rcases lookup_snoc.mp hearlier.first with hu | ⟨rfl, rfl⟩
      · exact .inl ⟨hu, ht, hlt, hearlier.key⟩
      · omega
    · rcases lookup_snoc.mp hearlier.first with hu | ⟨rfl, rfl⟩
      · exact .inr ⟨hu, hearlier.key, rfl⟩
      · omega
  refine ⟨fun hearlier hstage => ?_, fun hearlier => ?_, fun ht hw => ?_⟩
  · rcases hsplit hearlier with hold | ⟨_, _, rfl⟩
    · exact h.order hold hstage
    · exact absurd hqueued hstage
  · rcases hsplit hearlier with hold | ⟨hu, hkey, rfl⟩
    · exact h.chained hold
    · exact hlast _ _ hu hkey
  · rcases lookup_snoc.mp ht with hold | ⟨rfl, rfl⟩
    · obtain ⟨j, hearlier⟩ := h.tail hold hw
      exact ⟨j, lookup_snoc.mpr (.inl hearlier.first), ht, hearlier.lt, hearlier.key⟩
    · obtain ⟨j, hj, hkey⟩ := htail _ hw
      exact ⟨j, lookup_snoc.mpr (.inl hj), ht, hbelow hj, hkey⟩

theorem Ordered.headed {l : KeyLock} (h : Ordered l.tickets) {t : ℕ} {k : Ticket}
    (hk : l.tickets[t]? = some k) (htail : l.hasSettled k.tail = true) {u : ℕ} {j : Ticket}
    (hearlier : Earlier l.tickets u t j k) : j.stage.isSettled = true := by
  rcases h.chained hearlier with hsettled | ⟨w, hw, huw⟩
  · exact hsettled
  · obtain ⟨i, hlast⟩ := h.tail hk hw
    have hi : i.stage.isSettled = true := by
      rw [hw, hasSettled, hlast.first] at htail
      exact htail
    rcases Nat.eq_or_lt_of_le huw with rfl | hlt
    · have hij := hearlier.first
      rw [hlast.first] at hij
      cases hij
      exact hi
    · refine h.order ⟨hearlier.first, hlast.first, hlt, hearlier.key.trans hlast.key.symm⟩ ?_
      intro hqueued
      rw [hqueued] at hi
      cases hi

def isPending (key : String) (k : Ticket) : Bool :=
  decide (k.key = key) && decide (k.stage ≠ .released)

def pendingIn (tickets : List Ticket) (key : String) : ℕ := tickets.countP (isPending key)

theorem pendingIn_set {tickets : List Ticket} {t : ℕ} {k : Ticket} (hk : tickets[t]? = some k)
    (s : TicketStage) (key : String) :
    pendingIn (tickets.set t { k with stage := s }) key +
        (if isPending key k = true then 1 else 0) =
      pendingIn tickets key + if isPending key { k with stage := s } = true then 1 else 0 := by
  obtain ⟨ht, hget⟩ := List.getElem?_eq_some_iff.mp hk
  have hcount := List.countP_set (p := isPending key) (a := { k with stage := s }) ht
  rw [hget] at hcount
  have hle : (if isPending key k = true then 1 else 0) ≤ tickets.countP (isPending key) := by
    split
    · rename_i hp
      exact List.countP_pos_iff.mpr ⟨k, List.mem_of_getElem? hk, hp⟩
    · exact Nat.zero_le _
  rw [pendingIn, pendingIn]
  omega

theorem pendingIn_snoc (tickets : List Ticket) {k : Ticket} (hqueued : k.stage = .queued)
    (key : String) :
    pendingIn (tickets ++ [k]) key = pendingIn tickets key + if k.key = key then 1 else 0 := by
  rw [pendingIn, pendingIn, List.countP_append, List.countP_singleton]
  simp [isPending, hqueued]

theorem pendingIn_pos {tickets : List Ticket} {t : ℕ} {k : Ticket} (hk : tickets[t]? = some k)
    (hstage : k.stage ≠ .released) : 0 < pendingIn tickets k.key :=
  List.countP_pos_iff.mpr ⟨k, List.mem_of_getElem? hk, by simp [isPending, hstage]⟩

/-- The last task of a key, and the object that counts its tasks. -/
structure Entry (l : KeyLock) (key : String) (c : ℕ) : Prop where
  allocated : c < l.allocated
  pending : (l.objects c).pending = pendingIn l.tickets key
  busy : 0 < pendingIn l.tickets key
  tail : ∃ w j, (l.objects c).tail = some w ∧ l.tickets[w]? = some j ∧ j.key = key ∧
    ∀ u k, l.tickets[u]? = some k → k.key = key → u ≤ w

structure Counted (l : KeyLock) : Prop where
  entry : ∀ {key c}, l.chains key = some c → l.Entry key c
  vacant : ∀ {key}, l.chains key = none → pendingIn l.tickets key = 0
  owner : ∀ {t : ℕ} {k : Ticket}, l.tickets[t]? = some k → k.stage ≠ .released →
    l.chains k.key = some k.chain
  distinct : ∀ {key key' c}, l.chains key = some c → l.chains key' = some c → key = key'
  bound : ∀ key, pendingIn l.tickets key ≤ MAX_PENDING_PER_KEY

structure Inv (l : KeyLock) : Prop where
  ordered : Ordered l.tickets
  counted : l.Counted

theorem idle_inv : idle.Inv where
  ordered := {
    order := fun h => by cases h.first
    chained := fun h => by cases h.first
    tail := fun h => by cases h }
  counted := {
    entry := fun h => by cases h
    vacant := fun _ => rfl
    owner := fun h => by cases h
    distinct := fun h => by cases h
    bound := fun _ => Nat.zero_le _ }

theorem Counted.move {l : KeyLock} (h : l.Counted) {t : ℕ} {k : Ticket}
    (hk : l.tickets[t]? = some k) {s : TicketStage} (hbefore : k.stage ≠ .released)
    (hafter : s ≠ .released) : (l.move t k s).Counted := by
  have hpending : ∀ key, pendingIn (l.move t k s).tickets key = pendingIn l.tickets key := by
    intro key
    have hcount := pendingIn_set hk s key
    simp only [isPending, hbefore, hafter, ne_eq, not_false_eq_true, decide_true,
      Bool.and_true] at hcount
    exact Nat.add_right_cancel hcount
  refine ⟨fun hc => ?_, fun hc => ?_, @fun u j hj hreleased => ?_, h.distinct, fun key => ?_⟩
  · obtain ⟨hallocated, hobject, hbusy, w, j, hw, hj, hkey, hlast⟩ := h.entry hc
    refine ⟨hallocated, hobject.trans (hpending _).symm, (hpending _).symm ▸ hbusy, w, _, hw,
      lookup_to hk hj, hkey, fun u i hi hikey => ?_⟩
    obtain ⟨i', hi', rfl⟩ := lookup_from hk hi
    exact hlast u i' hi' hikey
  · exact (hpending _).trans (h.vacant hc)
  · obtain ⟨i, hi, rfl⟩ := lookup_from hk hj
    show l.chains i.key = some i.chain
    refine h.owner hi fun hi' => hreleased ?_
    have htu : t ≠ u := fun htu => by
      subst htu
      rw [hk] at hi
      cases hi
      exact hbefore hi'
    dsimp only
    rw [if_neg htu, hi']
  · exact Nat.le_trans (Nat.le_of_eq (hpending key)) (h.bound key)

theorem Inv.move {l : KeyLock} (h : l.Inv) {t : ℕ} {k : Ticket} (hk : l.tickets[t]? = some k)
    {s : TicketStage} (hsettled : k.stage.isSettled = true → s.isSettled = true)
    (hbefore : k.stage ≠ .released) (hafter : s ≠ .released)
    (hstart : s ≠ .queued → ∀ {u j}, Earlier l.tickets u t j k → j.stage.isSettled = true) :
    (l.move t k s).Inv :=
  ⟨h.ordered.set hk hsettled hstart, h.counted.move hk hbefore hafter⟩

section Steps
variable {l l' : KeyLock} {t : ℕ}

theorem start_cases (h : l.start t = some l') : ∃ k, l.tickets[t]? = some k ∧
    k.stage = .queued ∧ l.hasSettled k.tail = true ∧ l' = l.move t k .running := by
  obtain ⟨k, hk, h⟩ := Option.bind_eq_some_iff.mp h
  split at h
  · rename_i hguard
    cases h
    exact ⟨k, hk, hguard.1, hguard.2, rfl⟩
  · cases h

theorem finish_cases (h : l.finish t = some l') : ∃ k, l.tickets[t]? = some k ∧
    k.stage = .running ∧ l' = l.move t k .finished := by
  obtain ⟨k, hk, h⟩ := Option.bind_eq_some_iff.mp h
  split at h
  · rename_i hstage
    cases h
    exact ⟨k, hk, hstage, rfl⟩
  · cases h

theorem settle_cases (h : l.settle t = some l') : ∃ k, l.tickets[t]? = some k ∧
    k.stage = .finished ∧ l' = l.move t k .settled := by
  obtain ⟨k, hk, h⟩ := Option.bind_eq_some_iff.mp h
  split at h
  · rename_i hstage
    cases h
    exact ⟨k, hk, hstage, rfl⟩
  · cases h

theorem Inv.start (h : l.Inv) (hstep : l.start t = some l') : l'.Inv := by
  obtain ⟨k, hk, hqueued, htail, rfl⟩ := start_cases hstep
  refine h.move hk (by simp [hqueued, TicketStage.isSettled]) (by simp [hqueued]) (by decide) ?_
  exact fun _ _ _ hearlier => h.ordered.headed hk htail hearlier

theorem Inv.finish (h : l.Inv) (hstep : l.finish t = some l') : l'.Inv := by
  obtain ⟨k, hk, hrunning, rfl⟩ := finish_cases hstep
  refine h.move hk (by simp [hrunning, TicketStage.isSettled]) (by simp [hrunning]) (by decide) ?_
  exact fun _ _ _ hearlier => h.ordered.order hearlier (by simp [hrunning])

theorem Inv.settle (h : l.Inv) (hstep : l.settle t = some l') : l'.Inv := by
  obtain ⟨k, hk, hfinished, rfl⟩ := settle_cases hstep
  refine h.move hk (fun _ => rfl) (by simp [hfinished]) (by decide) ?_
  exact fun _ _ _ hearlier => h.ordered.order hearlier (by simp [hfinished])

theorem release_cases (h : l.release t = some l') : ∃ k, l.tickets[t]? = some k ∧
    k.stage = .settled ∧ l' = { l.move t k .released with
      objects := Function.update l.objects k.chain
        ⟨(l.objects k.chain).tail, (l.objects k.chain).pending - 1⟩
      chains := if (l.objects k.chain).pending - 1 = 0 ∧ l.chains k.key = some k.chain then
        Function.update l.chains k.key none else l.chains } := by
  obtain ⟨k, hk, h⟩ := Option.bind_eq_some_iff.mp h
  split at h
  · rename_i hstage
    cases h
    exact ⟨k, hk, hstage, rfl⟩
  · cases h

theorem pendingIn_release {k : Ticket} (hk : l.tickets[t]? = some k) (hstage : k.stage = .settled)
    (key : String) : pendingIn (l.tickets.set t { k with stage := .released }) key +
      (if key = k.key then 1 else 0) = pendingIn l.tickets key := by
  have hcount := pendingIn_set hk .released key
  simp only [isPending, hstage, ne_eq, not_true_eq_false, decide_false, Bool.and_false,
    Bool.false_eq_true, if_false, reduceCtorEq, not_false_eq_true, decide_true, Bool.and_true,
    decide_eq_true_eq, Nat.add_zero] at hcount
  simp only [eq_comm (a := key)]
  exact hcount

theorem Counted.release_chains (h : l.Counted) {k : Ticket} (hk : l.tickets[t]? = some k)
    (hstage : k.stage = .settled) (key : String) (c : ℕ) :
    (if (l.objects k.chain).pending - 1 = 0 ∧ l.chains k.key = some k.chain then
        Function.update l.chains k.key none else l.chains) key = some c ↔
      l.chains key = some c ∧
        0 < pendingIn (l.tickets.set t { k with stage := .released }) key := by
  have howner := h.owner hk (by simp [hstage])
  have hobject := (h.entry howner).pending
  have hself := pendingIn_release hk hstage k.key
  rw [if_pos rfl] at hself
  by_cases hkey : key = k.key
  · subst hkey
    by_cases hzero : (l.objects k.chain).pending - 1 = 0
    · rw [if_pos ⟨hzero, howner⟩, Function.update_self]
      exact iff_of_false (by simp) fun hboth => by omega
    · rw [if_neg fun hboth => hzero hboth.1]
      exact (and_iff_left (by omega)).symm
  · have hother := pendingIn_release hk hstage key
    rw [if_neg hkey] at hother
    have hsame : (if (l.objects k.chain).pending - 1 = 0 ∧ l.chains k.key = some k.chain then
        Function.update l.chains k.key none else l.chains) key = l.chains key := by
      split
      · exact Function.update_of_ne hkey _ _
      · rfl
    rw [hsame]
    refine ⟨fun hc => ⟨hc, ?_⟩, And.left⟩
    have hbusy := (h.entry hc).busy
    omega

theorem Counted.release (h : l.Counted) (hstep : l.release t = some l') : l'.Counted := by
  obtain ⟨k, hk, hstage, rfl⟩ := release_cases hstep
  have howner := h.owner hk (by simp [hstage])
  have hpending := pendingIn_release hk hstage
  have hchains := h.release_chains hk hstage
  refine ⟨fun {key c} hc => ?_, fun {key} hc => ?_, fun {u j} hj hreleased => ?_,
    fun hc hc' => h.distinct ((hchains _ _).mp hc).1 ((hchains _ _).mp hc').1, fun key => ?_⟩
  · obtain ⟨hold, hbusy⟩ := (hchains key c).mp hc
    obtain ⟨hallocated, hobject, _, w, i, hw, hi, hikey, hlast⟩ := h.entry hold
    have hkey := hpending key
    refine ⟨hallocated, ?_, hbusy, w, _, ?_, lookup_to hk hi, hikey, fun u j hj hjkey => ?_⟩
    · show (Function.update l.objects k.chain _ c).pending = _
      by_cases hself : key = k.key
      · subst hself
        cases howner.symm.trans hold
        rw [if_pos rfl] at hkey
        rw [Function.update_self]
        exact (Nat.sub_eq_of_eq_add (hobject.trans hkey.symm))
      · have hne : c ≠ k.chain := fun heq => hself (h.distinct hold (heq ▸ howner))
        rw [if_neg hself] at hkey
        rw [Function.update_of_ne hne]
        exact hobject.trans hkey.symm
    · show (Function.update l.objects k.chain _ c).tail = some w
      rw [Function.update_apply]
      split
      · rename_i heq
        exact heq ▸ hw
      · exact hw
    · obtain ⟨j', hj', rfl⟩ := lookup_from hk hj
      exact hlast u j' hj' hjkey
  · have hkey := hpending key
    cases hold : l.chains key with
    | none =>
      have hnone := h.vacant hold
      show pendingIn _ _ = 0
      simp only [KeyLock.move]
      omega
    | some c =>
      refine Nat.eq_zero_of_not_pos fun hbusy => Option.some_ne_none c ?_
      exact ((hchains key c).mpr ⟨hold, hbusy⟩).symm.trans hc
  · have hbusy := pendingIn_pos hj hreleased
    obtain ⟨i, hi, rfl⟩ := lookup_from hk hj
    refine (hchains i.key i.chain).mpr ⟨h.owner hi fun hi' => hreleased ?_, hbusy⟩
    dsimp only
    split
    · rfl
    · exact hi'
  · have hkey := hpending key
    have hbound := h.bound key
    show pendingIn _ _ ≤ _
    simp only [KeyLock.move]
    omega

theorem Inv.release (h : l.Inv) (hstep : l.release t = some l') : l'.Inv := by
  refine ⟨?_, h.counted.release hstep⟩
  obtain ⟨k, hk, hstage, rfl⟩ := release_cases hstep
  refine h.ordered.set hk (fun _ => rfl) ?_
  exact fun _ _ _ hearlier => h.ordered.order hearlier (by simp [hstage])

/-- The chain object a new task joins counts the tasks of its key, and no other key has it. -/
structure Joined (l : KeyLock) (key : String) (c : ℕ) (chain : KeyChain) : Prop where
  pending : chain.pending = pendingIn l.tickets key
  own : ∀ key' c', l.chains key' = some c' → (c' = c ↔ key' = key)
  last : ∀ u j, l.tickets[u]? = some j → j.key = key →
    j.stage.isSettled = true ∨ ∃ w, chain.tail = some w ∧ u ≤ w
  tail : ∀ w, chain.tail = some w → ∃ j, l.tickets[w]? = some j ∧ j.key = key

theorem Counted.joined (h : l.Counted) (key : String) :
    l.Joined key (l.chainOf key).1 (l.chainOf key).2 := by
  unfold chainOf
  cases hc : l.chains key with
  | some c =>
    obtain ⟨_, hobject, _, w, i, hw, hi, hikey, hlast⟩ := h.entry hc
    refine ⟨hobject, fun key' c' hc' => ⟨fun heq => ?_, fun heq => ?_⟩,
      fun u j hj hjkey => .inr ⟨w, hw, hlast u j hj hjkey⟩, fun w' hw' => ?_⟩
    · exact h.distinct hc' (heq ▸ hc)
    · subst heq
      exact Option.some.inj (hc'.symm.trans hc)
    · cases hw.symm.trans hw'
      exact ⟨i, hi, hikey⟩
  | none =>
    have hnone := h.vacant hc
    refine ⟨hnone.symm, fun key' c' hc' => ⟨fun heq => ?_, fun heq => ?_⟩,
      fun u j hj hjkey => .inl ?_, fun _ hw => by cases hw⟩
    · have hlt := (h.entry hc').allocated
      exact absurd heq (Nat.ne_of_lt hlt)
    · subst heq
      rw [hc] at hc'
      cases hc'
    · have hreleased : j.stage = .released := by
        by_contra hstage
        have hpos := pendingIn_pos hj hstage
        rw [hjkey, hnone] at hpos
        exact Nat.lt_irrefl 0 hpos
      rw [hreleased]
      rfl

theorem withKeyLock_cases {key : String} (h : l.withKeyLock key = some l') :
    (l.chainOf key).2.pending < MAX_PENDING_PER_KEY ∧ l' = {
      chains := Function.update l.chains key (some (l.chainOf key).1)
      objects := Function.update l.objects (l.chainOf key).1
        ⟨some l.tickets.length, (l.chainOf key).2.pending + 1⟩
      allocated := max l.allocated ((l.chainOf key).1 + 1)
      tickets := l.tickets ++ [⟨key, (l.chainOf key).1, (l.chainOf key).2.tail, .queued⟩] } := by
  unfold withKeyLock at h
  dsimp only at h
  split at h
  · cases h
  · rename_i hroom
    cases h
    exact ⟨Nat.lt_of_not_le hroom, rfl⟩

theorem withKeyLock_eq_none (h : l.Counted) (key : String) :
    l.withKeyLock key = none ↔ MAX_PENDING_PER_KEY ≤ pendingIn l.tickets key := by
  have hpending := (h.joined key).pending
  unfold withKeyLock
  dsimp only
  rw [hpending]
  split
  · exact iff_of_true rfl ‹_›
  · exact iff_of_false (by simp) ‹_›

theorem Counted.withKeyLock {key : String} (h : l.Counted) (hstep : l.withKeyLock key = some l') :
    l'.Counted := by
  have hjoined := h.joined key
  obtain ⟨hroom, rfl⟩ := withKeyLock_cases hstep
  generalize (l.chainOf key).1 = c, (l.chainOf key).2 = chain at hjoined hroom
  have hpending := fun key' => pendingIn_snoc l.tickets
    (k := ⟨key, c, chain.tail, .queued⟩) rfl key'
  have hpending_ne : ∀ {key'}, key' ≠ key →
      pendingIn (l.tickets ++ [⟨key, c, chain.tail, .queued⟩]) key' = pendingIn l.tickets key' :=
    fun hne => (hpending _).trans (by rw [if_neg (Ne.symm hne), Nat.add_zero])
  have hpending_self : pendingIn (l.tickets ++ [⟨key, c, chain.tail, .queued⟩]) key =
      pendingIn l.tickets key + 1 := (hpending key).trans (by rw [if_pos rfl])
  refine ⟨fun {key' c'} hc => ?_, fun {key'} hc => ?_, fun {u j} hj hreleased => ?_,
    fun {key₁ key₂ c'} hc hc' => ?_, fun key' => ?_⟩
  · by_cases hkey : key' = key
    · subst hkey
      cases (Function.update_self key' (some c) l.chains).symm.trans hc
      refine ⟨Nat.lt_of_lt_of_le (Nat.lt_succ_self c) (Nat.le_max_right _ _), ?_, ?_,
        l.tickets.length, _, ?_, lookup_snoc.mpr (.inr ⟨rfl, rfl⟩), rfl, fun u j hj _ => ?_⟩
      · show (Function.update l.objects c _ c).pending = _
        rw [Function.update_self, hpending_self, hjoined.pending]
      · rw [hpending_self]
        exact Nat.succ_pos _
      · show (Function.update l.objects c _ c).tail = _
        rw [Function.update_self]
      · rcases lookup_snoc.mp hj with hold | ⟨rfl, _⟩
        · exact Nat.le_of_lt (List.getElem?_eq_some_iff.mp hold).1
        · exact Nat.le_refl _
    · have hold : l.chains key' = some c' := (Function.update_of_ne hkey _ _).symm.trans hc
      have hne : c' ≠ c := fun heq => hkey ((hjoined.own key' c' hold).mp heq)
      obtain ⟨hallocated, hobject, hbusy, w, i, hw, hi, hikey, hlast⟩ := h.entry hold
      refine ⟨Nat.lt_of_lt_of_le hallocated (Nat.le_max_left _ _), ?_, ?_, w, i, ?_,
        lookup_snoc.mpr (.inl hi), hikey, fun u j hj hjkey => ?_⟩
      · show (Function.update l.objects c _ c').pending = _
        rw [Function.update_of_ne hne, hpending_ne hkey, hobject]
      · rw [hpending_ne hkey]
        exact hbusy
      · show (Function.update l.objects c _ c').tail = _
        rw [Function.update_of_ne hne, hw]
      · rcases lookup_snoc.mp hj with hjold | ⟨_, rfl⟩
        · exact hlast u j hjold hjkey
        · exact absurd hjkey.symm hkey
  · have hkey : key' ≠ key := fun heq => by
      subst heq
      exact Option.some_ne_none c ((Function.update_self key' (some c) l.chains).symm.trans hc)
    exact (hpending_ne hkey).trans (h.vacant ((Function.update_of_ne hkey _ _).symm.trans hc))
  · show Function.update l.chains key (some c) j.key = some j.chain
    rw [Function.update_apply]
    rcases lookup_snoc.mp hj with hold | ⟨_, rfl⟩
    · have howner := h.owner hold hreleased
      split
      · rename_i hkey
        exact congrArg some ((hjoined.own j.key j.chain howner).mpr hkey).symm
      · exact howner
    · rw [if_pos rfl]
  · have hfrom : ∀ {key'}, Function.update l.chains key (some c) key' = some c' →
        (c' = c ↔ key' = key) ∧ (key' ≠ key → l.chains key' = some c') := by
      intro key' hkey'
      by_cases hkey : key' = key
      · subst hkey
        cases (Function.update_self key' (some c) l.chains).symm.trans hkey'
        exact ⟨iff_of_true rfl rfl, fun hne => absurd rfl hne⟩
      · have hold := (Function.update_of_ne hkey _ _).symm.trans hkey'
        exact ⟨hjoined.own key' c' hold, fun _ => hold⟩
    by_cases hkey : c' = c
    · exact ((hfrom hc).1.mp hkey).trans ((hfrom hc').1.mp hkey).symm
    · exact h.distinct ((hfrom hc).2 fun heq => hkey ((hfrom hc).1.mpr heq))
        ((hfrom hc').2 fun heq => hkey ((hfrom hc').1.mpr heq))
  · by_cases hkey : key' = key
    · subst hkey
      have hle := hjoined.pending ▸ hroom
      exact hpending_self.trans_le hle
    · exact (hpending_ne hkey).trans_le (h.bound key')

theorem Inv.withKeyLock {key : String} (h : l.Inv) (hstep : l.withKeyLock key = some l') :
    l'.Inv := by
  refine ⟨?_, h.counted.withKeyLock hstep⟩
  have hjoined := h.counted.joined key
  obtain ⟨_, rfl⟩ := withKeyLock_cases hstep
  exact h.ordered.snoc rfl hjoined.last hjoined.tail

end Steps

/-- One ticket goes from a stage to the next one, the others stay. -/
structure Moves (l l' : KeyLock) (t : ℕ) (k : Ticket) (stage : TicketStage) : Prop where
  ticket : l.tickets[t]? = some k
  tickets : l'.tickets = l.tickets.set t { k with stage }

section Moves
variable {l l' : KeyLock} {t : ℕ}

theorem start_moves (h : l.start t = some l') :
    ∃ k, l.Moves l' t k .running ∧ k.stage = .queued := by
  obtain ⟨k, hk, hstage, _, rfl⟩ := start_cases h
  exact ⟨k, ⟨hk, rfl⟩, hstage⟩

theorem finish_moves (h : l.finish t = some l') :
    ∃ k, l.Moves l' t k .finished ∧ k.stage = .running := by
  obtain ⟨k, hk, hstage, rfl⟩ := finish_cases h
  exact ⟨k, ⟨hk, rfl⟩, hstage⟩

theorem settle_moves (h : l.settle t = some l') :
    ∃ k, l.Moves l' t k .settled ∧ k.stage = .finished := by
  obtain ⟨k, hk, hstage, rfl⟩ := settle_cases h
  exact ⟨k, ⟨hk, rfl⟩, hstage⟩

theorem release_moves (h : l.release t = some l') :
    ∃ k, l.Moves l' t k .released ∧ k.stage = .settled := by
  obtain ⟨k, hk, hstage, rfl⟩ := release_cases h
  exact ⟨k, ⟨hk, rfl⟩, hstage⟩

theorem withKeyLock_tickets {key : String} (h : l.withKeyLock key = some l') :
    ∃ k : Ticket, k.key = key ∧ k.stage = .queued ∧ l'.tickets = l.tickets ++ [k] := by
  obtain ⟨_, rfl⟩ := withKeyLock_cases h
  exact ⟨_, rfl, rfl, rfl⟩

theorem Moves.lookup {k : Ticket} {stage : TicketStage} (h : l.Moves l' t k stage) (u : ℕ) :
    l'.tickets[u]? = if t = u then some { k with stage } else l.tickets[u]? := by
  rw [h.tickets]
  exact lookup_set h.ticket _ u

theorem Moves.refl {k : Ticket} (hk : l.tickets[t]? = some k) : l.Moves l t k k.stage := by
  refine ⟨hk, List.ext_getElem? fun u => ?_⟩
  rw [lookup_set hk]
  split
  · rename_i htu
    exact htu ▸ hk
  · rfl

def keyOf (l : KeyLock) (t : ℕ) : Option String := l.tickets[t]?.map Ticket.key

theorem Moves.keyOf_eq {k : Ticket} {stage : TicketStage} (h : l.Moves l' t k stage) (u : ℕ) :
    l'.keyOf u = l.keyOf u := by
  rw [keyOf, keyOf, h.lookup]
  split
  · rename_i htu
    subst htu
    rw [h.ticket]
    rfl
  · rfl

theorem keyOf_snoc {k : Ticket} (htickets : l'.tickets = l.tickets ++ [k]) {u : ℕ}
    (hu : u < l.tickets.length) : l'.keyOf u = l.keyOf u := by
  rw [keyOf, keyOf, htickets, List.getElem?_append_left hu]

theorem keyOf_of_lookup {k : Ticket} (hk : l.tickets[t]? = some k) : l.keyOf t = some k.key := by
  rw [keyOf, hk]
  rfl

end Moves

section Consequences
variable {l : KeyLock} (h : l.Inv)
include h

theorem Inv.exclusive {t u : ℕ} {k j : Ticket} (hk : l.tickets[t]? = some k)
    (hj : l.tickets[u]? = some j) (hkey : k.key = j.key) (hkwork : k.stage.atWork = true)
    (hjwork : j.stage.atWork = true) : t = u := by
  have hstarted : ∀ {s : TicketStage}, s.atWork = true → s ≠ .queued := by
    intro s hs hqueued
    rw [hqueued] at hs
    cases hs
  have hunsettled : ∀ {s : TicketStage}, s.atWork = true → s.isSettled ≠ true := by
    intro s hs hsettled
    cases s with
    | running | finished => cases hsettled
    | queued | settled | released => cases hs
  rcases Nat.lt_trichotomy t u with hlt | heq | hlt
  · exact absurd (h.ordered.order ⟨hk, hj, hlt, hkey⟩ (hstarted hjwork)) (hunsettled hkwork)
  · exact heq
  · exact absurd (h.ordered.order ⟨hj, hk, hlt, hkey.symm⟩ (hstarted hkwork)) (hunsettled hjwork)

theorem Inv.start_isSome {t : ℕ} {k : Ticket} (hk : l.tickets[t]? = some k)
    (hqueued : k.stage = .queued) : (l.start t).isSome ↔
      ∀ u j, Earlier l.tickets u t j k → j.stage.isSettled = true := by
  have hstart : (l.start t).isSome ↔ l.hasSettled k.tail = true := by
    rw [KeyLock.start, hk, Option.bind_some]
    split
    · rename_i hguard
      exact iff_of_true rfl hguard.2
    · rename_i hguard
      exact iff_of_false Bool.false_ne_true fun htail => hguard ⟨hqueued, htail⟩
  refine hstart.trans ⟨fun htail u j hearlier => h.ordered.headed hk htail hearlier, fun hall => ?_⟩
  cases htail : k.tail with
  | none => rfl
  | some w =>
    obtain ⟨j, hearlier⟩ := h.ordered.tail hk htail
    rw [hasSettled, hearlier.first]
    exact hall w j hearlier

theorem Inv.entry_iff (key : String) :
    (l.chains key).isSome ↔ 0 < pendingIn l.tickets key := by
  cases hc : l.chains key with
  | none => exact iff_of_false (by simp) (by rw [h.counted.vacant hc]; exact Nat.lt_irrefl 0)
  | some c => exact iff_of_true rfl (h.counted.entry hc).busy

end Consequences
end KeyLock
end Guardian
