import Guardian.Defaults.RateLimiter
import Guardian.Lib.Eviction

/-!
# The fixed-window counter of the bundled store

The in-memory store with its lazy deletion and its sweep, the limiter over it by `consume`
and by `read` and `write`, and the counter that keeps every window forever. They agree where
the sum of the second and the width is not rounded over a whole second; the fallback, which
reads the clock twice before it decides, only if no window of the key called closes between
the two.
-/

namespace Guardian
open Eviction RateLimitState

def SWEEP_PERIOD : ℕ := 256

structure InMemoryRateLimitStore where
  map : OrderedMap String RateLimitState
  writes : ℕ

namespace InMemoryRateLimitStore

def empty : InMemoryRateLimitStore := ⟨.empty, 0⟩

def sweep (s : InMemoryRateLimitStore) (nowSec : ℤ) : InMemoryRateLimitStore :=
  { s with map := s.map.filter fun e => !decide (e.2.resetUnixSeconds ≤ nowSec) }

def countWrite (s : InMemoryRateLimitStore) (nowSec : ℤ) : InMemoryRateLimitStore :=
  let s := { s with writes := s.writes + 1 }
  if s.writes % SWEEP_PERIOD = 0 then s.sweep nowSec else s

def read (s : InMemoryRateLimitStore) (nowSec : ℤ) (key : String) :
    Option RateLimitState × InMemoryRateLimitStore :=
  match s.map.get? key with
  | none => (none, s)
  | some entry =>
    if entry.resetUnixSeconds ≤ nowSec then (none, { s with map := s.map.delete key })
    else (some entry, s)

def write (s : InMemoryRateLimitStore) (nowSec : ℤ) (key : String) (state : RateLimitState) :
    InMemoryRateLimitStore :=
  { s with map := s.map.set key state }.countWrite nowSec

def consume (s : InMemoryRateLimitStore) (r : RateLimiter) (nowSec : ℤ) (key : String) :
    RateLimitDecision × InMemoryRateLimitStore :=
  let d := r.decide nowSec (s.map.get? key)
  if d.allowed then (d, { s with map := s.map.set key d.state }.countWrite nowSec) else (d, s)

end InMemoryRateLimitStore

/-- One call, with the clock as its own reads see it; a read that is not made changes nothing. -/
structure LimiterCall where
  key : String
  limiterMs : ℤ
  readMs : ℤ
  writeMs : ℤ
  answerMs : ℤ

structure LimiterCall.Clocked (c : LimiterCall) : Prop where
  read : c.limiterMs ≤ c.readMs
  write : c.readMs ≤ c.writeMs
  answer : c.writeMs ≤ c.answerMs

/-- The clock does not go back within a call, nor from one call to the next. -/
structure ClockedCalls (calls : List LimiterCall) : Prop where
  within : ∀ c ∈ calls, c.Clocked
  order : calls.Pairwise fun c c' => c.answerMs ≤ c'.limiterMs

theorem ClockedCalls.tail {c : LimiterCall} {calls : List LimiterCall}
    (h : ClockedCalls (c :: calls)) :
    ClockedCalls calls ∧ ∀ c' ∈ calls, secondsOf c.writeMs ≤ secondsOf c'.limiterMs := by
  obtain ⟨hlater, hpairwise⟩ := List.pairwise_cons.mp h.order
  refine ⟨⟨fun c' hc' => h.within c' (.tail _ hc'), hpairwise⟩, fun c' hc' => ?_⟩
  exact secondsOf_mono ((h.within c (.head _)).answer.trans (hlater c' hc'))

abbrev LimiterOutcome := RateLimitDecision × Except RateLimitFailure RateLimitAllowance

/-- The window of every key called so far, closed or not. -/
abbrev WindowRecord := String → Option RateLimitState

namespace RateLimiter
variable (r : RateLimiter)

def consumeCall (s : InMemoryRateLimitStore) (c : LimiterCall) :
    RateLimitDecision × InMemoryRateLimitStore :=
  s.consume r (secondsOf c.limiterMs) c.key

/-- A limiter call that has the key to itself, through `read` and `write`. -/
def readModifyWrite (s : InMemoryRateLimitStore) (c : LimiterCall) :
    RateLimitDecision × InMemoryRateLimitStore :=
  let (previous, s) := s.read (secondsOf c.readMs) c.key
  let d := r.decide (secondsOf c.limiterMs) previous
  if d.allowed then (d, s.write (secondsOf c.writeMs) c.key d.state) else (d, s)

def exactEnd (nowSec : ℤ) : ℚ := ⌈(nowSec : ℚ) + r.windowSeconds⌉

/-- The reference: nothing is ever deleted, and nothing is rounded. -/
def recordCall (record : WindowRecord) (c : LimiterCall) : RateLimitDecision × WindowRecord :=
  let t := secondsOf c.limiterMs
  let opened : RateLimitState := ⟨1, r.exactEnd t⟩
  match record c.key with
  | none => (⟨true, opened.count, opened.resetUnixSeconds⟩,
      Function.update record c.key (some opened))
  | some w =>
    if w.resetUnixSeconds ≤ t then (⟨true, opened.count, opened.resetUnixSeconds⟩,
      Function.update record c.key (some opened))
    else if w.count ≥ r.limit then (⟨false, w.count, w.resetUnixSeconds⟩, record)
    else (⟨true, w.count + 1, w.resetUnixSeconds⟩,
      Function.update record c.key (some ⟨w.count + 1, w.resetUnixSeconds⟩))

def outcomes {S : Type} (call : S → LimiterCall → RateLimitDecision × S) :
    S → List LimiterCall → List LimiterOutcome
  | _, [] => []
  | s, c :: calls =>
    let (d, s) := call s c
    (d, r.answer d (secondsOf c.answerMs)) :: outcomes call s calls

theorem outcomes_cons {S : Type} (call : S → LimiterCall → RateLimitDecision × S) (s : S)
    (c : LimiterCall) (calls : List LimiterCall) : r.outcomes call s (c :: calls) =
      ((call s c).1, r.answer (call s c).1 (secondsOf c.answerMs)) ::
        r.outcomes call (call s c).2 calls := rfl

def stateAfter {S : Type} (call : S → LimiterCall → RateLimitDecision × S) (s : S)
    (calls : List LimiterCall) : S := calls.foldl (fun s c => (call s c).2) s

/-- The window closes between the limiter's clock read and the one of `store.read`. -/
def ClosesDuring (c : LimiterCall) (w : RateLimitState) : Prop :=
  secondsOf c.limiterMs < w.resetUnixSeconds ∧ w.resetUnixSeconds ≤ secondsOf c.readMs

/-- A condition on what the reference has on record, at every call. -/
def AtEach (good : WindowRecord → LimiterCall → Prop) (record : WindowRecord)
    (calls : List LimiterCall) : Prop :=
  ∀ before c after, calls = before ++ c :: after → good (stateAfter r.recordCall record before) c

/-- The window on record for the key does not close during the call. -/
def StaysOpen (record : WindowRecord) (c : LimiterCall) : Prop :=
  ∀ w, record c.key = some w → ¬ClosesDuring c w

/-- If the call opens a window, the code computes its end as if nothing were rounded. -/
def OpensExactly (record : WindowRecord) (c : LimiterCall) : Prop :=
  (∀ w, record c.key = some w → w.ClosedBy (secondsOf c.limiterMs)) →
    r.windowEnd (secondsOf c.limiterMs) = r.exactEnd (secondsOf c.limiterMs)

/-- At no call the window on record for its key closes during the call. -/
abbrev Undisturbed : WindowRecord → List LimiterCall → Prop := r.AtEach StaysOpen

abbrev Unrounded : WindowRecord → List LimiterCall → Prop := r.AtEach r.OpensExactly

abbrev Shows (last : ℤ) (s : InMemoryRateLimitStore) (record : WindowRecord) : Prop :=
  Evicts (ClosedBy last) s.map record

section Store
variable {s : InMemoryRateLimitStore} {record : WindowRecord} {last nowSec : ℤ} {key : String}

theorem shows_countWrite (h : Shows last s record) (hle : last ≤ nowSec) :
    Shows nowSec (s.countWrite nowSec) record := by
  rw [InMemoryRateLimitStore.countWrite]
  split
  · refine h.filter (ClosedBy.mono hle) fun e hdrop => ?_
    simpa using hdrop
  · exact h.mono (ClosedBy.mono hle)

theorem shows_write (h : Shows last s record) (hle : last ≤ nowSec) (key : String)
    (state : RateLimitState) :
    Shows nowSec (s.write nowSec key state) (Function.update record key (some state)) :=
  shows_countWrite (h.set key state) hle

theorem shows_read (h : Shows last s record) (hle : last ≤ nowSec) :
    Evicted (ClosedBy nowSec) (s.read nowSec key).1 (record key) ∧
      Shows nowSec (s.read nowSec key).2 record := by
  have hkey := (h key).mono (ClosedBy.mono hle)
  have hrest := h.mono (ClosedBy.mono hle)
  rw [InMemoryRateLimitStore.read]
  generalize s.map.get? key = stored at hkey
  match stored, hkey with
  | none, hkey => exact ⟨hkey, hrest⟩
  | some w, hkey =>
    have hrecord : record key = some w := by
      generalize record key = full at hkey
      cases hkey
      rfl
    dsimp only
    split
    · rename_i hclosed
      exact ⟨hrecord ▸ .lost hclosed, hrest.delete hrecord hclosed⟩
    · exact ⟨hrecord ▸ .kept _, hrest⟩

theorem read_closed {w : RateLimitState} (h : Shows last s record) (hrecord : record key = some w)
    (hclosed : w.ClosedBy nowSec) : (s.read nowSec key).1 = none := by
  have hkey := h key
  rw [hrecord] at hkey
  rw [InMemoryRateLimitStore.read]
  cases hget : s.map.get? key with
  | none => rfl
  | some v =>
    rw [hget] at hkey
    cases hkey
    dsimp only
    rw [if_pos hclosed]

theorem decide_evicted {stored full : Option RateLimitState}
    (h : Evicted (ClosedBy nowSec) stored full) :
    r.decide nowSec stored = r.decide nowSec full :=
  h.read_eq (r.decide nowSec) fun _ hclosed => r.decide_closed hclosed

theorem recordCall_eq {c : LimiterCall} (h : r.OpensExactly record c) : r.recordCall record c =
    let d := r.decide (secondsOf c.limiterMs) (record c.key)
    (d, if d.allowed then Function.update record c.key (some d.state) else record) := by
  unfold OpensExactly at h
  unfold recordCall decide
  generalize record c.key = shown at h
  cases shown with
  | none =>
    rw [h fun w hw => by cases hw]
    rfl
  | some w =>
    dsimp only
    split
    · rename_i hclosed
      rw [h fun w' hw => Option.some.inj hw ▸ hclosed]
      rfl
    · split <;> rfl

theorem recordCall_ne {c : LimiterCall} (h : ¬r.OpensExactly record c) :
    r.decide (secondsOf c.limiterMs) (record c.key) ≠ (r.recordCall record c).1 := by
  unfold OpensExactly at h
  unfold recordCall decide
  generalize record c.key = shown at h
  rw [Classical.not_imp] at h
  obtain ⟨hopens, hends⟩ := h
  intro heq
  cases shown with
  | none => exact hends (congrArg RateLimitDecision.resetUnixSeconds heq)
  | some w =>
    have hclosed : w.resetUnixSeconds ≤ secondsOf c.limiterMs := hopens w rfl
    dsimp only at heq
    rw [if_pos hclosed, if_pos hclosed] at heq
    exact hends (congrArg RateLimitDecision.resetUnixSeconds heq)

end Store

section Call
variable {s : InMemoryRateLimitStore} {record : WindowRecord} {last : ℤ} {c : LimiterCall}

theorem consumeCall_decision (h : Shows last s record) (hle : last ≤ secondsOf c.limiterMs) :
    (r.consumeCall s c).1 = r.decide (secondsOf c.limiterMs) (record c.key) := by
  rw [consumeCall, InMemoryRateLimitStore.consume,
    r.decide_evicted ((h c.key).mono (ClosedBy.mono hle))]
  split <;> rfl

theorem consumeCall_step (h : Shows last s record) (hle : last ≤ secondsOf c.limiterMs)
    (hexact : r.OpensExactly record c) : (r.consumeCall s c).1 = (r.recordCall record c).1 ∧
      Shows (secondsOf c.limiterMs) (r.consumeCall s c).2 (r.recordCall record c).2 := by
  have hdecide := r.decide_evicted ((h c.key).mono (ClosedBy.mono hle))
  rw [r.recordCall_eq hexact, consumeCall, InMemoryRateLimitStore.consume, hdecide]
  dsimp only
  split
  · exact ⟨rfl, shows_write h hle c.key _⟩
  · exact ⟨rfl, h.mono (ClosedBy.mono hle)⟩

theorem read_stillOpen (h : Shows last s record) (hle : last ≤ secondsOf c.limiterMs)
    (hclock : c.Clocked) (hopen : StaysOpen record c) :
    Evicted (ClosedBy (secondsOf c.limiterMs)) (s.read (secondsOf c.readMs) c.key).1
        (record c.key) ∧
      Shows (secondsOf c.readMs) (s.read (secondsOf c.readMs) c.key).2 record := by
  have hread : Evicted (ClosedBy (secondsOf c.readMs)) (s.read (secondsOf c.readMs) c.key).1
      (record c.key) ∧ Shows (secondsOf c.readMs) (s.read (secondsOf c.readMs) c.key).2 record :=
    shows_read h (hle.trans (secondsOf_mono hclock.read))
  refine ⟨?_, hread.2⟩
  unfold StaysOpen at hopen
  generalize (s.read (secondsOf c.readMs) c.key).1 = seen, record c.key = full at hread hopen
  cases hread.1 with
  | kept => exact .kept _
  | lost hclosed => exact .lost (not_lt.mp fun hlt => hopen _ rfl ⟨hlt, hclosed⟩)

theorem readModifyWrite_decision (h : Shows last s record) (hle : last ≤ secondsOf c.limiterMs)
    (hclock : c.Clocked) (hopen : StaysOpen record c) :
    (r.readModifyWrite s c).1 = r.decide (secondsOf c.limiterMs) (record c.key) := by
  rw [← r.decide_evicted (read_stillOpen h hle hclock hopen).1, readModifyWrite]
  dsimp only
  split <;> rfl

theorem readModifyWrite_step (h : Shows last s record) (hle : last ≤ secondsOf c.limiterMs)
    (hclock : c.Clocked) (hopen : StaysOpen record c) (hexact : r.OpensExactly record c) :
    (r.readModifyWrite s c).1 = (r.recordCall record c).1 ∧
      Shows (secondsOf c.writeMs) (r.readModifyWrite s c).2 (r.recordCall record c).2 := by
  obtain ⟨hseen, hshows⟩ := read_stillOpen h hle hclock hopen
  have hwrite := secondsOf_mono hclock.write
  rw [r.recordCall_eq hexact, ← r.decide_evicted hseen, readModifyWrite]
  dsimp only
  split
  · exact ⟨rfl, shows_write hshows hwrite c.key _⟩
  · exact ⟨rfl, hshows.mono (ClosedBy.mono hwrite)⟩

theorem readModifyWrite_closing (h : Shows last s record) {w : RateLimitState}
    (hrecord : record c.key = some w) (hcount : 0 < w.count) (hclosing : ClosesDuring c w) :
    (r.readModifyWrite s c).1 ≠ (r.recordCall record c).1 := by
  have hopened : (r.readModifyWrite s c).1 = ⟨true, 1, r.windowEnd (secondsOf c.limiterMs)⟩ := by
    rw [readModifyWrite]
    dsimp only
    rw [read_closed h hrecord hclosing.2]
    rfl
  have hexact : r.OpensExactly record c := fun hclosed =>
    absurd (hclosed w hrecord) (not_le.mpr hclosing.1)
  rw [hopened, r.recordCall_eq hexact, hrecord]
  rcases Nat.lt_or_ge w.count r.limit with hroom | hfull
  · rw [r.decide_open hclosing.1 hroom]
    intro heq
    have hone : 1 = w.count + 1 := congrArg RateLimitDecision.count heq
    omega
  · rw [r.decide_full hclosing.1 hfull]
    intro heq
    cases congrArg RateLimitDecision.allowed heq

theorem recordCall_counts (h : ∀ key w, record key = some w → 0 < w.count) (key : String)
    (w : RateLimitState) (hw : (r.recordCall record c).2 key = some w) : 0 < w.count := by
  have hupdate : ∀ {w' : RateLimitState}, 0 < w'.count →
      Function.update record c.key (some w') key = some w → 0 < w.count := by
    intro w' hpos hw
    rw [Function.update_apply] at hw
    split at hw
    · exact Option.some.inj hw ▸ hpos
    · exact h key w hw
  unfold recordCall at hw
  dsimp only at hw
  split at hw
  · exact hupdate Nat.one_pos hw
  · split at hw
    · exact hupdate Nat.one_pos hw
    · split at hw
      · exact h key w hw
      · exact hupdate (Nat.succ_pos _) hw

end Call

section Calls
variable {s : InMemoryRateLimitStore} {record : WindowRecord} {last : ℤ} {calls : List LimiterCall}

theorem atEach_cons {good : WindowRecord → LimiterCall → Prop} {c : LimiterCall} :
    r.AtEach good record (c :: calls) ↔
      good record c ∧ r.AtEach good (r.recordCall record c).2 calls := by
  refine ⟨fun h => ⟨h [] c calls rfl, fun before c' after heq => ?_⟩,
    fun h before c' after heq => ?_⟩
  · exact h (c :: before) c' after (congrArg (c :: ·) heq)
  · cases before with
    | nil =>
      cases heq
      exact h.1
    | cons d before =>
      cases heq
      exact h.2 before c' after rfl

theorem outcomes_iff {call : InMemoryRateLimitStore → LimiterCall →
      RateLimitDecision × InMemoryRateLimitStore} {good : WindowRecord → LimiterCall → Prop}
    (hstep : ∀ {s record last} {c : LimiterCall}, Shows last s record →
      last ≤ secondsOf c.limiterMs → c.Clocked → good record c →
        (call s c).1 = (r.recordCall record c).1 ∧
          Shows (secondsOf c.writeMs) (call s c).2 (r.recordCall record c).2)
    (hbad : ∀ {s record last} {c : LimiterCall}, Shows last s record →
      last ≤ secondsOf c.limiterMs → c.Clocked → (∀ key w, record key = some w → 0 < w.count) →
        ¬good record c → (call s c).1 ≠ (r.recordCall record c).1)
    (h : Shows last s record) (hclock : ClockedCalls calls)
    (hcounts : ∀ key w, record key = some w → 0 < w.count)
    (hstart : ∀ c ∈ calls, last ≤ secondsOf c.limiterMs) :
    r.outcomes call s calls = r.outcomes r.recordCall record calls ↔
      r.AtEach good record calls := by
  induction calls generalizing s record last with
  | nil =>
    refine iff_of_true rfl fun before c after heq => ?_
    cases before <;> cases heq
  | cons c calls ih =>
    obtain ⟨hrest, hlater⟩ := hclock.tail
    have hclocked := hclock.within c (.head _)
    rw [atEach_cons]
    by_cases hgood : good record c
    · obtain ⟨hdecision, hshows⟩ := hstep h (hstart c (.head _)) hclocked hgood
      have htail := ih hshows hrest (r.recordCall_counts hcounts) hlater
      rw [outcomes_cons, outcomes_cons, hdecision, List.cons_inj_right, htail]
      exact (and_iff_right hgood).symm
    · refine iff_of_false (fun heq => ?_) fun hall => hgood hall.1
      exact hbad h (hstart c (.head _)) hclocked hcounts hgood
        (congrArg Prod.fst (List.cons.inj heq).1)

theorem consumeCall_outcomes (h : Shows last s record) (hclock : ClockedCalls calls)
    (hcounts : ∀ key w, record key = some w → 0 < w.count)
    (hstart : ∀ c ∈ calls, last ≤ secondsOf c.limiterMs) :
    r.outcomes r.consumeCall s calls = r.outcomes r.recordCall record calls ↔
      r.Unrounded record calls := by
  refine r.outcomes_iff (fun h hle hclocked hexact => ?_) (fun h hle _ _ hrounded => ?_) h hclock
    hcounts hstart
  · obtain ⟨hdecision, hshows⟩ := r.consumeCall_step h hle hexact
    exact ⟨hdecision, hshows.mono
      (ClosedBy.mono (secondsOf_mono (hclocked.read.trans hclocked.write)))⟩
  · rw [r.consumeCall_decision h hle]
    exact r.recordCall_ne hrounded

theorem readModifyWrite_outcomes (h : Shows last s record) (hclock : ClockedCalls calls)
    (hcounts : ∀ key w, record key = some w → 0 < w.count)
    (hstart : ∀ c ∈ calls, last ≤ secondsOf c.limiterMs) :
    r.outcomes r.readModifyWrite s calls = r.outcomes r.recordCall record calls ↔
      r.Undisturbed record calls ∧ r.Unrounded record calls := by
  have hiff := r.outcomes_iff (fun h hle hclocked hgood => r.readModifyWrite_step h hle hclocked
      (And.left hgood) (And.right hgood)) (fun {s record last c} h hle hclocked hcounts hbad => ?_)
    h hclock hcounts hstart
  · refine hiff.trans ⟨fun hall => ⟨fun before c after heq => (hall before c after heq).1,
      fun before c after heq => (hall before c after heq).2⟩, fun hall before c after heq =>
        ⟨hall.1 before c after heq, hall.2 before c after heq⟩⟩
  · by_cases hopen : StaysOpen record c
    · rw [r.readModifyWrite_decision h hle hclocked hopen]
      exact r.recordCall_ne fun hexact => hbad ⟨hopen, hexact⟩
    · simp only [StaysOpen, not_forall, not_not] at hopen
      obtain ⟨w, hrecord, hclosing⟩ := hopen
      exact r.readModifyWrite_closing h hrecord (hcounts _ w hrecord) hclosing

end Calls
end RateLimiter

theorem shows_empty (last : ℤ) : RateLimiter.Shows last .empty fun _ => none :=
  fun _ => .kept _

/-- Through `consume` the limiter is the counter that keeps every window, exactly when no window is
opened with a rounded end; through `read` and `write` exactly when, besides, no window of a called
key closes between the two clock reads. -/
theorem fixed_window_iff (r : RateLimiter) (calls : List LimiterCall)
    (hclock : ClockedCalls calls) :
    (r.outcomes r.consumeCall .empty calls = r.outcomes r.recordCall (fun _ => none) calls ↔
      r.Unrounded (fun _ => none) calls) ∧
    (r.outcomes r.readModifyWrite .empty calls = r.outcomes r.recordCall (fun _ => none) calls ↔
      r.Undisturbed (fun _ => none) calls ∧ r.Unrounded (fun _ => none) calls) := by
  have hlast : ∃ last, ∀ c ∈ calls, last ≤ secondsOf c.limiterMs := by
    cases calls with
    | nil => exact ⟨0, fun c hc => by cases hc⟩
    | cons c calls =>
      refine ⟨secondsOf c.limiterMs, fun c' hc' => ?_⟩
      rcases List.mem_cons.mp hc' with rfl | hmem
      · exact le_rfl
      · have hwithin := hclock.within c (.head _)
        exact (secondsOf_mono (hwithin.read.trans hwithin.write)).trans (hclock.tail.2 c' hmem)
  obtain ⟨last, hstart⟩ := hlast
  exact ⟨r.consumeCall_outcomes (shows_empty last) hclock (fun _ _ h => by cases h) hstart,
    r.readModifyWrite_outcomes (shows_empty last) hclock (fun _ _ h => by cases h) hstart⟩

namespace Sample

/-- The second call comes a millisecond before the window ends, and its store call after. -/
def tickingCalls : List LimiterCall :=
  [⟨"k", 10000, 10000, 10000, 10000⟩, ⟨"k", 10999, 11000, 11000, 11000⟩]

def restingCalls : List LimiterCall :=
  [⟨"k", 10000, 10000, 10000, 10000⟩, ⟨"k", 11000, 11000, 11000, 11000⟩]

/-- Sixty nanoseconds, which are lost on the seconds of a present-day clock. -/
def narrow : RateLimiter := ⟨1, 1 / 2 ^ 24, Nat.one_pos, by norm_num⟩

def presentCalls : List LimiterCall :=
  .replicate 2 ⟨"k", 1700000000000, 1700000000000, 1700000000000, 1700000000000⟩

end Sample

/-- A window that ends between two clock reads is opened again by the fallback, and one whose
width is lost in the sum is opened again by `consume`. -/
theorem window_reopened : (ClockedCalls Sample.tickingCalls ∧
    Sample.oneASecond.outcomes Sample.oneASecond.readModifyWrite .empty Sample.tickingCalls ≠
      Sample.oneASecond.outcomes Sample.oneASecond.recordCall (fun _ => none)
        Sample.tickingCalls) ∧
    ClockedCalls Sample.presentCalls ∧
    Sample.narrow.outcomes Sample.narrow.consumeCall .empty Sample.presentCalls ≠
      Sample.narrow.outcomes Sample.narrow.recordCall (fun _ => none) Sample.presentCalls := by
  have hadmitted : (Sample.oneASecond.outcomes Sample.oneASecond.readModifyWrite .empty
      Sample.tickingCalls).map (fun o => o.1.allowed) = [true, true] := by decide +kernel
  have hdenied : (Sample.oneASecond.outcomes Sample.oneASecond.recordCall (fun _ => none)
      Sample.tickingCalls).map (fun o => o.1.allowed) = [true, false] := by decide +kernel
  have hnarrow : (Sample.narrow.outcomes Sample.narrow.consumeCall .empty
      Sample.presentCalls).map (fun o => o.1.allowed) = [true, true] := by decide +kernel
  have hexact : (Sample.narrow.outcomes Sample.narrow.recordCall (fun _ => none)
      Sample.presentCalls).map (fun o => o.1.allowed) = [true, false] := by decide +kernel
  refine ⟨⟨⟨fun c hc => ?_, by decide⟩, fun heq => ?_⟩, ⟨fun c hc => ?_, by decide⟩,
    fun heq => ?_⟩
  · simp only [Sample.tickingCalls, List.mem_cons, List.not_mem_nil, or_false] at hc
    rcases hc with rfl | rfl <;> exact ⟨by decide, by decide, by decide⟩
  · rw [heq, hdenied] at hadmitted
    cases hadmitted
  · rw [(List.mem_replicate.mp hc).2]
    exact ⟨le_rfl, le_rfl, le_rfl⟩
  · rw [heq, hexact] at hnarrow
    cases hnarrow

theorem fixed_window_iff_resting :
    (Sample.oneASecond.outcomes Sample.oneASecond.consumeCall .empty Sample.restingCalls =
      Sample.oneASecond.outcomes Sample.oneASecond.recordCall (fun _ => none)
        Sample.restingCalls) ∧
    Sample.oneASecond.Undisturbed (fun _ => none) Sample.restingCalls ∧
    Sample.oneASecond.Unrounded (fun _ => none) Sample.restingCalls := by
  obtain ⟨hconsume, hfallback⟩ := fixed_window_iff Sample.oneASecond Sample.restingCalls
    ⟨fun c hc => by
      simp only [Sample.restingCalls, List.mem_cons, List.not_mem_nil, or_false] at hc
      rcases hc with rfl | rfl <;> exact ⟨by decide, by decide, by decide⟩, by decide⟩
  have hgood := hfallback.mp (by decide +kernel)
  exact ⟨hconsume.mpr hgood.2, hgood⟩

end Guardian
