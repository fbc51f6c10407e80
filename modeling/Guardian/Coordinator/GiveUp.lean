import Guardian.Coordinator.SignDeadline
import Guardian.Coordinator.SubmissionGate
import Guardian.Core.SamePayload

/-!
# Giving up on a signing request

The rows a process visits, poll after poll, and the rule that a row is given up on: its
signing call has been cut off twice. The count goes by the text of the deadline's error,
so it only works under a whole number of milliseconds.
-/

namespace Guardian
open Effect

structure Visit (G : Signature) where
  request : SigningRequest
  gaveUp : Bool
  events : History G

section Visits
variable {G : Signature}

/-- The rows visited so far by the polls of one guardian, from one count to another. -/
inductive Visits (guardian : CoordinatorGuardian G) (t : SignTimeouts) :
    List (Visit G) → SignTimeouts → Prop where
  | nil : Visits guardian t [] t
  | row {visits : List (Visit G)} {options : GuardianCoordinatorOptions G} {item : Json}
      {request : SigningRequest} {s s' : PollState} {tr : History G}
      (before : Visits guardian t visits s.timeouts) (shared : options.guardian = guardian)
      (parses : zSigningRequest item = some request)
      (handled : Executes (handleItem options item s) tr s') :
      Visits guardian t (visits ++ [⟨request, s.gaveUp request.id, tr⟩]) s'.timeouts

inductive Visiting (guardian : CoordinatorGuardian G) (t : SignTimeouts) :
    List (Visit G) → Prop where
  | idle {visits : List (Visit G)} {t' : SignTimeouts} (before : Visits guardian t visits t') :
      Visiting guardian t visits
  | inside {visits : List (Visit G)} {options : GuardianCoordinatorOptions G} {item : Json}
      {request : SigningRequest} {s : PollState} {tr : History G} {q : Coordinating G PollState}
      (before : Visits guardian t visits s.timeouts) (shared : options.guardian = guardian)
      (parses : zSigningRequest item = some request)
      (running : Runs (handleItem options item s) tr q) :
      Visiting guardian t (visits ++ [⟨request, s.gaveUp request.id, tr⟩])

def IsRowOp : (coord G).Op → Bool
  | .inl _ => true
  | .inr (.putNonce ..) => true
  | .inr (.putSubmission ..) => true
  | .inr (.log (.submitted _)) => true
  | .inr (.log (.failed ..)) => true
  | _ => false

def rowEvents (tr : History G) : History G := tr.filter fun e => IsRowOp e.op

def runPolls : List (GuardianCoordinatorOptions G × ℕ) → SignTimeouts → Coordinating G SignTimeouts
  | [], timeouts => return timeouts
  | (options, fuel) :: polls, timeouts => do
    let timeouts ← runGuardianCoordinatorCycle options fuel timeouts
    runPolls polls timeouts

theorem handleItem_performs {options : GuardianCoordinatorOptions G} {item : Json}
    {request : SigningRequest} (h : zSigningRequest item = some request) (s : PollState) :
    (handleItem options item s).Performs fun op => IsRowOp op = true := by
  unfold handleItem
  rw [h]
  dsimp only
  split
  · trivial
  · refine .bind (Program.performs_of_runs fun tr op next hrun => ?_) fun handled => ?_
    · cases handleRequest_asks hrun with
      | computing => rfl
      | reserving => rfl
      | signing => rfl
      | submitting => rfl
    · match handled with
      | .ok .skipped => trivial
      | .ok .signed => exact ⟨rfl, fun _ => trivial⟩
      | .error e => exact ⟨rfl, fun _ => trivial⟩

theorem rowEvents_append {tr tr' : History G} (h : ∀ e ∈ tr', IsRowOp e.op = true) :
    rowEvents (tr ++ tr') = rowEvents tr ++ tr' := by
  rw [rowEvents, List.filter_append, List.filter_eq_self.mpr h]
  rfl

theorem rowEvents_snoc {tr : History G} {e : Event (coord G)} (h : IsRowOp e.op = false) :
    rowEvents (tr ++ [e]) = rowEvents tr := by
  rw [rowEvents, List.filter_append, List.filter_cons_of_neg (by rw [h]; decide), List.filter_nil,
    List.append_nil]
  rfl

variable {guardian : CoordinatorGuardian G} {t : SignTimeouts}

/-- Between rows: the visits so far account for the history. -/
def Accounted (guardian : CoordinatorGuardian G) (t t' : SignTimeouts) (hist : History G) : Prop :=
  ∃ visits, Visits guardian t visits t' ∧ rowEvents hist = visits.flatMap Visit.events

def Accounting (guardian : CoordinatorGuardian G) (t : SignTimeouts) (hist : History G) : Prop :=
  ∃ visits, Visiting guardian t visits ∧ rowEvents hist = visits.flatMap Visit.events

theorem Accounted.accounting {t' : SignTimeouts} {hist : History G}
    (h : Accounted guardian t t' hist) : Accounting guardian t hist := by
  obtain ⟨visits, hvisits, hevents⟩ := h
  exact ⟨visits, .idle hvisits, hevents⟩

theorem Accounted.snoc {t' : SignTimeouts} {hist : History G} {e : Event (coord G)}
    (h : Accounted guardian t t' hist) (he : IsRowOp e.op = false) :
    Accounted guardian t t' (hist ++ [e]) := by
  obtain ⟨visits, hvisits, hevents⟩ := h
  exact ⟨visits, hvisits, (rowEvents_snoc he).trans hevents⟩

/-- Every request is issued with the visits so far accounted for. -/
def visitProtocol (guardian : CoordinatorGuardian G) (t : SignTimeouts) :
    Protocol (coord G) (History G) :=
  .history (fun hist _ => Accounting guardian t hist) fun _ => True

theorem handleItem_accounted {options : GuardianCoordinatorOptions G}
    (hguardian : options.guardian = guardian) {item : Json} {s : PollState} {hist : History G}
    (h : Accounted guardian t s.timeouts hist) :
    (handleItem options item s).Obeys (visitProtocol guardian t)
      (fun hist' s' => Accounted guardian t s'.timeouts hist') hist := by
  cases hitem : zSigningRequest item with
  | none =>
    unfold handleItem
    rw [hitem]
    exact .call_bind h.accounting fun _ _ => .pure (h.snoc rfl)
  | some request =>
    obtain ⟨visits, hvisits, hevents⟩ := h
    have hstate : ∀ tr, (visitProtocol guardian t).state hist tr = hist ++ tr :=
      Protocol.history_state _ _ hist
    have hflat : ∀ (tr : History G) (q : Coordinating G PollState),
        Runs (handleItem options item s) tr q → rowEvents (hist ++ tr) =
          (visits ++ [(⟨request, s.gaveUp request.id, tr⟩ : Visit G)]).flatMap Visit.events := by
      intro tr q hrun
      rw [rowEvents_append ((handleItem_performs hitem s).runs hrun), hevents, List.flatMap_append,
        List.flatMap_singleton]
    refine Program.obeys_of_runs (fun tr op next hrun => ?_) fun tr s' hrun => ?_
    · rw [hstate]
      exact ⟨_, .inside hvisits hguardian hitem hrun, hflat tr _ hrun⟩
    · rw [hstate]
      exact ⟨_, .row hvisits hguardian hitem hrun, hflat tr _ hrun⟩

theorem visit_rule {options : GuardianCoordinatorOptions G}
    (hguardian : options.guardian = guardian) :
    PollRule (visitProtocol guardian t) options (Accounted guardian t) fun _ _ => True where
  page timeouts hist filter page h :=
    ⟨h.accounting, fun answer _ => ⟨h.snoc rfl, fun _ _ _ _ _ _ => trivial⟩⟩
  item s hist item h _ := (handleItem_accounted hguardian h).mono fun _ _ h =>
    ⟨h, fun _ _ => trivial⟩
  log timeouts hist line hline h := by
    cases line with
    | pollFailed => exact ⟨h.accounting, h.snoc rfl⟩
    | heartbeat => exact ⟨h.accounting, h.snoc rfl⟩
    | malformed => cases hline
    | submitted => cases hline
    | failed => cases hline

theorem runPolls_accounted {polls : List (GuardianCoordinatorOptions G × ℕ)}
    (hguardian : ∀ poll ∈ polls, poll.1.guardian = guardian) {t' : SignTimeouts}
    {hist : History G} (h : Accounted guardian t t' hist) :
    (runPolls polls t').Obeys (visitProtocol guardian t)
      (fun hist' t'' => Accounted guardian t t'' hist') hist := by
  induction polls generalizing t' hist with
  | nil => exact .pure h
  | cons poll polls ih =>
    exact .bind ((visit_rule (hguardian poll (.head _))).runGuardianCoordinatorCycle_obeys poll.2 h)
      fun hist' t'' h' => ih (fun p hp => hguardian p (.tail _ hp)) h'

theorem runPolls_visiting {polls : List (GuardianCoordinatorOptions G × ℕ)}
    (hguardian : ∀ poll ∈ polls, poll.1.guardian = guardian) {tr : History G}
    {q : Coordinating G SignTimeouts} (hrun : Runs (runPolls polls t) tr q) :
    Accounting guardian t tr := by
  have hstart : Accounted guardian t t [] := ⟨[], .nil, rfl⟩
  have hobeys := (runPolls_accounted hguardian hstart).runs hrun
    (Protocol.follows_of_forall (fun _ _ h => h) fun _ _ => trivial)
  have hstate : (visitProtocol guardian t).state [] tr = tr := Protocol.history_state _ _ [] tr
  rw [hstate] at hobeys
  cases q with
  | done t' => exact Accounted.accounting hobeys
  | perform op next => exact hobeys.1

end Visits

section Rule
variable {H : Signature}

def Visit.isCut (visit : Visit (hosted H)) : Bool := visit.events.any isCutOff

def cutOffs (id : String) (visits : List (Visit (hosted H))) : ℕ :=
  (visits.filter fun visit => decide (visit.request.id = id) && visit.isCut).length

/-- A request is given up on exactly after two cut-offs, is then left alone, and so has
cost at most two budgets. -/
structure GivesUp (visits : List (Visit (hosted H))) : Prop where
  gaveUp : ∀ before visit after, visits = before ++ visit :: after →
    (visit.gaveUp = true ↔ 2 ≤ cutOffs visit.request.id before)
  left : ∀ visit ∈ visits, visit.gaveUp = true → visit.events = []
  budgets : ∀ id, cutOffs id visits ≤ 2

theorem hit_hits (s : PollState) (id id' : String) (e : Caught) :
    (s.hit id e).timeouts.hits id' =
      s.timeouts.hits id' + if id = id' ∧ isSignTimeout e = true then 1 else 0 := by
  unfold PollState.hit
  by_cases he : isSignTimeout e = true
  · rw [if_pos he]
    show ((OrderedMap.set s.timeouts id _).get? id').getD 0 = _
    by_cases hid : id = id'
    · rw [if_pos ⟨hid, he⟩, hid, OrderedMap.get?_set, if_pos rfl]
      rfl
    · rw [if_neg fun h => hid h.1, OrderedMap.get?_set, if_neg (Ne.symm hid)]
      rfl
  · rw [if_neg he, if_neg fun h => he h.2, Nat.add_zero]

theorem cutProtocol_state (cut : Bool) (tr : History (hosted H)) :
    cutProtocol.state cut tr = (cut || tr.any isCutOff) := by
  induction tr generalizing cut with
  | nil => exact (Bool.or_false cut).symm
  | cons e tr ih =>
    rw [List.any_cons, ← Bool.or_assoc]
    exact ih (cut || isCutOff e)

variable {host : CoordinatorGuardian H} {ms : ℚ} {options : GuardianCoordinatorOptions (hosted H)}
  {item : Json} {request : SigningRequest} {s s' : PollState} {tr : History (hosted H)}

theorem handleItem_left {q : Coordinating (hosted H) PollState}
    (hitem : zSigningRequest item = some request)
    (hskip : (request.mySubmission.isSome || s.gaveUp request.id) = true)
    (hrun : Runs (handleItem options item s) tr q) : tr = [] ∧ q = .done s.skip := by
  unfold handleItem at hrun
  rw [hitem] at hrun
  dsimp only at hrun
  rw [if_pos hskip] at hrun
  exact runs_done.mp hrun

theorem settleRequest_hits {handled : Except Caught Handled}
    (hrun : Executes (settleRequest request s handled : Coordinating (hosted H) PollState) tr s')
    (id : String) : tr.any isCutOff = false ∧ s'.timeouts.hits id = s.timeouts.hits id +
      if request.id = id ∧ timedOut handled = true then 1 else 0 := by
  match handled, hrun with
  | .ok .skipped, hrun =>
    obtain ⟨rfl, hs⟩ := runs_done.mp hrun
    cases hs
    exact ⟨rfl, by simp [timedOut]⟩
  | .ok .signed, hrun =>
    obtain ⟨r, tr', rfl, hlogged⟩ := executes_perform.mp hrun
    obtain ⟨rfl, hs⟩ := runs_done.mp hlogged
    cases hs
    exact ⟨rfl, by simp [timedOut]⟩
  | .error e, hrun =>
    obtain ⟨r, tr', rfl, hlogged⟩ := executes_perform.mp hrun
    obtain ⟨rfl, hs⟩ := runs_done.mp hlogged
    cases hs
    exact ⟨rfl, hit_hits s request.id id e⟩

theorem handleItem_hits (hms : InTimeoutRange ms) (hquiet : host.IsQuiet)
    (hguardian : options.guardian = host.deadlined ms)
    (hitem : zSigningRequest item = some request)
    (hrun : Executes (handleItem options item s) tr s') (hanswers : ∀ e ∈ tr, QuietAnswer e)
    (id : String) : s'.timeouts.hits id = s.timeouts.hits id +
      if request.id = id ∧ tr.any isCutOff = true ∧ ms.den = 1 then 1 else 0 := by
  by_cases hskip : (request.mySubmission.isSome || s.gaveUp request.id) = true
  · obtain ⟨rfl, hs⟩ := handleItem_left hitem hskip hrun
    cases hs
    rw [if_neg (by simp)]
    rfl
  · unfold handleItem at hrun
    rw [hitem] at hrun
    dsimp only at hrun
    rw [if_neg hskip] at hrun
    obtain ⟨tr₁, tr₂, handled, rfl, hhandled, hsettled⟩ := executes_bind.mp hrun
    have htells : Tells ms (tr₁.any isCutOff) handled := by
      have h := (handleRequest_obeys hms hquiet hguardian).executes hhandled
        (Protocol.follows_of_forall (fun _ _ he => he)
          fun e he => hanswers e (List.mem_append_left _ he))
      rwa [cutProtocol_state, Bool.false_or] at h
    obtain ⟨hquiet₂, hhits⟩ := settleRequest_hits hsettled id
    rw [hhits, List.any_append, hquiet₂, Bool.or_false]
    have hcut : timedOut handled = true ↔ tr₁.any isCutOff = true ∧ ms.den = 1 := by
      rw [show timedOut handled = _ from htells, Bool.and_eq_true, decide_eq_true_iff]
    simp only [hcut]

theorem cutOffs_snoc (id : String) (visits : List (Visit (hosted H))) (visit : Visit (hosted H)) :
    cutOffs id (visits ++ [visit]) =
      cutOffs id visits + if visit.request.id = id ∧ visit.isCut = true then 1 else 0 := by
  unfold cutOffs
  rw [List.filter_append, List.length_append]
  congr 1
  by_cases h : visit.request.id = id ∧ visit.isCut = true
  · rw [if_pos h, List.filter_cons_of_pos (by simpa using h)]
    rfl
  · rw [if_neg h, List.filter_cons_of_neg (by simpa using h)]
    rfl

theorem split_snoc {α : Type} {l before after : List α} {x y : α}
    (h : l ++ [x] = before ++ y :: after) :
    (before = l ∧ y = x) ∨ ∃ after', l = before ++ y :: after' := by
  rcases List.eq_nil_or_concat after with rfl | ⟨after', z, rfl⟩
  · obtain ⟨hl, hx⟩ := List.append_inj' h rfl
    exact .inl ⟨hl.symm, (List.cons.inj hx).1.symm⟩
  · rw [List.concat_eq_append, ← List.cons_append, ← List.append_assoc] at h
    exact .inr ⟨after', (List.append_inj' h rfl).1⟩

def QuietVisits (visits : List (Visit (hosted H))) : Prop :=
  ∀ visit ∈ visits, ∀ e ∈ visit.events, QuietAnswer e

variable {visits : List (Visit (hosted H))} {t : SignTimeouts}

theorem visits_hits (hms : InTimeoutRange ms) (hquiet : host.IsQuiet)
    (h : Visits (host.deadlined ms) .empty visits t) (hanswers : QuietVisits visits)
    (id : String) : t.hits id = if ms.den = 1 then cutOffs id visits else 0 := by
  induction h with
  | nil => split <;> rfl
  | @row visits options item request s s' tr before shared parses handled ih =>
    have hbefore := ih fun visit hvisit => hanswers visit (List.mem_append_left _ hvisit)
    have hlast : ∀ e ∈ tr, QuietAnswer e := hanswers _ (List.mem_append_right _ (.head _))
    rw [handleItem_hits hms hquiet shared parses handled hlast, hbefore, cutOffs_snoc]
    by_cases hden : ms.den = 1
    · simp only [hden, if_true, and_true]
      rfl
    · simp only [hden, if_false, and_false]

theorem gaveUp_iff {t : SignTimeouts} {stats : PollCycleStats} {id : String} :
    PollState.gaveUp ⟨t, stats⟩ id = true ↔ 2 ≤ t.hits id := decide_eq_true_iff

theorem GivesUp.snoc {q : Coordinating (hosted H) PollState} (h : GivesUp visits)
    (hcount : ∀ id, s.timeouts.hits id = cutOffs id visits)
    (parses : zSigningRequest item = some request)
    (running : Runs (handleItem options item s) tr q) :
    GivesUp (visits ++ [⟨request, s.gaveUp request.id, tr⟩]) := by
  have hgaveUp : s.gaveUp request.id = true ↔ 2 ≤ cutOffs request.id visits := by
    rw [← hcount]
    exact gaveUp_iff
  have hleft : s.gaveUp request.id = true → tr = [] := fun hup =>
    (handleItem_left parses (by rw [hup, Bool.or_true]) running).1
  refine ⟨fun before visit after hsplit => ?_, fun visit hvisit => ?_, fun id => ?_⟩
  · rcases split_snoc hsplit with ⟨rfl, rfl⟩ | ⟨after', hvisits⟩
    · exact hgaveUp
    · exact h.gaveUp before visit after' hvisits
  · rcases List.mem_append.mp hvisit with hvisit | hvisit
    · exact h.left visit hvisit
    · rw [List.mem_singleton.mp hvisit]
      exact hleft
  · have hbefore := h.budgets id
    rw [cutOffs_snoc]
    split
    case isTrue hcut =>
      obtain ⟨rfl, hcut⟩ := hcut
      by_contra hmore
      have htr := hleft (hgaveUp.mpr (by dsimp only at hmore; omega))
      rw [htr] at hcut
      cases hcut
    case isFalse => exact hbefore

theorem Visiting.rule {P : List (Visit (hosted H)) → Prop}
    {guardian : CoordinatorGuardian (hosted H)}
    (nil : P [])
    (snoc : ∀ {visits : List (Visit (hosted H))} {options : GuardianCoordinatorOptions (hosted H)}
      {item : Json} {request : SigningRequest} {s : PollState} {tr : History (hosted H)}
      {q : Coordinating (hosted H) PollState}, Visits guardian .empty visits s.timeouts → P visits →
      zSigningRequest item = some request → Runs (handleItem options item s) tr q →
      P (visits ++ [⟨request, s.gaveUp request.id, tr⟩]))
    (h : Visiting guardian .empty visits) : P visits := by
  have hvisits : ∀ {visits : List (Visit (hosted H))} {t : SignTimeouts},
      Visits guardian .empty visits t → P visits := by
    intro visits t h
    induction h with
    | nil => exact nil
    | row before shared parses handled ih => exact snoc before ih parses handled
  cases h with
  | idle before => exact hvisits before
  | inside before shared parses running => exact snoc before (hvisits before) parses running

theorem QuietVisits.before {visit : Visit (hosted H)} (h : QuietVisits (visits ++ [visit])) :
    QuietVisits visits := fun v hv => h v (List.mem_append_left _ hv)

theorem visiting_givesUp (hms : InTimeoutRange ms) (hquiet : host.IsQuiet) (hwhole : ms.den = 1)
    (h : Visiting (host.deadlined ms) .empty visits) (hanswers : QuietVisits visits) :
    GivesUp visits := by
  revert hanswers
  refine h.rule (P := fun visits => QuietVisits visits → GivesUp visits) (fun _ => ?_) ?_
  · exact ⟨fun before _ _ hsplit => by simp at hsplit, by simp, fun _ => Nat.zero_le 2⟩
  · intro visits options item request s tr q before ih parses running hanswers
    refine (ih hanswers.before).snoc (fun id => ?_) parses running
    rw [visits_hits hms hquiet before hanswers.before, if_pos hwhole]

theorem visiting_never (hms : InTimeoutRange ms) (hquiet : host.IsQuiet) (hfraction : ms.den ≠ 1)
    (h : Visiting (host.deadlined ms) .empty visits) (hanswers : QuietVisits visits) :
    ∀ visit ∈ visits, visit.gaveUp = false := by
  revert hanswers
  refine h.rule (P := fun visits => QuietVisits visits → ∀ visit ∈ visits, visit.gaveUp = false)
    (fun _ => by simp) ?_
  intro visits options item request s tr q before ih parses running hanswers visit hvisit
  rcases List.mem_append.mp hvisit with hvisit | hvisit
  · exact ih hanswers.before visit hvisit
  · rw [List.mem_singleton.mp hvisit]
    have hhits := visits_hits hms hquiet before hanswers.before request.id
    rw [if_neg hfraction] at hhits
    refine Bool.eq_false_iff.mpr fun hup => ?_
    have htwo : 2 ≤ s.timeouts.hits request.id := gaveUp_iff.mp hup
    omega

end Rule

namespace Sample

def facility : Address := "0x00000000000000000000000000000000000000a1"

def bindingRow : Json :=
  .obj [("id", .str "r1"), ("kind", .str "set_request"), ("chainId", .num 1),
    ("facility", .str facility), ("payloadHash", .str ""), ("body", bindingJson facility),
    ("mySubmission", .null)]

def pageOfOne : Json :=
  .obj [("total", .num 1), ("page", .num 1), ("pageSize", .num 100), ("items", .arr [bindingRow])]

theorem guardian_isQuiet : guardian.IsQuiet where
  probeUpstream probe h := by cases h
  getChainClient _ := rfl
  signIntentRequestBinding _ := rfl
  signIntentFundBinding _ := rfl
  signIntentSwap _ := rfl
  signRequestWhitelisting sign h body := by
    cases h
    rfl
  whitelistNonceCandidates compute h body := by
    cases h
    rfl

def cutOptions (ms : ℚ) : GuardianCoordinatorOptions (hosted noOps) :=
  ⟨guardian.deadlined ms, 100, none, none⟩

def bindingRequest : SigningRequest :=
  ⟨"r1", .setRequest, 1, facility, "", bindingJson facility, none⟩

def cutOff : Event (coord (hosted noOps)) := ⟨.inl (.inr ()), true⟩

def failure (ms : ℚ) (up : Bool) : Event (coord (hosted noOps)) :=
  ⟨.inr (.log (.failed "r1" (signDeadline ms) up)), ()⟩

theorem cut_visit {ms : ℚ} {s s' : PollState} {up : Bool} (hgoes : s.gaveUp "r1" = false)
    (hsettles : (settleRequest bindingRequest s (.error (signDeadline ms)) :
      Coordinating (hosted noOps) PollState) = .perform (failure ms up).op fun _ => .done s') :
    Executes (handleItem (cutOptions ms) bindingRow s) [cutOff, failure ms up] s' := by
  have hrow : zSigningRequest bindingRow = some bindingRequest := rfl
  obtain ⟨next, hitem, hnext⟩ : ∃ next : Bool → Coordinating (hosted noOps) PollState,
      handleItem (cutOptions ms) bindingRow s = .perform cutOff.op next ∧
        next true = settleRequest bindingRequest s (.error (signDeadline ms)) := by
    unfold handleItem
    rw [hrow]
    dsimp only
    rw [show s.gaveUp bindingRequest.id = false from hgoes]
    exact ⟨_, rfl, rfl⟩
  rw [hitem]
  refine executes_perform.mpr ⟨true, [failure ms up], rfl, ?_⟩
  rw [hnext, hsettles]
  exact executes_perform.mpr ⟨(), [], rfl, .refl _⟩

theorem left_visit {ms : ℚ} {s : PollState} (hup : s.gaveUp "r1" = true) :
    Executes (handleItem (cutOptions ms) bindingRow s) [] s.skip := by
  have hrow : zSigningRequest bindingRow = some bindingRequest := rfl
  unfold handleItem
  rw [hrow]
  dsimp only
  rw [show s.gaveUp bindingRequest.id = true from hup]
  exact .refl _

def pageEvent : Event (coord (hosted noOps)) :=
  ⟨.inr (.getSigningRequests ⟨none, none⟩ 1 100), .ok pageOfOne⟩

def heartbeat (stats : PollCycleStats) : Event (coord (hosted noOps)) :=
  ⟨.inr (.log (.heartbeat true stats)), ()⟩

abbrev fetched (timeouts : SignTimeouts) : PollState := ⟨timeouts, ⟨1, 0, 0, 0⟩⟩

theorem row_cycle {ms : ℚ} {timeouts : SignTimeouts} {tr : History (hosted noOps)} {s : PollState}
    (h : Executes (handleItem (cutOptions ms) bindingRow (fetched timeouts)) tr s) :
    Executes (runGuardianCoordinatorCycle (cutOptions ms) 1 timeouts)
      (pageEvent :: (tr ++ [heartbeat s.stats])) s.timeouts := by
  obtain ⟨rest, hcycle, hpage⟩ :
      ∃ rest : Except Caught Json → Coordinating (hosted noOps) SignTimeouts,
      runGuardianCoordinatorCycle (cutOptions ms) 1 timeouts = .perform pageEvent.op rest ∧
        rest (.ok pageOfOne) = (handleItem (cutOptions ms) bindingRow (fetched timeouts)).bind
          fun s => .perform (heartbeat s.stats).op fun _ => .done s.timeouts :=
    ⟨_, rfl, by
      show ((((handleItem (cutOptions ms) bindingRow _).bind _).bind _).bind _).bind _ = _
      rw [Program.bind_bind, Program.bind_bind, Program.bind_bind]
      refine congrArg (Program.bind _) (funext fun s => ?_)
      rw [show handleItems (cutOptions ms) [] s = .done s from rfl, Program.bind_done,
        if_pos (.inr (by decide +kernel))]
      rfl⟩
  rw [hcycle]
  refine executes_perform.mpr ⟨.ok pageOfOne, tr ++ [heartbeat s.stats], rfl, ?_⟩
  rw [hpage]
  exact executes_bind.mpr ⟨tr, [heartbeat s.stats], s, rfl, h,
    executes_perform.mpr ⟨(), [], rfl, .refl _⟩⟩

def threePolls (ms : ℚ) : List (GuardianCoordinatorOptions (hosted noOps) × ℕ) :=
  [(cutOptions ms, 1), (cutOptions ms, 1), (cutOptions ms, 1)]

theorem threePolls_guardian (ms : ℚ) :
    ∀ poll ∈ threePolls ms, poll.1.guardian = guardian.deadlined ms := by
  intro poll hpoll
  simp only [threePolls, List.mem_cons, List.not_mem_nil, or_false, or_self] at hpoll
  rw [hpoll]
  rfl

theorem three_cycles {ms : ℚ} {t t₁ t₂ t₃ : SignTimeouts} {tr₁ tr₂ tr₃ : History (hosted noOps)}
    (h₁ : Executes (runGuardianCoordinatorCycle (cutOptions ms) 1 t) tr₁ t₁)
    (h₂ : Executes (runGuardianCoordinatorCycle (cutOptions ms) 1 t₁) tr₂ t₂)
    (h₃ : Executes (runGuardianCoordinatorCycle (cutOptions ms) 1 t₂) tr₃ t₃) :
    Executes (runPolls (threePolls ms) t) (tr₁ ++ (tr₂ ++ (tr₃ ++ []))) t₃ :=
  executes_bind.mpr ⟨_, _, _, rfl, h₁, executes_bind.mpr ⟨_, _, _, rfl, h₂,
    executes_bind.mpr ⟨_, _, _, rfl, h₃, .refl _⟩⟩⟩

theorem visits_row {ms : ℚ} {visits : List (Visit (hosted noOps))} {timeouts : SignTimeouts}
    {s : PollState} {tr : History (hosted noOps)} {up : Bool}
    (h : Visits (guardian.deadlined ms) .empty visits timeouts)
    (hup : (fetched timeouts).gaveUp "r1" = up)
    (hrow : Executes (handleItem (cutOptions ms) bindingRow (fetched timeouts)) tr s) :
    Visits (guardian.deadlined ms) .empty (visits ++ [⟨bindingRequest, up, tr⟩]) s.timeouts :=
  hup ▸ .row h rfl rfl hrow

theorem six_counted : isSignTimeout (signDeadline 6000) = true := by decide +kernel

theorem settle_counted (s : PollState) :
    (settleRequest bindingRequest s (.error (signDeadline 6000)) :
      Coordinating (hosted noOps) PollState) =
      .perform (failure 6000 ((s.hit "r1" (signDeadline 6000)).gaveUp "r1")).op
        fun _ => .done (s.hit "r1" (signDeadline 6000)).fail := by
  unfold settleRequest
  dsimp only
  rw [six_counted, Bool.true_and]
  rfl

def hitOnce : PollState := (fetched .empty).hit "r1" (signDeadline 6000)

def hitTwice : PollState := (fetched hitOnce.timeouts).hit "r1" (signDeadline 6000)

theorem hitOnce_hits : hitOnce.timeouts.hits "r1" = 1 := by
  rw [hitOnce, hit_hits, if_pos ⟨rfl, six_counted⟩]
  rfl

theorem hitTwice_hits : hitTwice.timeouts.hits "r1" = 2 := by
  rw [hitTwice, hit_hits, hitOnce_hits, if_pos ⟨rfl, six_counted⟩]

theorem hitOnce_goes : (fetched hitOnce.timeouts).gaveUp "r1" = false :=
  decide_eq_false (by rw [hitOnce_hits]; decide)

theorem hitTwice_up : (fetched hitTwice.timeouts).gaveUp "r1" = true :=
  decide_eq_true (by rw [hitTwice_hits]; decide)

def wholeVisits : List (Visit (hosted noOps)) :=
  [⟨bindingRequest, false, [cutOff, failure 6000 false]⟩,
    ⟨bindingRequest, false, [cutOff, failure 6000 true]⟩, ⟨bindingRequest, true, []⟩]

theorem first_visit : Executes (handleItem (cutOptions 6000) bindingRow (fetched .empty))
    [cutOff, failure 6000 false] hitOnce.fail := by
  refine cut_visit rfl ((settle_counted _).trans ?_)
  rw [show ((fetched .empty).hit "r1" (signDeadline 6000)).gaveUp "r1" = false from hitOnce_goes]
  rfl

theorem second_visit : Executes (handleItem (cutOptions 6000) bindingRow
    (fetched hitOnce.timeouts)) [cutOff, failure 6000 true] hitTwice.fail := by
  refine cut_visit hitOnce_goes ((settle_counted _).trans ?_)
  rw [show ((fetched hitOnce.timeouts).hit "r1" (signDeadline 6000)).gaveUp "r1" = true from
    hitTwice_up]
  rfl

theorem third_visit : Executes (handleItem (cutOptions 6000) bindingRow
    (fetched hitTwice.timeouts)) [] (fetched hitTwice.timeouts).skip :=
  left_visit hitTwice_up

theorem whole_visits : Visits (guardian.deadlined 6000) .empty wholeVisits hitTwice.timeouts := by
  have hcut := visits_row (visits_row .nil rfl first_visit) hitOnce_goes second_visit
  have hleft := visits_row hcut hitTwice_up third_visit
  exact hleft

def wholeTrace : History (hosted noOps) :=
  [pageEvent, cutOff, failure 6000 false, heartbeat ⟨1, 0, 0, 1⟩, pageEvent, cutOff,
    failure 6000 true, heartbeat ⟨1, 0, 0, 1⟩, pageEvent, heartbeat ⟨1, 0, 1, 0⟩]

theorem whole_polls :
    Executes (runPolls (threePolls 6000) .empty) wholeTrace hitTwice.timeouts :=
  three_cycles (row_cycle first_visit) (row_cycle second_visit) (row_cycle third_visit)

theorem whole_quiet : ∀ e ∈ wholeTrace, QuietAnswer e := by
  simp only [wholeTrace, List.forall_mem_cons]
  exact ⟨trivial, trivial, trivial, trivial, trivial, trivial, trivial, trivial, trivial, trivial,
    fun _ h => by cases h⟩

end Sample

/-- Every run of the polls is a sequence of visits; under a whole number of milliseconds
it obeys the give-up rule, under any other accepted budget it gives up on nothing. -/
theorem give_up_rule {H : Signature} (host : CoordinatorGuardian H) (hquiet : host.IsQuiet)
    (timeouts : GuardianTimeouts) (resolved : ResolvedGuardianTimeouts)
    (hresolved : resolveGuardianTimeouts timeouts = .ok resolved)
    (polls : List (GuardianCoordinatorOptions (hosted H) × ℕ))
    (hguardian : ∀ poll ∈ polls, poll.1.guardian = host.deadlined resolved.signMs)
    (tr : History (hosted H)) (q : Coordinating (hosted H) SignTimeouts)
    (hrun : Runs (runPolls polls .empty) tr q) (hanswers : ∀ e ∈ tr, QuietAnswer e) :
    Accounting (host.deadlined resolved.signMs) .empty tr ∧
    ∀ visits, Visiting (host.deadlined resolved.signMs) .empty visits →
      rowEvents tr = visits.flatMap Visit.events →
      (resolved.signMs.den = 1 → GivesUp visits) ∧
      (resolved.signMs.den ≠ 1 → ∀ visit ∈ visits, visit.gaveUp = false) := by
  obtain ⟨-, -, -, hms⟩ := resolved_inRange hresolved
  refine ⟨runPolls_visiting hguardian hrun, fun visits hvisits hevents => ?_⟩
  have hquietVisits : QuietVisits visits := by
    intro visit hvisit e he
    have hmem : e ∈ rowEvents tr := by
      rw [hevents]
      exact List.mem_flatMap.mpr ⟨visit, hvisit, he⟩
    exact hanswers e (List.mem_of_mem_filter hmem)
  exact ⟨fun hwhole => visiting_givesUp hms hquiet hwhole hvisits hquietVisits,
    fun hfraction => visiting_never hms hquiet hfraction hvisits hquietVisits⟩

/-- Two cut-offs in three polls; the third leaves the request alone. -/
theorem give_up_rule_defaults : ∃ (tr : History (hosted Sample.noOps))
    (visits : List (Visit (hosted Sample.noOps))),
    Executes (runPolls (Sample.threePolls 6000) .empty) tr Sample.hitTwice.timeouts ∧
      Visiting (Sample.guardian.deadlined 6000) .empty visits ∧
      rowEvents tr = visits.flatMap Visit.events ∧
      visits.map Visit.gaveUp = [false, false, true] ∧ cutOffs "r1" visits = 2 ∧
      GivesUp visits := by
  have hrule := give_up_rule Sample.guardian Sample.guardian_isQuiet ⟨none, none, none, none⟩
    DEFAULT_GUARDIAN_TIMEOUTS rfl (Sample.threePolls 6000) (Sample.threePolls_guardian 6000) _ _
    Sample.whole_polls Sample.whole_quiet
  have hvisiting := Visiting.idle Sample.whole_visits
  have hevents : rowEvents Sample.wholeTrace = Sample.wholeVisits.flatMap Visit.events := rfl
  exact ⟨_, _, Sample.whole_polls, hvisiting, hevents, rfl, rfl,
    (hrule.2 _ hvisiting hevents).1 rfl⟩

namespace Sample

def halfMillisecond : GuardianTimeouts := ⟨none, none, none, some (.finite (1 / 2))⟩

theorem half_resolved :
    resolveGuardianTimeouts halfMillisecond = .ok ⟨2000, 1000, 5000, 1 / 2⟩ := by
  have hrange : ¬ ((1 / 2 : ℚ) ≤ 0 ∨ MAX_TIMEOUT_MS < 1 / 2) := by
    norm_num [MAX_TIMEOUT_MS]
  have hsign : resolveTimeout "signMs" 6000 halfMillisecond.signMs = .ok (1 / 2) := if_neg hrange
  exact congrArg (fun r : Except Thrown ℚ => r.bind fun signMs =>
    .ok (⟨2000, 1000, 5000, signMs⟩ : ResolvedGuardianTimeouts)) hsign

theorem half_den : (1 / 2 : ℚ).den = 2 := by
  rw [one_div]
  exact Rat.inv_ofNat_den 2

theorem half_ignored : isSignTimeout (signDeadline (1 / 2)) = false := by
  refine Bool.eq_false_iff.mpr fun h => ?_
  have hden := (SIGN_TIMEOUT_iff (by norm_num [InTimeoutRange, MAX_TIMEOUT_MS])).mp h
  rw [half_den] at hden
  cases hden

theorem settle_ignored (s : PollState) :
    (settleRequest bindingRequest s (.error (signDeadline (1 / 2))) :
      Coordinating (hosted noOps) PollState) =
      .perform (failure (1 / 2) false).op fun _ => .done s.fail := by
  unfold settleRequest PollState.hit
  dsimp only
  rw [half_ignored]
  rfl

theorem ignored_visit : Executes (handleItem (cutOptions (1 / 2)) bindingRow (fetched .empty))
    [cutOff, failure (1 / 2) false] (fetched .empty).fail :=
  cut_visit rfl (settle_ignored _)

def ignoredVisit : Visit (hosted noOps) :=
  ⟨bindingRequest, false, [cutOff, failure (1 / 2) false]⟩

theorem ignored_visits : Visits (guardian.deadlined (1 / 2)) .empty
    [ignoredVisit, ignoredVisit, ignoredVisit] .empty :=
  visits_row (visits_row (visits_row .nil rfl ignored_visit) rfl ignored_visit) rfl ignored_visit

def ignoredEvents : History (hosted noOps) :=
  [pageEvent, cutOff, failure (1 / 2) false, heartbeat ⟨1, 0, 0, 1⟩]

theorem ignored_polls : Executes (runPolls (threePolls (1 / 2)) .empty)
    (ignoredEvents ++ (ignoredEvents ++ (ignoredEvents ++ []))) .empty :=
  three_cycles (row_cycle ignored_visit) (row_cycle ignored_visit) (row_cycle ignored_visit)

end Sample

/-- Three polls, three cut-offs of one request, and it is still not given up on. -/
theorem fraction_never_given_up : ∃ (resolved : ResolvedGuardianTimeouts)
    (tr : History (hosted Sample.noOps)) (visits : List (Visit (hosted Sample.noOps))),
    resolveGuardianTimeouts Sample.halfMillisecond = .ok resolved ∧ Sample.guardian.IsQuiet ∧
    (∀ poll ∈ Sample.threePolls (1 / 2),
      poll.1.guardian = Sample.guardian.deadlined resolved.signMs) ∧
    Executes (runPolls (Sample.threePolls (1 / 2)) .empty) tr .empty ∧ (∀ e ∈ tr, QuietAnswer e) ∧
    Visiting (Sample.guardian.deadlined resolved.signMs) .empty visits ∧
    rowEvents tr = visits.flatMap Visit.events ∧ cutOffs "r1" visits = 3 ∧ ¬ GivesUp visits := by
  refine ⟨⟨2000, 1000, 5000, 1 / 2⟩, _, _, Sample.half_resolved, Sample.guardian_isQuiet,
    Sample.threePolls_guardian (1 / 2), Sample.ignored_polls, ?_, .idle Sample.ignored_visits, rfl,
    rfl, fun h => ?_⟩
  · have hcycle : ∀ e ∈ Sample.ignoredEvents, QuietAnswer e := by
      simp only [Sample.ignoredEvents, List.forall_mem_cons]
      exact ⟨trivial, trivial, trivial, trivial, fun _ h => by cases h⟩
    intro e he
    simp only [List.mem_append, List.not_mem_nil, or_false, or_self] at he
    exact hcycle e he
  · have hbudgets : 3 ≤ 2 := h.budgets "r1"
    omega

end Guardian
