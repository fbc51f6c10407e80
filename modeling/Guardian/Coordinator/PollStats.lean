import Guardian.Coordinator.SubmissionGate

/-!
# The statistics of a poll cycle

The four counters against the events of the cycle. Each row moves exactly one of three of
them, on every exit of its handler, so that a poll that throws between rows still leaves
counters that add up.
-/

namespace Guardian
open Effect Program

section Stats
variable {G : Signature}

structure PageRequest where
  filter : PollFilter
  page : ℕ
  answer : Except Caught Json

def pageRequestOf : Event gruntApi → Option PageRequest
  | ⟨.getSigningRequests filter page _, answer⟩ => some ⟨filter, page, answer⟩
  | _ => none

def PageRequest.rows (request : PageRequest) : List Json :=
  match request.answer with
  | .error _ => []
  | .ok j => ((zSigningRequestPage j).map SigningRequestPage.items).getD []

def isAcceptedSubmission : Event gruntApi → Bool
  | ⟨.putSubmission .., answer⟩ =>
    match (answer : Except Caught Json) with
    | .error _ => false
    | .ok _ => true
  | _ => false

def heartbeatOf : Event gruntApi → Option (Bool × PollCycleStats)
  | ⟨.log (.heartbeat ok stats), _⟩ => some (ok, stats)
  | _ => none

def pageRequests (tr : History G) : List PageRequest := (apiEvents tr).filterMap pageRequestOf

def listedRows (tr : History G) : List Json := (pageRequests tr).flatMap PageRequest.rows

def acceptedSubmissions (tr : History G) : ℕ := (apiEvents tr).countP isAcceptedSubmission

def heartbeats (tr : History G) : List (Bool × PollCycleStats) :=
  (apiEvents tr).filterMap heartbeatOf

theorem pageRequests_append (tr tr' : History G) :
    pageRequests (tr ++ tr') = pageRequests tr ++ pageRequests tr' := by
  simp only [pageRequests, apiEvents_append, List.filterMap_append]

theorem listedRows_append (tr tr' : History G) :
    listedRows (tr ++ tr') = listedRows tr ++ listedRows tr' := by
  simp only [listedRows, pageRequests_append, List.flatMap_append]

theorem listedRows_of_none {tr : History G} (h : pageRequests tr = []) : listedRows tr = [] := by
  rw [listedRows, h]
  rfl

theorem acceptedSubmissions_append (tr tr' : History G) :
    acceptedSubmissions (tr ++ tr') = acceptedSubmissions tr + acceptedSubmissions tr' := by
  simp only [acceptedSubmissions, apiEvents_append, List.countP_append]

theorem heartbeats_append (tr tr' : History G) :
    heartbeats (tr ++ tr') = heartbeats tr ++ heartbeats tr' := by
  simp only [heartbeats, apiEvents_append, List.filterMap_append]

def PollCycleStats.handled (stats : PollCycleStats) : ℕ :=
  stats.signed + stats.skipped + stats.failed

/-- The counters moved as the events and `rows` handled rows say. -/
structure Tallied (tr : History G) (rows : ℕ) (s s' : PollCycleStats) : Prop where
  fetched : s'.fetched = s.fetched + (listedRows tr).length
  signed : s'.signed = s.signed + acceptedSubmissions tr
  handled : s'.handled = s.handled + rows
  quiet : heartbeats tr = []

theorem Tallied.refl (s : PollCycleStats) : Tallied ([] : History G) 0 s s := ⟨rfl, rfl, rfl, rfl⟩

theorem Tallied.trans {tr tr' : History G} {rows rows' : ℕ} {s s' s'' : PollCycleStats}
    (h : Tallied tr rows s s') (h' : Tallied tr' rows' s' s'') :
    Tallied (tr ++ tr') (rows + rows') s s'' where
  fetched := by
    rw [h'.fetched, h.fetched, listedRows_append, List.length_append, Nat.add_assoc]
  signed := by rw [h'.signed, h.signed, acceptedSubmissions_append, Nat.add_assoc]
  handled := by rw [h'.handled, h.handled, Nat.add_assoc]
  quiet := by rw [heartbeats_append, h.quiet, h'.quiet, List.append_nil]

theorem row_quiet {e : Event gruntApi} (h : betweenRows e.op = false) :
    pageRequestOf e = none ∧ heartbeatOf e = none := by
  obtain ⟨op, answer⟩ := e
  cases op with
  | getSigningRequests => cases h
  | putNonce => exact ⟨rfl, rfl⟩
  | putSubmission => exact ⟨rfl, rfl⟩
  | log => cases h

variable {options : GuardianCoordinatorOptions G} {request : SigningRequest} {tr : History G}

theorem handleRequest_quiet {r : Except Caught Handled}
    (h : Executes (handleRequest options request) tr r) :
    pageRequests tr = [] ∧ heartbeats tr = [] := by
  have hrow : ∀ e ∈ apiEvents tr, betweenRows e.op = false := by
    intro e he
    obtain ⟨⟨op, answer⟩, hd, hde⟩ := List.mem_filterMap.mp he
    cases op with
    | inl op => cases hde
    | inr op =>
      cases hde
      simpa [ofRow] using handleRequest_ofRow h _ hd
  constructor
  · exact List.filterMap_eq_nil_iff.mpr fun e he => (row_quiet (hrow e he)).1
  · exact List.filterMap_eq_nil_iff.mpr fun e he => (row_quiet (hrow e he)).2

theorem announce_submits_nothing {guardian : CoordinatorGuardian G} {parsed : ParsedSigningBody}
    {r : Except Caught (Option Announced)} (h : Executes (announce guardian request parsed) tr r) :
    acceptedSubmissions tr = 0 := by
  cases hind : independentNonce request parsed with
  | false =>
    rw [announce_listed hind] at h
    obtain ⟨rfl, _⟩ := runs_done.mp h
    rfl
  | true =>
    obtain ⟨body, rfl, hannounce⟩ := announce_independent guardian hind
    rw [hannounce] at h
    unfold reserveNonce at h
    split at h
    · obtain ⟨rfl, _⟩ := runs_done.mp h
      rfl
    · obtain ⟨tr₁, tr₂, computed, rfl, h₁, h⟩ := executes_bind.mp h
      obtain ⟨tr', rfl, _⟩ := executes_inLeft.mp h₁
      rw [acceptedSubmissions_append, acceptedSubmissions, apiEvents_inLeft]
      cases computed with
      | error e =>
        obtain ⟨rfl, _⟩ := runs_done.mp h
        rfl
      | ok candidates =>
        dsimp only at h
        split at h
        · obtain ⟨rfl, _⟩ := runs_done.mp h
          rfl
        · obtain ⟨answer, tr₃, rfl, hrest⟩ := executes_perform.mp h
          obtain ⟨rfl, _⟩ := runs_done.mp hrest
          rfl

/-- A row counts as signed exactly when its submission was accepted. -/
def Handled.signedCount : Except Caught Handled → ℕ
  | .ok .signed => 1
  | _ => 0

theorem submitSigned_accepted {guardian : CoordinatorGuardian G} {announced : Announced}
    {r : Except Caught Handled} (h : Executes (submitSigned guardian request announced) tr r) :
    acceptedSubmissions tr = Handled.signedCount r := by
  obtain ⟨tr₁, tr₂, signed, rfl, h₁, h⟩ := executes_bind.mp h
  have hsigning : acceptedSubmissions tr₁ = 0 := by
    obtain ⟨tr₃, tr₄, _, rfl, h₃, h₄⟩ := executes_bind.mp h₁
    obtain ⟨tr', rfl, _⟩ := executes_inLeft.mp h₃
    obtain ⟨rfl, _⟩ := runs_done.mp h₄
    rw [acceptedSubmissions, apiEvents_append, apiEvents_inLeft]
    rfl
  rw [acceptedSubmissions_append, hsigning, Nat.zero_add]
  cases signed with
  | error e =>
    obtain ⟨rfl, hr⟩ := runs_done.mp h
    cases hr
    rfl
  | ok success =>
    obtain ⟨answer, tr₃, rfl, hrest⟩ := executes_perform.mp h
    obtain ⟨rfl, hr⟩ := runs_done.mp hrest
    match answer, hr with
    | .error e, hr =>
      cases hr
      rfl
    | .ok j, hr =>
      cases hr
      rfl

theorem handleRequest_accepted {r : Except Caught Handled}
    (h : Executes (handleRequest options request) tr r) :
    acceptedSubmissions tr = Handled.signedCount r := by
  have hnothing : ∀ {tr : History G} {r r' : Except Caught Handled},
      Handled.signedCount r' = 0 → Executes (.done r' : Coordinating G _) tr r →
      acceptedSubmissions tr = Handled.signedCount r := by
    intro tr r r' hr' hrun
    obtain ⟨rfl, hr⟩ := runs_done.mp hrun
    cases hr
    exact hr'.symm
  unfold handleRequest at h
  split at h
  · exact hnothing rfl h
  · split at h
    · exact hnothing rfl h
    · split at h
      · exact hnothing rfl h
      · split at h
        · exact hnothing rfl h
        · obtain ⟨tr₁, tr₂, announced, rfl, h₁, h⟩ := executes_bind.mp h
          rw [acceptedSubmissions_append, announce_submits_nothing h₁, Nat.zero_add]
          match announced, h with
          | .error e, h => exact hnothing rfl h
          | .ok none, h => exact hnothing rfl h
          | .ok (some announced), h => exact submitSigned_accepted h

theorem settleRequest_tallied {s s' : PollState} {handled : Except Caught Handled}
    (h : Executes (settleRequest request s handled : Coordinating G PollState) tr s') :
    pageRequests tr = [] ∧ heartbeats tr = [] ∧ acceptedSubmissions tr = 0 ∧
      s'.stats.fetched = s.stats.fetched ∧
      s'.stats.signed = s.stats.signed + Handled.signedCount handled ∧
      s'.stats.handled = s.stats.handled + 1 := by
  match handled with
  | .ok .skipped =>
    obtain ⟨rfl, hs⟩ := runs_done.mp h
    cases hs
    exact ⟨rfl, rfl, rfl, rfl, rfl, by simp [PollState.skip, PollCycleStats.handled]; omega⟩
  | .ok .signed =>
    obtain ⟨_, tr', rfl, hrest⟩ := executes_perform.mp h
    obtain ⟨rfl, hs⟩ := runs_done.mp hrest
    cases hs
    exact ⟨rfl, rfl, rfl, rfl, rfl, by simp [PollState.sign, PollCycleStats.handled]; omega⟩
  | .error e =>
    obtain ⟨_, tr', rfl, hrest⟩ := executes_perform.mp h
    obtain ⟨rfl, hs⟩ := runs_done.mp hrest
    cases hs
    have hstats : (s.hit request.id e).stats = s.stats := by
      unfold PollState.hit
      split <;> rfl
    refine ⟨rfl, rfl, rfl, ?_⟩
    simp only [PollState.fail, PollCycleStats.handled, hstats]
    exact ⟨trivial, rfl, by omega⟩

theorem handleItem_tallied {item : Json} {s s' : PollState}
    (h : Executes (handleItem options item s) tr s') :
    Tallied tr 1 s.stats s'.stats ∧ pageRequests tr = [] := by
  unfold handleItem at h
  split at h
  · obtain ⟨_, tr', rfl, hrest⟩ := executes_perform.mp h
    obtain ⟨rfl, hs⟩ := runs_done.mp hrest
    cases hs
    exact ⟨⟨rfl, rfl, by simp [PollState.fail, PollCycleStats.handled]; omega, rfl⟩, rfl⟩
  · split at h
    · obtain ⟨rfl, hs⟩ := runs_done.mp h
      cases hs
      exact ⟨⟨rfl, rfl, by simp [PollState.skip, PollCycleStats.handled]; omega, rfl⟩, rfl⟩
    · obtain ⟨tr₁, tr₂, handled, rfl, h₁, h₂⟩ := executes_bind.mp h
      obtain ⟨hpages, hheartbeats⟩ := handleRequest_quiet h₁
      obtain ⟨hpages', hheartbeats', haccepted, hfetched, hsigned, hhandled⟩ :=
        settleRequest_tallied h₂
      have hnone : pageRequests (tr₁ ++ tr₂) = [] := by
        rw [pageRequests_append, hpages, hpages']
        rfl
      refine ⟨⟨?_, ?_, hhandled, ?_⟩, hnone⟩
      · rw [listedRows_of_none hnone, hfetched]
        rfl
      · rw [acceptedSubmissions_append, haccepted, handleRequest_accepted h₁, hsigned]
        rfl
      · rw [heartbeats_append, hheartbeats, hheartbeats']
        rfl

theorem handleItems_tallied {items : List Json} {s s' : PollState}
    (h : Executes (handleItems options items s) tr s') :
    Tallied tr items.length s.stats s'.stats ∧ pageRequests tr = [] := by
  induction items generalizing s tr with
  | nil =>
    obtain ⟨rfl, hs⟩ := runs_done.mp h
    cases hs
    exact ⟨.refl _, rfl⟩
  | cons item items ih =>
    obtain ⟨tr₁, tr₂, s₁, rfl, h₁, h₂⟩ := executes_bind.mp h
    obtain ⟨htallied, hpages⟩ := handleItem_tallied h₁
    obtain ⟨htallied', hpages'⟩ := ih h₂
    rw [List.length_cons, Nat.add_comm]
    refine ⟨htallied.trans htallied', ?_⟩
    rw [pageRequests_append, hpages, hpages']
    rfl

abbrev pageAnswered (options : GuardianCoordinatorOptions G) (filter : PollFilter) (page : ℕ)
    (answer : Except Caught Json) : Event (coord G) :=
  ⟨.inr (.getSigningRequests filter page options.pageSize), answer⟩

def IsLastPage (page : ℕ) (requests : SigningRequestPage) : Prop :=
  requests.items.length = 0 ∨ Double.mul page requests.pageSize ≥ requests.total

instance (page : ℕ) (requests : SigningRequestPage) : Decidable (IsLastPage page requests) :=
  inferInstanceAs (Decidable (_ ∨ _))

inductive PageRun (options : GuardianCoordinatorOptions G) (filter : PollFilter) (fuel page : ℕ)
    (s : PollState) : History G → Except Caught Unit × PollState → Prop where
  | failed {answer : Except Caught Json} (e : Caught)
      (unparsed : ∀ j, answer = .ok j → zSigningRequestPage j = none) :
      PageRun options filter fuel page s [pageAnswered options filter page answer] (.error e, s)
  | last {j : Json} {requests : SigningRequestPage} {tr : History G} {s' : PollState}
      (parses : zSigningRequestPage j = some requests)
      (rows : Executes (handleItems options requests.items (s.fetch requests.items.length)) tr s')
      (last : IsLastPage page requests) :
      PageRun options filter fuel page s (pageAnswered options filter page (.ok j) :: tr)
        (.ok (), s')
  | next {j : Json} {requests : SigningRequestPage} {tr tr' : History G} {s' : PollState}
      {r : Except Caught Unit × PollState} (parses : zSigningRequestPage j = some requests)
      (rows : Executes (handleItems options requests.items (s.fetch requests.items.length)) tr s')
      (more : ¬IsLastPage page requests)
      (rest : Executes (pollPages options filter fuel (nextPage page) s') tr' r) :
      PageRun options filter fuel page s
        (pageAnswered options filter page (.ok j) :: (tr ++ tr')) r

theorem pollPages_cases {filter : PollFilter} {fuel page : ℕ} {s : PollState}
    {r : Except Caught Unit × PollState}
    (h : Executes (pollPages options filter (fuel + 1) page s) tr r) :
    PageRun options filter fuel page s tr r := by
  obtain ⟨answer, tr', rfl, hrest⟩ := executes_perform.mp h
  match answer, hrest with
  | .error e, hrest =>
    obtain ⟨rfl, hr⟩ := runs_done.mp hrest
    cases hr
    exact .failed e fun j hj => by cases hj
  | .ok j, hrest =>
    rw [bind_done] at hrest
    dsimp only at hrest
    split at hrest
    · rename_i hinvalid
      obtain ⟨rfl, hr⟩ := runs_done.mp hrest
      cases hr
      exact .failed .zodError fun j hj => by cases hj; exact hinvalid
    · rename_i requests hrequests
      obtain ⟨tr₁, tr₂, s₁, rfl, h₁, h₂⟩ := executes_bind.mp hrest
      split at h₂
      · rename_i hlast
        obtain ⟨rfl, hr⟩ := runs_done.mp h₂
        cases hr
        rw [List.append_nil]
        exact .last hrequests h₁ hlast
      · rename_i hmore
        exact .next hrequests h₁ hmore h₂

theorem listedRows_page {filter : PollFilter} {page : ℕ} {j : Json} {requests : SigningRequestPage}
    (h : zSigningRequestPage j = some requests) (tr : History G) :
    listedRows (pageAnswered options filter page (.ok j) :: tr) =
      requests.items ++ listedRows tr := by
  show ((zSigningRequestPage j).map SigningRequestPage.items).getD [] ++ _ = _
  rw [h]
  rfl

theorem listedRows_unparsed {filter : PollFilter} {page : ℕ} {answer : Except Caught Json}
    (h : ∀ j, answer = .ok j → zSigningRequestPage j = none) :
    listedRows [pageAnswered options filter page answer] = [] := by
  cases answer with
  | error e => rfl
  | ok j =>
    show ((zSigningRequestPage j).map SigningRequestPage.items).getD [] ++ [] = _
    rw [h j rfl]
    rfl

theorem page_tallied {filter : PollFilter} {page : ℕ} {j : Json} {requests : SigningRequestPage}
    {s s' : PollState} (h : zSigningRequestPage j = some requests)
    (hrows : Executes (handleItems options requests.items (s.fetch requests.items.length)) tr s') :
    Tallied (pageAnswered options filter page (.ok j) :: tr) requests.items.length
        s.stats s'.stats ∧
      listedRows (pageAnswered options filter page (.ok j) :: tr) = requests.items := by
  obtain ⟨htallied, hpages⟩ := handleItems_tallied hrows
  have hnone := listedRows_of_none hpages
  have hlisted : listedRows (pageAnswered options filter page (.ok j) :: tr) = _ :=
    listedRows_page h tr
  rw [hnone, List.append_nil] at hlisted
  refine ⟨⟨?_, htallied.signed, htallied.handled, htallied.quiet⟩, hlisted⟩
  rw [hlisted, htallied.fetched, hnone]
  rfl

theorem pollPages_tallied {filter : PollFilter} {fuel page : ℕ} {s : PollState}
    {r : Except Caught Unit × PollState}
    (h : Executes (pollPages options filter fuel page s) tr r) :
    Tallied tr (listedRows tr).length s.stats r.2.stats := by
  induction fuel generalizing page s tr with
  | zero =>
    obtain ⟨rfl, hr⟩ := runs_done.mp h
    cases hr
    exact .refl _
  | succ fuel ih =>
    cases pollPages_cases h with
    | failed e hunparsed =>
      rw [listedRows_unparsed hunparsed]
      exact ⟨by rw [listedRows_unparsed hunparsed]; rfl, rfl, rfl, rfl⟩
    | last hparses hrows _ =>
      obtain ⟨htallied, hlisted⟩ := page_tallied hparses hrows
      rw [hlisted]
      exact htallied
    | next hparses hrows _ hrest =>
      obtain ⟨htallied, hlisted⟩ := page_tallied hparses hrows
      rw [← List.cons_append, listedRows_append, List.length_append, hlisted]
      exact htallied.trans (ih hrest)

theorem pollEach_tallied {fuel : ℕ} {filters : List PollFilter} {s : PollState}
    {r : Except Caught Unit × PollState} (h : Executes (pollEach options fuel filters s) tr r) :
    Tallied tr (listedRows tr).length s.stats r.2.stats := by
  induction filters generalizing s tr with
  | nil =>
    obtain ⟨rfl, hr⟩ := runs_done.mp h
    cases hr
    exact .refl _
  | cons filter filters ih =>
    obtain ⟨tr₁, tr₂, r₁, rfl, h₁, h₂⟩ := executes_bind.mp h
    have hpages := pollPages_tallied h₁
    rw [listedRows_append, List.length_append]
    match r₁, hpages, h₂ with
    | (.error e, s₁), hpages, h₂ =>
      obtain ⟨rfl, hr⟩ := runs_done.mp h₂
      cases hr
      exact hpages.trans (.refl _)
    | (.ok _, s₁), hpages, h₂ => exact hpages.trans (ih h₂)

/-- `runGuardianCoordinatorCycle` with the stats that it returns, beside the timeouts that
outlive it. -/
def pollCycle (options : GuardianCoordinatorOptions G) (fuel : ℕ) (timeouts : SignTimeouts) :
    Coordinating G PollState := do
  match ← runGuardianCoordinatorOnce options fuel timeouts with
  | (.error e, s) => do
    api (.log (.pollFailed e))
    api (.log (.heartbeat false s.stats))
    return s
  | (.ok _, s) => do
    api (.log (.heartbeat true s.stats))
    return s

theorem runGuardianCoordinatorCycle_eq (options : GuardianCoordinatorOptions G) (fuel : ℕ)
    (timeouts : SignTimeouts) : runGuardianCoordinatorCycle options fuel timeouts =
      (pollCycle options fuel timeouts).bind fun s => .done s.timeouts := by
  refine Eq.trans ?_ (bind_bind _ _ _).symm
  refine congrArg (Program.bind _) (funext fun r => ?_)
  match r with
  | (.error e, s) => rfl
  | (.ok _, s) => rfl

def pollEnded : Except Caught Unit → Bool
  | .error _ => false
  | .ok _ => true

/-- What the counters and the heartbeat of a cycle owe to its events. -/
structure CycleAccounts (tr : History G) (ok : Bool) (stats : PollCycleStats) : Prop where
  balance : stats.fetched = stats.signed + stats.skipped + stats.failed
  fetched : stats.fetched = (listedRows tr).length
  signed : stats.signed = acceptedSubmissions tr
  heartbeat : heartbeats tr = [(ok, stats)]

theorem runGuardianCoordinatorOnce_tallied {fuel : ℕ} {timeouts : SignTimeouts}
    {r : Except Caught Unit × PollState}
    (h : Executes (runGuardianCoordinatorOnce options fuel timeouts) tr r) :
    Tallied tr (listedRows tr).length ⟨0, 0, 0, 0⟩ r.2.stats := pollEach_tallied h

theorem Tallied.cycleAccounts {tr' : History G} {s : PollCycleStats} {ok : Bool}
    (h : Tallied tr (listedRows tr).length ⟨0, 0, 0, 0⟩ s) (hlisted : listedRows tr' = [])
    (haccepted : acceptedSubmissions tr' = 0) (hheartbeats : heartbeats tr' = [(ok, s)]) :
    CycleAccounts (tr ++ tr') ok s where
  balance := by
    have hfetched : s.fetched = 0 + (listedRows tr).length := h.fetched
    have hhandled : s.signed + s.skipped + s.failed = 0 + (listedRows tr).length := h.handled
    omega
  fetched := by
    rw [h.fetched, listedRows_append, hlisted, List.append_nil, Nat.zero_add]
  signed := by
    rw [h.signed, acceptedSubmissions_append, haccepted, Nat.zero_add]
    rfl
  heartbeat := by rw [heartbeats_append, h.quiet, hheartbeats, List.nil_append]

end Stats

theorem cycle_accounts {G : Signature} (options : GuardianCoordinatorOptions G) (fuel : ℕ)
    (timeouts : SignTimeouts) (tr : History G) (s : PollState)
    (hrun : Executes (pollCycle options fuel timeouts) tr s) :
    ∃ poll before after, tr = before ++ after ∧
      Executes (runGuardianCoordinatorOnce options fuel timeouts) before (poll, s) ∧
      CycleAccounts tr (pollEnded poll) s.stats := by
  obtain ⟨before, after, ⟨poll, s'⟩, rfl, honce, hafter⟩ := executes_bind.mp hrun
  have htallied := runGuardianCoordinatorOnce_tallied honce
  cases poll with
  | error e =>
    obtain ⟨_, tr₁, rfl, hrest⟩ := executes_perform.mp hafter
    obtain ⟨_, tr₂, rfl, hend⟩ := executes_perform.mp hrest
    obtain ⟨rfl, hs⟩ := runs_done.mp hend
    cases hs
    exact ⟨.error e, before, _, rfl, honce, htallied.cycleAccounts rfl rfl rfl⟩
  | ok u =>
    obtain ⟨_, tr₁, rfl, hend⟩ := executes_perform.mp hafter
    obtain ⟨rfl, hs⟩ := runs_done.mp hend
    cases hs
    exact ⟨.ok u, before, _, rfl, honce, htallied.cycleAccounts rfl rfl rfl⟩

namespace Sample

def brokenAnswers : ∀ op : (coord noOps).Op, (coord noOps).Answer op
  | .inr (.getSigningRequests _ page _) =>
    if page = 1 then .ok (.obj [("total", .num 200), ("page", .num 1), ("pageSize", .num 100),
      ("items", .arr [independentRow, .null])])
    else .ok .null
  | .inr (.putNonce ..) => .ok (.obj [("nonce", .str "19"), ("payloadHash", .str (hex 64))])
  | .inr (.putSubmission ..) => .ok .null
  | .inr (.log _) => ()

end Sample

theorem cycle_accounts_broken : ∃ s before after,
    ((pollCycle Sample.coordinatorOptions 3 .empty).trace Sample.brokenAnswers) = before ++ after ∧
      CycleAccounts (before ++ after) false s ∧ s = ⟨2, 1, 0, 1⟩ := by
  obtain ⟨poll, before, after, htrace, honce, haccounts⟩ :=
    cycle_accounts Sample.coordinatorOptions 3 .empty _ _
      (executes_trace Sample.brokenAnswers (pollCycle Sample.coordinatorOptions 3 .empty))
  have hheartbeats : heartbeats ((pollCycle Sample.coordinatorOptions 3 .empty).trace
      Sample.brokenAnswers) = [(false, ⟨2, 1, 0, 1⟩)] := by decide +kernel
  rw [haccounts.heartbeat] at hheartbeats
  injection hheartbeats with hpair
  injection hpair with hended hstats
  rw [hended, hstats, htrace] at haccounts
  exact ⟨_, before, after, htrace, haccounts, rfl⟩

end Guardian
