import Guardian.Coordinator.PollStats
import Guardian.Lib.Paging

/-!
# The rows a poll visits

The poll pages by number over the list of open rows, which its own accepted submissions
shorten. The rows that thereby move in front of the next page are never asked for.
-/

namespace Guardian
open Effect Program

section Visits
variable {G : Signature}

/-- No more rows than a double counts. -/
structure OpenRows where
  rows : List Json
  countable : rows.length ≤ 2 ^ 53
  nodup : rows.Nodup
  ids : ∀ row ∈ rows, ∀ row' ∈ rows, ∀ request request', zSigningRequest row = some request →
    zSigningRequest row' = some request' → request.id = request'.id → row = row'

def AlreadySubmitted (row : Json) : Prop :=
  ∃ request, zSigningRequest row = some request ∧ request.mySubmission.isSome = true

def acceptedIdOf : Event gruntApi → Option String
  | ⟨.putSubmission id _, answer⟩ =>
    match (answer : Except Caught Json) with
    | .error _ => none
    | .ok _ => some id
  | _ => none

def acceptedIds (tr : History G) : List String := (apiEvents tr).filterMap acceptedIdOf

/-- A page of what is open when it is asked for; only rows whose submission was accepted may
be gone. -/
structure ServedPage (opened : OpenRows) (pageSize : ℕ) (gone : ℕ → Json → Bool)
    (accepted : List String) (request : PageRequest) : Prop where
  completed : ∀ row ∈ opened.rows, gone request.page row = true →
    ∃ r, zSigningRequest row = some r ∧ r.id ∈ accepted
  answer : ∃ j number, request.answer = .ok j ∧ zSigningRequestPage j =
    some ⟨(Paging.openAt opened.rows gone request.page).length, number, pageSize,
      Paging.page opened.rows pageSize gone request.page⟩

/-- The pages among the events, each after the submissions accepted before it. -/
def ServedFrom (opened : OpenRows) (pageSize : ℕ) (gone : ℕ → Json → Bool) :
    List String → List (Event gruntApi) → Prop
  | _, [] => True
  | accepted, e :: es =>
    (∀ request, pageRequestOf e = some request →
      ServedPage opened pageSize gone accepted request) ∧
    ServedFrom opened pageSize gone (accepted ++ (acceptedIdOf e).toList) es

theorem ServedFrom.append {opened : OpenRows} {pageSize : ℕ} {gone : ℕ → Json → Bool}
    {accepted : List String} {es es' : List (Event gruntApi)}
    (h : ServedFrom opened pageSize gone accepted (es ++ es')) :
    ServedFrom opened pageSize gone (accepted ++ es.filterMap acceptedIdOf) es' := by
  induction es generalizing accepted with
  | nil => simpa using h
  | cons e es ih =>
    have hrest := ih h.2
    rw [List.append_assoc] at hrest
    cases hid : acceptedIdOf e with
    | none => simpa [hid, List.filterMap_cons] using hrest
    | some id => simpa [hid, List.filterMap_cons] using hrest

theorem acceptedIds_append (tr tr' : History G) :
    acceptedIds (tr ++ tr') = acceptedIds tr ++ acceptedIds tr' := by
  simp only [acceptedIds, apiEvents_append, List.filterMap_append]

variable {options : GuardianCoordinatorOptions G}

theorem rowAsks_submits {request : SigningRequest} {tr : History G} {id : String}
    {submission : Submission}
    (h : RowAsks options request tr (.inr (.putSubmission id submission))) : id = request.id := by
  cases h
  rfl

theorem handleRequest_submits {request : SigningRequest} {tr : History G}
    {r : Except Caught Handled} (h : Executes (handleRequest options request) tr r) :
    ∀ id ∈ acceptedIds tr, id = request.id := by
  intro id hid
  obtain ⟨e, he, heid⟩ := List.mem_filterMap.mp hid
  obtain ⟨⟨op, answer⟩, hd, hde⟩ := List.mem_filterMap.mp he
  cases op with
  | inl op => cases hde
  | inr op =>
    cases hde
    obtain ⟨pre, post, rfl⟩ := List.append_of_mem hd
    obtain ⟨next, hasks, _⟩ := Runs.split h
    cases op with
    | getSigningRequests => cases heid
    | putNonce => cases heid
    | log => cases heid
    | putSubmission id' submission =>
      have hsame := rowAsks_submits (handleRequest_asks hasks)
      cases answer with
      | error e => cases heid
      | ok j =>
        cases heid
        exact hsame

theorem settleRequest_submits {request : SigningRequest} {s s' : PollState}
    {handled : Except Caught Handled} {tr : History G}
    (h : Executes (settleRequest request s handled : Coordinating G PollState) tr s') :
    acceptedIds tr = [] := by
  match handled with
  | .ok .skipped =>
    obtain ⟨rfl, _⟩ := runs_done.mp h
    rfl
  | .ok .signed =>
    obtain ⟨_, tr', rfl, hrest⟩ := executes_perform.mp h
    obtain ⟨rfl, _⟩ := runs_done.mp hrest
    rfl
  | .error e =>
    obtain ⟨_, tr', rfl, hrest⟩ := executes_perform.mp h
    obtain ⟨rfl, _⟩ := runs_done.mp hrest
    rfl

theorem handleItem_submits {item : Json} {s s' : PollState} {tr : History G}
    (h : Executes (handleItem options item s) tr s') :
    ∀ id ∈ acceptedIds tr, ∃ request, zSigningRequest item = some request ∧ request.id = id := by
  unfold handleItem at h
  split at h
  · obtain ⟨_, tr', rfl, hrest⟩ := executes_perform.mp h
    obtain ⟨rfl, _⟩ := runs_done.mp hrest
    exact fun id hid => by cases hid
  · rename_i request hrequest
    split at h
    · obtain ⟨rfl, _⟩ := runs_done.mp h
      exact fun id hid => by cases hid
    · obtain ⟨tr₁, tr₂, handled, rfl, h₁, h₂⟩ := executes_bind.mp h
      intro id hid
      rw [acceptedIds_append, settleRequest_submits h₂, List.append_nil] at hid
      exact ⟨request, hrequest, (handleRequest_submits h₁ id hid).symm⟩

theorem handleItems_submits {items : List Json} {s s' : PollState} {tr : History G}
    (h : Executes (handleItems options items s) tr s') : ∀ id ∈ acceptedIds tr,
      ∃ item ∈ items, ∃ request, zSigningRequest item = some request ∧ request.id = id := by
  induction items generalizing s tr with
  | nil =>
    obtain ⟨rfl, _⟩ := runs_done.mp h
    exact fun id hid => by cases hid
  | cons item items ih =>
    obtain ⟨tr₁, tr₂, s₁, rfl, h₁, h₂⟩ := executes_bind.mp h
    intro id hid
    rw [acceptedIds_append] at hid
    rcases List.mem_append.mp hid with hid | hid
    · exact ⟨item, .head _, handleItem_submits h₁ id hid⟩
    · obtain ⟨item', hmem, hrequest⟩ := ih h₂ id hid
      exact ⟨item', .tail _ hmem, hrequest⟩

section Pages
variable {opened : OpenRows} {gone : ℕ → Json → Bool}

/-- Every accepted submission so far was for one of the first `n` rows. -/
def AcceptedAmong (opened : OpenRows) (n : ℕ) (accepted : List String) : Prop :=
  ∀ id ∈ accepted, ∃ row ∈ opened.rows.take n, ∃ request,
    zSigningRequest row = some request ∧ request.id = id

theorem AcceptedAmong.kept {n p : ℕ} {accepted : List String}
    (h : AcceptedAmong opened n accepted)
    (hcompleted : ∀ row ∈ opened.rows, gone p row = true →
      ∃ r, zSigningRequest row = some r ∧ r.id ∈ accepted) :
    ∀ row ∈ opened.rows.drop n, gone p row = false := by
  intro row hrow
  by_contra hgone
  obtain ⟨r, hr, hid⟩ := hcompleted row (List.mem_of_mem_drop hrow) (by simpa using hgone)
  obtain ⟨row', hrow', r', hr', hsame⟩ := h r.id hid
  have heq := opened.ids row (List.mem_of_mem_drop hrow) row' (List.mem_of_mem_take hrow') r r' hr
    hr' hsame.symm
  subst heq
  have hnodup := opened.nodup
  rw [← List.take_append_drop n opened.rows] at hnodup
  exact (List.nodup_append.mp hnodup).2.2 row hrow' row hrow rfl

theorem isLastPage_iff {p total size : ℕ} {number : ℚ} {items : List Json}
    (h : total ≤ 2 ^ 53) :
    IsLastPage p ⟨total, number, size, items⟩ ↔ items.length = 0 ∨ total ≤ p * size :=
  or_congr_right (Double.le_mul_natCast h)

theorem OpenRows.openAt_countable (opened : OpenRows) (gone : ℕ → Json → Bool) (p : ℕ) :
    (Paging.openAt opened.rows gone p).length ≤ 2 ^ 53 :=
  (List.length_filter_le _ _).trans opened.countable

theorem AcceptedAmong.next (hshrinking : Paging.Shrinking gone) {p : ℕ} {s s' : PollState}
    {tr : History G} {accepted : List String}
    (hend : Paging.pageEnd opened.rows options.pageSize gone p ≤ opened.rows.length)
    (h : AcceptedAmong opened (Paging.pageEnd opened.rows options.pageSize gone p) accepted)
    (hkept : ∀ row ∈ opened.rows.drop (Paging.pageEnd opened.rows options.pageSize gone p),
      gone (p + 1) row = false)
    (hrows : Executes (handleItems options
      (Paging.page opened.rows options.pageSize gone (p + 1)) s) tr s') :
    AcceptedAmong opened (Paging.pageEnd opened.rows options.pageSize gone (p + 1))
      (accepted ++ acceptedIds tr) := by
  intro id hid
  rcases List.mem_append.mp hid with hid | hid
  · obtain ⟨row, hrow, hrequest⟩ := h id hid
    exact ⟨row, (List.take_prefix_take_left (Paging.pageEnd_mono hshrinking p)).subset hrow,
      hrequest⟩
  · obtain ⟨row, hrow, hrequest⟩ := handleItems_submits hrows id hid
    exact ⟨row, Paging.page_subset hshrinking hend hkept row hrow, hrequest⟩

theorem pollPages_visits (hsize : 1 ≤ options.pageSize) (hshrinking : Paging.Shrinking gone)
    {fuel p : ℕ} {s : PollState} {tr : History G} {accepted : List String}
    {r : Except Caught Unit × PollState}
    (h : Executes (pollPages options ⟨none, none⟩ fuel (p + 1) s) tr r)
    (hserved : ServedFrom opened options.pageSize gone accepted (apiEvents tr))
    (hend : Paging.pageEnd opened.rows options.pageSize gone p ≤ opened.rows.length)
    (hfuel : opened.rows.length < fuel + p)
    (haccepted : AcceptedAmong opened (Paging.pageEnd opened.rows options.pageSize gone p)
      accepted) :
    r.1 = .ok () ∧ ∃ unread : List Json,
      Paging.ReadFrom opened.rows options.pageSize gone p unread (listedRows tr) := by
  induction fuel generalizing p s tr accepted with
  | zero =>
    have hle : p * 1 ≤ p * options.pageSize := Nat.mul_le_mul_left p hsize
    simp only [Paging.pageEnd] at hend
    omega
  | succ fuel ih =>
    have hparts := pollPages_cases h
    cases hparts with
    | failed e hunparsed =>
      obtain ⟨_, j, number, hanswer, hparses⟩ := hserved.1 _ rfl
      rw [hunparsed j hanswer] at hparses
      cases hparses
    | @last j requests tr s' hparses hrows hlast =>
      obtain ⟨hcompleted, j', number, hanswer, hparses'⟩ := hserved.1 _ rfl
      cases hanswer
      cases hparses.symm.trans hparses'
      have hkept := haccepted.kept hcompleted
      have hreach : opened.rows.length ≤
          Paging.pageEnd opened.rows options.pageSize gone (p + 1) :=
        (Paging.pageEnd_last hshrinking hsize hend hkept).mp
          ((isLastPage_iff (opened.openAt_countable gone _)).mp hlast)
      have hlisted : listedRows (pageAnswered options ⟨none, none⟩ (p + 1) (.ok j) :: tr) = _ :=
        listedRows_page hparses' tr
      rw [listedRows_of_none (handleItems_tallied hrows).2, List.append_nil] at hlisted
      rw [hlisted]
      exact ⟨rfl, _, .last hshrinking hend hkept hreach⟩
    | @next j requests tr tr' s' r hparses hrows hmore hrest =>
      obtain ⟨hcompleted, j', number, hanswer, hparses'⟩ := hserved.1 _ rfl
      cases hanswer
      cases hparses.symm.trans hparses'
      have hkept := haccepted.kept hcompleted
      have hmore' : Paging.pageEnd opened.rows options.pageSize gone (p + 1) <
          opened.rows.length :=
        Nat.lt_of_not_le fun hreach => hmore ((isLastPage_iff (opened.openAt_countable gone _)).mpr
          ((Paging.pageEnd_last hshrinking hsize hend hkept).mpr hreach))
      have hnext : nextPage (p + 1) = p + 1 + 1 := by
        have hle : (p + 1) * 1 ≤ (p + 1) * options.pageSize := Nat.mul_le_mul_left _ hsize
        have hcountable := opened.countable
        simp only [Paging.pageEnd] at hmore'
        exact min_eq_left (by omega)
      rw [hnext] at hrest
      have hserved' : ServedFrom opened options.pageSize gone (accepted ++ acceptedIds tr)
          (apiEvents tr') := by
        have hrest' : ServedFrom opened options.pageSize gone (accepted ++ [])
            (apiEvents tr ++ apiEvents tr') := apiEvents_append tr tr' ▸ hserved.2
        rw [List.append_nil] at hrest'
        exact hrest'.append
      obtain ⟨hok, unread, hread⟩ := ih hrest hserved' hmore'.le (by omega)
        (haccepted.next hshrinking hend hkept hrows)
      have hlisted : listedRows
          (pageAnswered options ⟨none, none⟩ (p + 1) (.ok j) :: (tr ++ tr')) = _ :=
        listedRows_page hparses' (tr ++ tr')
      rw [listedRows_append, listedRows_of_none (handleItems_tallied hrows).2,
        List.nil_append] at hlisted
      rw [hlisted]
      exact ⟨hok, _, hread.next hshrinking hend hkept⟩

end Pages

def VisitedOnce (tr : History G) (row : Json) : Prop := ∃! i : ℕ, (listedRows tr)[i]? = some row

theorem visitedOnce_iff {tr : History G} (hnodup : (listedRows tr).Nodup) (row : Json) :
    VisitedOnce tr row ↔ row ∈ listedRows tr := by
  constructor
  · intro honce
    obtain ⟨i, hi, _⟩ := honce
    exact List.mem_of_getElem? hi
  · intro hmem
    obtain ⟨i, hi⟩ := List.mem_iff_getElem?.mp hmem
    refine ⟨i, hi, fun j hj => ?_⟩
    have hlt : j < (listedRows tr).length := (List.getElem?_eq_some_iff.mp hj).1
    exact (List.getElem?_inj hlt hnodup).mp (hj.trans hi.symm)

end Visits

namespace Sample

def rowNamed (id : String) : Json :=
  .obj [("id", .str id), ("kind", .str "request_whitelisting"), ("chainId", .num 1),
    ("facility", .str (hex 40)), ("payloadHash", .str ""), ("body", independentBody),
    ("mySubmission", .null)]

theorem rowNamed_parses (id : String) : zSigningRequest (rowNamed id) =
    some ⟨id, .requestWhitelisting, 1, hex 40, "", independentBody, none⟩ := rfl

def twoRows : OpenRows where
  rows := [rowNamed "r1", rowNamed "r2"]
  countable := by simp
  nodup := by simp [rowNamed]
  ids := by
    have hrows : ∀ row ∈ [rowNamed "r1", rowNamed "r2"], ∃ id, row = rowNamed id := by
      simp
    intro row hrow row' hrow' request request' hrequest hrequest' hid
    obtain ⟨id, rfl⟩ := hrows row hrow
    obtain ⟨id', rfl⟩ := hrows row' hrow'
    cases (rowNamed_parses id).symm.trans hrequest
    cases (rowNamed_parses id').symm.trans hrequest'
    exact congrArg rowNamed hid

def firstGone (p : ℕ) (row : Json) : Bool :=
  decide (2 ≤ p) && decide ((zSigningRequest row).map SigningRequest.id = some "r1")

def smallPages : GuardianCoordinatorOptions noOps := ⟨guardian, 1, none, none⟩

def listPage (total : ℚ) (items : List Json) : Json :=
  .obj [("total", .num total), ("page", .num 1), ("pageSize", .num 1), ("items", .arr items)]

def shrinkingAnswers : ∀ op : (coord noOps).Op, (coord noOps).Answer op
  | .inr (.getSigningRequests _ page _) =>
    if page = 1 then .ok (listPage 2 [rowNamed "r1"]) else .ok (listPage 1 [])
  | .inr (.putNonce ..) => .ok (.obj [("nonce", .str "19"), ("payloadHash", .str (hex 64))])
  | .inr (.putSubmission ..) => .ok .null
  | .inr (.log _) => ()

deriving instance DecidableEq for ApiOp

theorem apiEvents_trace {G : Signature} {α : Type} (answers : ∀ op : (coord G).Op,
    (coord G).Answer op) (p : Coordinating G α) : apiEvents (p.trace answers) =
      ((apiEvents (p.trace answers)).map Event.op).map fun op => ⟨op, answers (.inr op)⟩ := by
  rw [List.map_map]
  refine (List.map_id _).symm.trans (List.map_congr_left fun e he => ?_)
  obtain ⟨⟨op, answer⟩, hd, hde⟩ := List.mem_filterMap.mp he
  cases op with
  | inl op => cases hde
  | inr op =>
    cases hde
    have hanswer : answer = answers (.inr op) := trace_answered answers p _ hd
    rw [hanswer]
    rfl

theorem shrinking_events :
    (apiEvents ((runGuardianCoordinatorOnce smallPages 3 .empty).trace shrinkingAnswers)).map
      Event.op = [.getSigningRequests ⟨none, none⟩ 1 1, .putNonce "r1" ["17", "19"],
        .putSubmission "r1" ⟨1, hex 130, some "19"⟩, .log (.submitted "r1"),
        .getSigningRequests ⟨none, none⟩ 2 1] := by
  decide +kernel

abbrev shrinkingRun : History noOps :=
  (runGuardianCoordinatorOnce smallPages 3 .empty).trace shrinkingAnswers

theorem shrinkingRun_events : apiEvents shrinkingRun =
    [⟨.getSigningRequests ⟨none, none⟩ 1 1, .ok (listPage 2 [rowNamed "r1"])⟩,
      ⟨.putNonce "r1" ["17", "19"],
        .ok (.obj [("nonce", .str "19"), ("payloadHash", .str (hex 64))])⟩,
      ⟨.putSubmission "r1" ⟨1, hex 130, some "19"⟩, .ok .null⟩,
      ⟨.log (.submitted "r1"), ()⟩,
      ⟨.getSigningRequests ⟨none, none⟩ 2 1, .ok (listPage 1 [])⟩] := by
  rw [apiEvents_trace, shrinking_events]
  rfl

theorem firstGone_shrinking : Paging.Shrinking firstGone where
  first _ := rfl
  grows p row h := by
    simp only [firstGone, Bool.and_eq_true, decide_eq_true_eq] at h ⊢
    exact ⟨by omega, h.2⟩

theorem shrinkingRun_served :
    ServedFrom twoRows smallPages.pageSize firstGone [] (apiEvents shrinkingRun) := by
  rw [shrinkingRun_events]
  refine ⟨fun request h => ?_, fun request h => ?_, fun request h => ?_, fun request h => ?_,
    fun request h => ?_, trivial⟩
  · cases h
    exact ⟨fun row _ hgone => (by cases hgone), _, 1, rfl, rfl⟩
  · cases h
  · cases h
  · cases h
  · cases h
    refine ⟨fun row _ hgone => ?_, _, 1, rfl, rfl⟩
    have hid : (zSigningRequest row).map SigningRequest.id = some "r1" := by
      simpa [firstGone] using hgone
    obtain ⟨r, hr, hrid⟩ := Option.map_eq_some_iff.mp hid
    exact ⟨r, hr, hrid ▸ .head _⟩

theorem shrinkingRun_listed : listedRows shrinkingRun = [rowNamed "r1"] := by
  rw [listedRows, pageRequests, shrinkingRun_events]
  rfl

theorem r2_unvisited : rowNamed "r2" ∈ twoRows.rows ∧ ¬AlreadySubmitted (rowNamed "r2") ∧
    ¬VisitedOnce shrinkingRun (rowNamed "r2") := by
  refine ⟨.tail _ (.head _), fun hsubmitted => ?_, fun honce => ?_⟩
  · obtain ⟨request, hrequest, hsome⟩ := hsubmitted
    cases (rowNamed_parses "r2").symm.trans hrequest
    cases hsome
  · obtain ⟨i, hi, _⟩ := honce
    have hmem := List.mem_of_getElem? hi
    rw [shrinkingRun_listed] at hmem
    simp [rowNamed] at hmem

end Sample

/-- Pages of one row: the first row's submission completes it, and the second row moves onto
the page that has been read. -/
theorem completed_row_hides_next : ∃ (opened : OpenRows) (gone : ℕ → Json → Bool)
    (tr : History Sample.noOps) (r : Except Caught Unit × PollState),
    Paging.Shrinking gone ∧
      Executes (runGuardianCoordinatorOnce Sample.smallPages 3 .empty) tr r ∧
      ServedFrom opened Sample.smallPages.pageSize gone [] (apiEvents tr) ∧
      ∃ row ∈ opened.rows, ¬AlreadySubmitted row ∧ ¬VisitedOnce tr row :=
  ⟨Sample.twoRows, Sample.firstGone, Sample.shrinkingRun, _, Sample.firstGone_shrinking,
    executes_trace _ _, Sample.shrinkingRun_served, _, Sample.r2_unvisited⟩

/-- One poll without filters: no row is visited twice, and each row without our submission is
visited exactly when only rows with one slide past a page. -/
theorem poll_visits_iff {G : Signature} (options : GuardianCoordinatorOptions G)
    (hfilters : pollFilters options = [⟨none, none⟩]) (hsize : 1 ≤ options.pageSize)
    (opened : OpenRows) (gone : ℕ → Json → Bool) (hshrinking : Paging.Shrinking gone) (fuel : ℕ)
    (hfuel : opened.rows.length < fuel) (timeouts : SignTimeouts) (tr : History G)
    (r : Except Caught Unit × PollState)
    (hrun : Executes (runGuardianCoordinatorOnce options fuel timeouts) tr r)
    (hserved : ServedFrom opened options.pageSize gone [] (apiEvents tr)) :
    r.1 = .ok () ∧ (listedRows tr).Sublist opened.rows ∧
      ((∀ row ∈ opened.rows, ¬AlreadySubmitted row → VisitedOnce tr row) ↔
        ∀ p, ∀ row ∈ Paging.slid opened.rows options.pageSize gone p, AlreadySubmitted row) := by
  unfold runGuardianCoordinatorOnce at hrun
  rw [hfilters] at hrun
  obtain ⟨tr₁, tr₂, ⟨u, s⟩, rfl, hpages, hrest⟩ := executes_bind.mp hrun
  have hzero : Paging.pageEnd opened.rows options.pageSize gone 0 = 0 := by
    rw [Paging.pageEnd, Paging.goneBy_zero hshrinking, Nat.zero_mul]
  have hlast : tr₂ = [] ∧ r = (u, s) := by
    cases u with
    | error e =>
      obtain ⟨rfl, hr⟩ := runs_done.mp hrest
      cases hr
      exact ⟨rfl, rfl⟩
    | ok u =>
      obtain ⟨rfl, hr⟩ := runs_done.mp hrest
      cases hr
      exact ⟨rfl, rfl⟩
  obtain ⟨rfl, rfl⟩ := hlast
  rw [List.append_nil] at hserved ⊢
  obtain ⟨hok, unread, hperm, hsublist, hunread⟩ := pollPages_visits hsize hshrinking hpages hserved
    (by rw [hzero]; exact Nat.zero_le _) (by omega) fun id hid => (by cases hid)
  rw [hzero, List.drop_zero] at hperm hsublist
  have hnodup : (unread ++ listedRows tr₁).Nodup := hperm.nodup opened.nodup
  obtain ⟨_, hlisted, hdisjoint⟩ := List.nodup_append.mp hnodup
  refine ⟨hok, hsublist, fun hvisited p row hrow => ?_, fun hsubmitted row hrow hopen => ?_⟩
  · have hmem : row ∈ unread := (hunread row).mpr ⟨p, Nat.zero_le p, hrow⟩
    by_contra hopen
    have honce := hvisited row (hperm.mem_iff.mpr (List.mem_append_left _ hmem)) hopen
    exact hdisjoint row hmem row ((visitedOnce_iff hlisted row).mp honce) rfl
  · rw [visitedOnce_iff hlisted]
    rcases List.mem_append.mp (hperm.mem_iff.mp hrow) with hmem | hmem
    · obtain ⟨p, _, hrow⟩ := (hunread row).mp hmem
      exact absurd (hsubmitted p row hrow) hopen
    · exact hmem

theorem poll_visits_iff_small : (listedRows Sample.shrinkingRun).Sublist Sample.twoRows.rows ∧
    ¬∀ p, ∀ row ∈ Paging.slid Sample.twoRows.rows 1 Sample.firstGone p, AlreadySubmitted row := by
  obtain ⟨_, hsublist, hiff⟩ := poll_visits_iff Sample.smallPages rfl le_rfl Sample.twoRows
    Sample.firstGone Sample.firstGone_shrinking 3 (by decide) .empty Sample.shrinkingRun _
    (executes_trace _ _) Sample.shrinkingRun_served
  obtain ⟨hmem, hopen, hunvisited⟩ := Sample.r2_unvisited
  exact ⟨hsublist, fun hslid => hunvisited (hiff.mpr hslid _ hmem hopen)⟩

end Guardian
