import Guardian.Coordinator.Rows

/-!
# The submission gate

Every request of the process that belongs to a row is a stage of that row, and
the row was on a page that grunt-api answered with, without a submission of
ours and with fewer than two deadline hits so far. The deadline hits are counted
in the log, which the `Map` of the process mirrors between rows.
-/

namespace Guardian
open Effect Text Program

section Gate
variable {G : Signature} {options : GuardianCoordinatorOptions G}

/-- Pages and log lines stand between rows; the other calls belong to one. -/
def betweenRows : ApiOp → Bool
  | .getSigningRequests .. => true
  | .log _ => true
  | _ => false

def ofRow : (coord G).Op → Bool
  | .inl _ => true
  | .inr op => !betweenRows op

def signTimeoutOf (id : String) (e : Event gruntApi) : Bool :=
  match e.op with
  | .log (.failed id' error _) => decide (id' = id) && isSignTimeout error
  | _ => false

def signTimeoutsOf (id : String) (hist : History G) : ℕ :=
  (apiEvents hist).countP (signTimeoutOf id)

def Lists (options : GuardianCoordinatorOptions G) (hist : History G) (item : Json) : Prop :=
  ∃ filter page answer requests,
    (⟨.inr (.getSigningRequests filter page options.pageSize), .ok answer⟩ : Event (coord G)) ∈
      hist ∧ zSigningRequestPage answer = some requests ∧ item ∈ requests.items

structure Open (options : GuardianCoordinatorOptions G) (hist : History G)
    (request : SigningRequest) : Prop where
  listed : ∃ item, Lists options hist item ∧ zSigningRequest item = some request
  unsubmitted : request.mySubmission = none
  notGivenUp : signTimeoutsOf request.id hist < SIGN_TIMEOUTS_BEFORE_GIVING_UP
  between : ∀ e ∈ (apiEvents hist).getLast?, betweenRows e.op = true

inductive AsksInRow (options : GuardianCoordinatorOptions G) :
    History G → (coord G).Op → Prop where
  | intro {before row : History G} {request : SigningRequest} {op : (coord G).Op}
      (isOpen : Open options before request) (asks : RowAsks options request row op) :
      AsksInRow options (before ++ row) op

inductive SubmissionGate (options : GuardianCoordinatorOptions G) :
    History G → String → Submission → Prop where
  | intro {before announcing signing : History G} {request : SigningRequest}
      {parsed : ParsedSigningBody} {announced : Announced} {success : SigningSuccess}
      (isOpen : Open options before request) (admitted : Admitted options request parsed)
      (announces : Announces options.guardian request parsed announcing announced)
      (signs : Signs options.guardian announced success signing) :
      SubmissionGate options (before ++ (announcing ++ signing)) request.id
        ⟨parsed.chainId, success.signature, announced.nonce⟩

/-- The invariant between rows: the `Map` counts what the log records. -/
structure Between (timeouts : SignTimeouts) (hist : History G) : Prop where
  hits : ∀ id, timeouts.hits id = signTimeoutsOf id hist
  between : ∀ e ∈ (apiEvents hist).getLast?, betweenRows e.op = true

@[simp] theorem apiEvents_snoc (hist : History G) (op : ApiOp) (answer : op.Answer) :
    apiEvents (hist ++ [⟨.inr op, answer⟩]) = apiEvents hist ++ [⟨op, answer⟩] := by
  rw [apiEvents_append]
  rfl

theorem signTimeoutsOf_append (id : String) (hist tr : History G) :
    signTimeoutsOf id (hist ++ tr) = signTimeoutsOf id hist + signTimeoutsOf id tr := by
  simp only [signTimeoutsOf, apiEvents_append, List.countP_append]

theorem signTimeoutOf_row {id : String} {e : Event gruntApi} (h : betweenRows e.op = false) :
    signTimeoutOf id e = false := by
  unfold signTimeoutOf
  split
  · rename_i hop
    rw [hop] at h
    cases h
  · rfl

theorem signTimeoutsOf_row {id : String} {tr : History G} (h : ∀ e ∈ tr, ofRow e.op = true) :
    signTimeoutsOf id tr = 0 := by
  rw [signTimeoutsOf, List.countP_eq_zero]
  intro e he
  obtain ⟨⟨op, answer⟩, hd, hde⟩ := List.mem_filterMap.mp he
  cases op with
  | inl op => cases hde
  | inr op =>
    cases hde
    rw [Bool.not_eq_true]
    exact signTimeoutOf_row (by simpa [ofRow] using h _ hd)

theorem rowAsks_ofRow {request : SigningRequest} {tr : History G} {op : (coord G).Op}
    (h : RowAsks options request tr op) : ofRow op = true := by
  cases h <;> rfl

theorem handleRequest_ofRow {request : SigningRequest} {tr : History G}
    {q : Coordinating G (Except Caught Handled)}
    (h : Runs (handleRequest options request) tr q) : ∀ e ∈ tr, ofRow e.op = true := by
  intro e he
  obtain ⟨pre, post, rfl⟩ := List.append_of_mem he
  obtain ⟨next, hrun, _⟩ := h.split
  exact rowAsks_ofRow (handleRequest_asks hrun)

theorem hits_set (timeouts : SignTimeouts) (id id' : String) (n : ℕ) :
    SignTimeouts.hits (timeouts.set id n) id' = if id' = id then n else timeouts.hits id' := by
  unfold SignTimeouts.hits
  rw [OrderedMap.get?_set]
  split <;> rfl

theorem Between.quiet {timeouts : SignTimeouts} {hist : History G} {op : ApiOp}
    (answer : op.Answer) (h : ∀ id, timeouts.hits id = signTimeoutsOf id hist)
    (hop : betweenRows op = true) (hquiet : ∀ id, signTimeoutOf id ⟨op, answer⟩ = false) :
    Between timeouts (hist ++ [⟨.inr op, answer⟩]) := by
  refine ⟨fun id => ?_, fun e he => ?_⟩
  · rw [h, signTimeoutsOf, signTimeoutsOf, apiEvents_snoc, List.countP_append]
    simp [hquiet]
  · rw [apiEvents_snoc, List.getLast?_concat, Option.mem_some_iff] at he
    rw [← he]
    exact hop

theorem Between.fail {s : PollState} {hist : History G} {id : String} {error : Caught}
    {gaveUp : Bool} (h : ∀ id, s.timeouts.hits id = signTimeoutsOf id hist) :
    Between (s.hit id error).timeouts
      (hist ++ [⟨.inr (.log (.failed id error gaveUp)), ()⟩]) := by
  refine ⟨fun id' => ?_, fun e he => ?_⟩
  · rw [signTimeoutsOf_append, ← h]
    unfold PollState.hit
    split
    · rename_i htimeout
      by_cases hid : id' = id
      · simp [hits_set, hid, signTimeoutsOf, apiEvents, apiEvent, signTimeoutOf, htimeout]
      · have hne : ¬ id = id' := fun h => hid h.symm
        simp [hits_set, hid, hne, signTimeoutsOf, apiEvents, apiEvent, signTimeoutOf]
    · rename_i htimeout
      simp [signTimeoutsOf, apiEvents, apiEvent, signTimeoutOf, htimeout]
  · rw [apiEvents_snoc, List.getLast?_concat, Option.mem_some_iff] at he
    rw [← he]
    rfl

/-- Nothing is relied on; every call of a row must be a stage of an open one. -/
def gate (options : GuardianCoordinatorOptions G) : Protocol (coord G) (History G) :=
  .history (fun hist op => ofRow op = true → AsksInRow options hist op) fun _ => True

theorem handleRequest_gated {request : SigningRequest} {hist : History G}
    (isOpen : Open options hist request) :
    (handleRequest options request).Obeys (gate options) (fun hist' handled =>
      (∀ id, signTimeoutsOf id hist' = signTimeoutsOf id hist) ∧
        (handled = .ok .skipped → apiEvents hist' = apiEvents hist)) hist := by
  refine obeys_of_runs (fun tr op next h => ?_) fun tr handled h => ?_
  · rw [gate, Protocol.history_state]
    exact fun _ => .intro isOpen (handleRequest_asks h)
  · rw [gate, Protocol.history_state]
    refine ⟨fun id => ?_, fun hskipped => ?_⟩
    · rw [signTimeoutsOf_append, signTimeoutsOf_row (handleRequest_ofRow h), Nat.add_zero]
    · rw [hskipped] at h
      rw [apiEvents_append, handleRequest_skipped h, List.append_nil]

theorem settleRequest_gated {request : SigningRequest} {s : PollState}
    {handled : Except Caught Handled} {hist hist' : History G} (hbetween : Between s.timeouts hist)
    (hhits : ∀ id, signTimeoutsOf id hist' = signTimeoutsOf id hist)
    (hskipped : handled = .ok .skipped → apiEvents hist' = apiEvents hist) :
    (settleRequest request s handled).Obeys (gate options)
      (fun hist s => Between s.timeouts hist) hist' := by
  have hits : ∀ id, s.timeouts.hits id = signTimeoutsOf id hist' := fun id => by
    rw [hbetween.hits, hhits]
  match handled with
  | .ok .skipped => exact .pure ⟨hits, by rw [hskipped rfl]; exact hbetween.between⟩
  | .ok .signed =>
    exact .call_bind nofun fun _ _ => .pure (.quiet _ hits rfl fun _ => rfl)
  | .error e => exact .call_bind nofun fun _ _ => .pure (.fail hits)

theorem handleItem_gated (s : PollState) (hist : History G) (item : Json)
    (hbetween : Between s.timeouts hist) (hlists : Lists options hist item) :
    (handleItem options item s).Obeys (gate options)
      (fun hist s => Between s.timeouts hist) hist := by
  unfold handleItem
  split
  · exact .call_bind nofun fun _ _ => .pure (.quiet _ hbetween.hits rfl fun _ => rfl)
  · rename_i request hrequest
    split
    · exact .pure hbetween
    · rename_i hskip
      simp only [Bool.or_eq_true, not_or, Bool.not_eq_true, Option.isSome_eq_false_iff,
        Option.isNone_iff_eq_none, PollState.gaveUp, decide_eq_true_eq, not_le] at hskip
      have isOpen : Open options hist request :=
        ⟨⟨item, hlists, hrequest⟩, hskip.1, hbetween.hits request.id ▸ hskip.2, hbetween.between⟩
      exact .bind (handleRequest_gated isOpen) fun hist' handled h =>
        settleRequest_gated hbetween h.1 h.2

theorem gate_rule (options : GuardianCoordinatorOptions G) :
    PollRule (gate options) options Between (Lists options) where
  page timeouts hist filter page hbetween := by
    refine ⟨nofun, fun answer _ => ⟨.quiet _ hbetween.hits rfl fun _ => rfl, ?_⟩⟩
    rintro j requests rfl hrequests item hitem
    exact ⟨filter, page, j, requests, List.mem_append_right _ (List.mem_singleton_self _),
      hrequests, hitem⟩
  item s hist item hbetween hlists := by
    refine (handleItem_gated s hist item hbetween hlists).extends.mono fun hist' s' h => ?_
    refine ⟨h.2, fun item' ⟨filter, page, answer, requests, hmem, hrest⟩ => ?_⟩
    exact ⟨filter, page, answer, requests, h.1.subset hmem, hrest⟩
  log timeouts hist line hline hbetween := by
    refine ⟨nofun, .quiet _ hbetween.hits rfl fun id => ?_⟩
    cases line <;> first | rfl | cases hline

theorem runGuardianCoordinator_asks {fuel n : ℕ} {hist : History G} {op : (coord G).Op}
    {next : (coord G).Answer op → Coordinating G SignTimeouts}
    (h : Runs (runGuardianCoordinator options fuel n .empty) hist (.perform op next))
    (hop : ofRow op = true) : AsksInRow options hist op := by
  have hobeys := (gate_rule options).runGuardianCoordinator_obeys fuel n
    (⟨fun _ => rfl, fun e he => by cases he⟩ : Between .empty ([] : History G))
  have hpermits := (hobeys.runs h (Protocol.follows_of_forall (fun _ _ _ => trivial)
    fun _ _ => trivial)).1
  rw [gate, Protocol.history_state] at hpermits
  exact hpermits hop

/-- A signature is only submitted through the gate, in every run. -/
theorem submission_gated (options : GuardianCoordinatorOptions G) (fuel n : ℕ) (hist : History G)
    (id : String) (submission : Submission)
    (next : Except Caught Json → Coordinating G SignTimeouts)
    (h : Runs (runGuardianCoordinator options fuel n .empty) hist
      (.perform (.inr (.putSubmission id submission)) next)) :
    SubmissionGate options hist id submission := by
  cases runGuardianCoordinator_asks h rfl with
  | intro isOpen asks =>
    cases asks with
    | submitting admitted announces signs =>
      rw [announces.chainId_eq]
      exact .intro isOpen admitted announces signs

end Gate

namespace Sample

def noOps : Signature := ⟨Empty, fun _ => Unit⟩

def hex (n : ℕ) : String := "0x" ++ String.ofList (List.replicate n 'a')

def independentBody : Json :=
  .obj [("chainId", .num 1), ("whitelistBook", .str (hex 40)), ("operation", .str "whitelist"),
    ("requestContracts", .arr [.str (hex 40)]), ("deadline", .num 1050)]

def independentRow : Json :=
  .obj [("id", .str "r1"), ("kind", .str "request_whitelisting"), ("chainId", .num 1),
    ("facility", .str (hex 40)), ("payloadHash", .str ""), ("body", independentBody),
    ("mySubmission", .null)]

def whitelistingResponse (nonce : String) : Json :=
  .obj [("guardian", .str (hex 40)), ("signature", .str (hex 130)), ("payloadHash", .str (hex 64)),
    ("signedAt", .str "2024-02-28T23:59:59Z"), ("checks", .arr []), ("address", .str (hex 40)),
    ("nonce", .str nonce)]

def guardian : CoordinatorGuardian noOps where
  guardianSigner := hex 40
  probeUpstream := none
  getChainClient _ := return .ok ()
  signIntentRequestBinding _ := return .error .zodError
  signIntentFundBinding _ := return .error .zodError
  signIntentSwap _ := return .error .zodError
  signRequestWhitelisting := some fun body => return .ok (whitelistingResponse body.nonce)
  whitelistNonceCandidates := some fun _ => return .ok ["17", "19"]

def coordinatorOptions : GuardianCoordinatorOptions noOps := ⟨guardian, 100, some [1], none⟩

def gruntApiAnswers : ∀ op : (coord noOps).Op, (coord noOps).Answer op
  | .inr (.getSigningRequests ..) => .ok (.obj [("total", .num 1), ("page", .num 1),
      ("pageSize", .num 100), ("items", .arr [independentRow])])
  | .inr (.putNonce ..) => .ok (.obj [("nonce", .str "19"), ("payloadHash", .str (hex 64))])
  | .inr (.putSubmission ..) => .ok .null
  | .inr (.log _) => ()

def submissions {G : Signature} (hist : History G) : List (String × Submission) :=
  hist.filterMap fun
    | ⟨.inr (.putSubmission id submission), _⟩ => some (id, submission)
    | _ => none

theorem mem_submissions {G : Signature} {hist : History G} {id : String}
    {submission : Submission} (h : (id, submission) ∈ submissions hist) :
    ∃ pre post answer, hist = pre ++ ⟨.inr (.putSubmission id submission), answer⟩ :: post := by
  obtain ⟨e, hmem, he⟩ := List.mem_filterMap.mp h
  obtain ⟨pre, post, rfl⟩ := List.append_of_mem hmem
  split at he
  · cases he
    exact ⟨pre, post, _, rfl⟩
  · cases he

end Sample

theorem submission_gated_independent : ∃ hist, SubmissionGate Sample.coordinatorOptions hist "r1"
    ⟨1, Sample.hex 130, some "19"⟩ := by
  have hmem : ("r1", ⟨1, Sample.hex 130, some "19"⟩) ∈ Sample.submissions
      ((runGuardianCoordinator Sample.coordinatorOptions 1 1 .empty).trace
        Sample.gruntApiAnswers) := by decide +kernel
  obtain ⟨pre, post, answer, htrace⟩ := Sample.mem_submissions hmem
  have hrun := executes_trace Sample.gruntApiAnswers
    (runGuardianCoordinator Sample.coordinatorOptions 1 1 .empty)
  rw [htrace] at hrun
  obtain ⟨next, hrun, _⟩ := hrun.split
  exact ⟨pre, submission_gated Sample.coordinatorOptions 1 1 pre "r1" _ next hrun⟩

end Guardian
