import Guardian.Coordinator.Poll

/-!
# Rows and polls

What one row may ask of the outside, and behind which events. `RowAsks` lists
the stages of the row handler in order, and `handleRequest_asks` reads them off
any run of it. `PollRule` is the loop rule of the poll: what a protocol and an
invariant between rows owe, so that the process keeps both.
-/

namespace Guardian
open Effect Text Program

section Rows
variable {G : Signature}

abbrev History (G : Signature) := List (Event (coord G))

def apiEvent : Event (coord G) → Option (Event gruntApi)
  | ⟨.inl _, _⟩ => none
  | ⟨.inr op, answer⟩ => some ⟨op, answer⟩

def apiEvents (tr : History G) : List (Event gruntApi) := tr.filterMap apiEvent

@[simp] theorem apiEvents_append (tr tr' : History G) :
    apiEvents (tr ++ tr') = apiEvents tr ++ apiEvents tr' := List.filterMap_append

@[simp] theorem apiEvents_inLeft (tr : List (Event G)) :
    apiEvents (tr.map (@Event.inLeft G gruntApi)) = [] := by
  induction tr with
  | nil => rfl
  | cons e tr ih => exact ih

structure Admitted (options : GuardianCoordinatorOptions G) (request : SigningRequest)
    (parsed : ParsedSigningBody) : Prop where
  parses : parseSigningBody request = some parsed
  chainId : request.chainId = parsed.chainId
  target : toLowerCase request.facility = toLowerCase parsed.target.2
  chainIds : ∀ chainIds, options.chainIds = some chainIds → parsed.chainId ∈ chainIds
  facilities : ∀ facilities, options.facilities = some facilities →
    toLowerCase parsed.target.2 ∈ facilities

/-- The body to be signed and its hash, as the row lists them or as they were reserved. -/
inductive Announces (guardian : CoordinatorGuardian G) (request : SigningRequest) :
    ParsedSigningBody → History G → Announced → Prop where
  | listed {parsed : ParsedSigningBody} (dependent : independentNonce request parsed = false) :
      Announces guardian request parsed [] ⟨parsed, request.payloadHash, none⟩
  | reserved {body : RequestWhitelistingBody}
      {compute : RequestWhitelistingBody → Program G (Except Caught (List String))}
      {tr : List (Event G)} {candidates : List String} {answer : Json} {reserved : Reservation}
      (independent : independentNonce request (.requestWhitelisting body) = true)
      (configured : guardian.whitelistNonceCandidates = some compute)
      (computed : Executes (compute body) tr (.ok candidates))
      (parses : zReservation answer = some reserved) (among : reserved.nonce ∈ candidates) :
      Announces guardian request (.requestWhitelisting body)
        (tr.map Event.inLeft ++ [⟨.inr (.putNonce request.id candidates), .ok answer⟩])
        ⟨.requestWhitelisting { body with nonce := reserved.nonce }, reserved.payloadHash,
          some reserved.nonce⟩

theorem Announces.chainId_eq {guardian : CoordinatorGuardian G} {request : SigningRequest}
    {parsed : ParsedSigningBody} {tr : History G} {announced : Announced}
    (h : Announces guardian request parsed tr announced) :
    announced.parsed.chainId = parsed.chainId := by
  cases h <;> rfl

/-- The guardian returned `success` for exactly the announced body. -/
inductive Signs (guardian : CoordinatorGuardian G) (announced : Announced)
    (success : SigningSuccess) : History G → Prop where
  | intro {tr : List (Event G)} {signed : Json}
      (returned : Executes (runSigningOf guardian announced.parsed) tr (.ok signed))
      (valid : announced.parsed.zResponse signed = some success)
      (payloadHash : toLowerCase success.payloadHash = toLowerCase announced.payloadHash)
      (guardianSigner : toLowerCase success.guardian = toLowerCase guardian.guardianSigner) :
      Signs guardian announced success (tr.map Event.inLeft)

inductive RowAsks (options : GuardianCoordinatorOptions G) (request : SigningRequest) :
    History G → (coord G).Op → Prop where
  | computing {body : RequestWhitelistingBody}
      {compute : RequestWhitelistingBody → Program G (Except Caught (List String))}
      {tr : List (Event G)} {op : G.Op}
      {next : G.Answer op → Program G (Except Caught (List String))}
      (admitted : Admitted options request (.requestWhitelisting body))
      (independent : independentNonce request (.requestWhitelisting body) = true)
      (configured : options.guardian.whitelistNonceCandidates = some compute)
      (computing : Runs (compute body) tr (.perform op next)) :
      RowAsks options request (tr.map Event.inLeft) (.inl op)
  | reserving {body : RequestWhitelistingBody}
      {compute : RequestWhitelistingBody → Program G (Except Caught (List String))}
      {tr : List (Event G)} {candidates : List String}
      (admitted : Admitted options request (.requestWhitelisting body))
      (independent : independentNonce request (.requestWhitelisting body) = true)
      (configured : options.guardian.whitelistNonceCandidates = some compute)
      (computed : Executes (compute body) tr (.ok candidates)) (some : candidates ≠ []) :
      RowAsks options request (tr.map Event.inLeft) (.inr (.putNonce request.id candidates))
  | signing {parsed : ParsedSigningBody} {announced : Announced} {tr : History G}
      {tr' : List (Event G)} {op : G.Op} {next : G.Answer op → Program G (Except Caught Json)}
      (admitted : Admitted options request parsed)
      (announces : Announces options.guardian request parsed tr announced)
      (signing : Runs (runSigningOf options.guardian announced.parsed) tr' (.perform op next)) :
      RowAsks options request (tr ++ tr'.map Event.inLeft) (.inl op)
  | submitting {parsed : ParsedSigningBody} {announced : Announced} {tr tr' : History G}
      {success : SigningSuccess} (admitted : Admitted options request parsed)
      (announces : Announces options.guardian request parsed tr announced)
      (signs : Signs options.guardian announced success tr') :
      RowAsks options request (tr ++ tr') (.inr (.putSubmission request.id
        ⟨announced.parsed.chainId, success.signature, announced.nonce⟩))

variable {options : GuardianCoordinatorOptions G} {request : SigningRequest}
  {parsed : ParsedSigningBody} {tr : History G} {op : (coord G).Op}

theorem excluded_eq_false : excluded options parsed = false ↔
    (∀ chainIds, options.chainIds = some chainIds → parsed.chainId ∈ chainIds) ∧
      ∀ facilities, options.facilities = some facilities →
        toLowerCase parsed.target.2 ∈ facilities := by
  unfold excluded
  cases options.chainIds <;> cases options.facilities <;> simp

theorem checkSigned_eq_ok {guardianSigner : Address} {payloadHash : String} {signed : Json}
    {success : SigningSuccess}
    (h : checkSigned guardianSigner payloadHash parsed signed = .ok success) :
    parsed.zResponse signed = some success ∧
      toLowerCase success.payloadHash = toLowerCase payloadHash ∧
      toLowerCase success.guardian = toLowerCase guardianSigner := by
  unfold checkSigned at h
  split at h
  · cases h
  · split at h
    · cases h
    · split at h
      · cases h
      · rename_i hvalid hhash hguardian
        cases h
        exact ⟨hvalid, not_not.mp hhash, not_not.mp hguardian⟩

theorem acceptReservation_eq_ok {body : RequestWhitelistingBody} {candidates : List String}
    {answer : Json} {r : Option Announced}
    (h : acceptReservation body candidates answer = .ok r) :
    ∃ reserved, zReservation answer = some reserved ∧ reserved.nonce ∈ candidates ∧
      r = some ⟨.requestWhitelisting { body with nonce := reserved.nonce },
        reserved.payloadHash, some reserved.nonce⟩ := by
  unfold acceptReservation at h
  split at h
  · cases h
  · split at h
    · rename_i reserved hparses hmem
      cases h
      exact ⟨reserved, hparses, hmem, rfl⟩
    · cases h

theorem signWithGuardian_runs {guardian : CoordinatorGuardian G} {payloadHash : String}
    {next : (coord G).Answer op → Coordinating G (Except Caught SigningSuccess)}
    (h : Runs (signWithGuardian guardian payloadHash parsed) tr (.perform op next)) :
    ∃ tr' op' next', tr = tr'.map Event.inLeft ∧ op = .inl op' ∧
      Runs (runSigningOf guardian parsed) tr' (.perform op' next') := by
  rcases runs_bind_perform h with ⟨_, h⟩ | ⟨_, _, _, _, _, h⟩
  · exact runs_inLeft_perform h
  · cases (runs_done.mp h).2

theorem signWithGuardian_signs {guardian : CoordinatorGuardian G} {announced : Announced}
    {success : SigningSuccess}
    (h : Executes (signWithGuardian guardian announced.payloadHash announced.parsed) tr
      (.ok success)) : Signs guardian announced success tr := by
  obtain ⟨tr₁, tr₂, signed, rfl, h₁, h⟩ := executes_bind.mp h
  obtain ⟨rfl, hsigned⟩ := runs_done.mp h
  obtain ⟨tr', rfl, hreturned⟩ := executes_inLeft.mp h₁
  rw [List.append_nil]
  cases signed with
  | error e => cases hsigned
  | ok signed =>
    obtain ⟨hvalid, hhash, hguardian⟩ := checkSigned_eq_ok (Program.done.inj hsigned).symm
    exact .intro hreturned hvalid hhash hguardian

theorem reserveNonce_runs {guardian : CoordinatorGuardian G} {body : RequestWhitelistingBody}
    {next : (coord G).Answer op → Coordinating G (Except Caught (Option Announced))}
    (h : Runs (reserveNonce guardian request body) tr (.perform op next)) :
    ∃ compute tr', guardian.whitelistNonceCandidates = some compute ∧
      tr = tr'.map Event.inLeft ∧
      ((∃ op' next', op = .inl op' ∧ Runs (compute body) tr' (.perform op' next')) ∨
        ∃ candidates, op = .inr (.putNonce request.id candidates) ∧ candidates ≠ [] ∧
          Executes (compute body) tr' (.ok candidates)) := by
  unfold reserveNonce at h
  split at h
  · cases (runs_done.mp h).2
  · rename_i compute hcompute
    rcases runs_bind_perform h with ⟨_, h⟩ | ⟨tr₁, tr₂, r, rfl, h₁, h⟩
    · obtain ⟨tr', op', next', rfl, rfl, hrun⟩ := runs_inLeft_perform h
      exact ⟨compute, tr', hcompute, rfl, .inl ⟨op', next', rfl, hrun⟩⟩
    · obtain ⟨tr', rfl, hcomputed⟩ := executes_inLeft.mp h₁
      cases r with
      | error e => cases (runs_done.mp h).2
      | ok candidates =>
        dsimp only at h
        split at h
        · cases (runs_done.mp h).2
        · rename_i hne
          cases h with
          | refl =>
            rw [List.append_nil]
            exact ⟨compute, tr', hcompute, rfl, .inr ⟨candidates, rfl, hne, hcomputed⟩⟩
          | step r h => cases (runs_done.mp h).2

theorem reserveNonce_executes {guardian : CoordinatorGuardian G} {body : RequestWhitelistingBody}
    {r : Option Announced} (h : Executes (reserveNonce guardian request body) tr (.ok r))
    (independent : independentNonce request (.requestWhitelisting body) = true) :
    r = none ∧ apiEvents tr = [] ∨
      ∃ announced, r = some announced ∧
        Announces guardian request (.requestWhitelisting body) tr announced := by
  unfold reserveNonce at h
  split at h
  · cases (runs_done.mp h).2
  · rename_i compute hcompute
    obtain ⟨tr₁, tr₂, computed, rfl, h₁, h⟩ := executes_bind.mp h
    obtain ⟨tr', rfl, hcomputed⟩ := executes_inLeft.mp h₁
    cases computed with
    | error e => cases (runs_done.mp h).2
    | ok candidates =>
      dsimp only at h
      split at h
      · obtain ⟨rfl, hr⟩ := runs_done.mp h
        cases hr
        exact .inl ⟨rfl, by simp⟩
      · obtain ⟨answer, tr₃, rfl, hrest⟩ := executes_perform.mp h
        obtain ⟨rfl, hr⟩ := runs_done.mp hrest
        cases answer with
        | error e => cases hr
        | ok answer =>
          obtain ⟨reserved, hparses, hmem, rfl⟩ :=
            acceptReservation_eq_ok (Program.done.inj hr).symm
          exact .inr ⟨_, rfl, .reserved independent hcompute hcomputed hparses hmem⟩

theorem announce_listed {guardian : CoordinatorGuardian G}
    (h : independentNonce request parsed = false) :
    announce guardian request parsed = .done (.ok (some ⟨parsed, request.payloadHash, none⟩)) := by
  unfold announce
  rw [h]
  cases parsed <;> rfl

theorem announce_independent (guardian : CoordinatorGuardian G)
    (h : independentNonce request parsed = true) :
    ∃ body, parsed = .requestWhitelisting body ∧
      announce guardian request parsed = reserveNonce guardian request body := by
  cases parsed with
  | requestWhitelisting body =>
    refine ⟨body, rfl, ?_⟩
    unfold announce
    rw [h]
  | _ => cases h

theorem announce_runs
    {next : (coord G).Answer op → Coordinating G (Except Caught (Option Announced))}
    (admitted : Admitted options request parsed)
    (h : Runs (announce options.guardian request parsed) tr (.perform op next)) :
    RowAsks options request tr op := by
  cases hind : independentNonce request parsed with
  | false =>
    rw [announce_listed hind] at h
    cases (runs_done.mp h).2
  | true =>
    obtain ⟨body, rfl, hannounce⟩ := announce_independent options.guardian hind
    rw [hannounce] at h
    obtain ⟨compute, tr', hcompute, rfl, hstage⟩ := reserveNonce_runs h
    rcases hstage with ⟨op', next', rfl, hrun⟩ | ⟨candidates, rfl, hne, hcomputed⟩
    · exact .computing admitted hind hcompute hrun
    · exact .reserving admitted hind hcompute hcomputed hne

theorem announce_executes {r : Option Announced}
    (h : Executes (announce options.guardian request parsed) tr (.ok r)) :
    r = none ∧ apiEvents tr = [] ∨
      ∃ announced, r = some announced ∧
        Announces options.guardian request parsed tr announced := by
  cases hind : independentNonce request parsed with
  | false =>
    rw [announce_listed hind] at h
    obtain ⟨rfl, hr⟩ := runs_done.mp h
    cases hr
    exact .inr ⟨_, rfl, .listed hind⟩
  | true =>
    obtain ⟨body, rfl, hannounce⟩ := announce_independent options.guardian hind
    rw [hannounce] at h
    exact reserveNonce_executes h hind

theorem submitSigned_runs {announced : Announced} {tr₁ : History G}
    {next : (coord G).Answer op → Coordinating G (Except Caught Handled)}
    (admitted : Admitted options request parsed)
    (announces : Announces options.guardian request parsed tr₁ announced)
    (h : Runs (submitSigned options.guardian request announced) tr (.perform op next)) :
    RowAsks options request (tr₁ ++ tr) op := by
  rcases runs_bind_perform h with ⟨_, h⟩ | ⟨tr₂, tr₃, r, rfl, h₂, h⟩
  · obtain ⟨tr', op', next', rfl, rfl, hrun⟩ := signWithGuardian_runs h
    exact .signing admitted announces hrun
  · cases r with
    | error e => cases (runs_done.mp h).2
    | ok success =>
      cases h with
      | refl =>
        rw [List.append_nil]
        exact .submitting admitted announces (signWithGuardian_signs h₂)
      | step r h => cases (runs_done.mp h).2

theorem handleRequest_path {q : Coordinating G (Except Caught Handled)}
    (h : Runs (handleRequest options request) tr q) :
    (tr = [] ∧ ∃ r, q = .done r) ∨ ∃ parsed, Admitted options request parsed ∧
      Runs ((announce options.guardian request parsed).bind fun
        | .error e => .done (.error e)
        | .ok none => .done (.ok .skipped)
        | .ok (some announced) => submitSigned options.guardian request announced) tr q := by
  unfold handleRequest at h
  split at h
  · exact .inl ⟨(runs_done.mp h).1, _, (runs_done.mp h).2⟩
  · rename_i parsed hparsed
    split at h
    · exact .inl ⟨(runs_done.mp h).1, _, (runs_done.mp h).2⟩
    · split at h
      · exact .inl ⟨(runs_done.mp h).1, _, (runs_done.mp h).2⟩
      · split at h
        · exact .inl ⟨(runs_done.mp h).1, _, (runs_done.mp h).2⟩
        · rename_i hchain htarget hexcluded
          obtain ⟨hchainIds, hfacilities⟩ :=
            excluded_eq_false.mp (Bool.eq_false_iff.mpr hexcluded)
          exact .inr ⟨parsed, ⟨hparsed, not_not.mp hchain, not_not.mp htarget, hchainIds,
            hfacilities⟩, h⟩

theorem handleRequest_asks {next : (coord G).Answer op → Coordinating G (Except Caught Handled)}
    (h : Runs (handleRequest options request) tr (.perform op next)) :
    RowAsks options request tr op := by
  rcases handleRequest_path h with ⟨_, r, hr⟩ | ⟨parsed, admitted, h⟩
  · cases hr
  · rcases runs_bind_perform h with ⟨_, h⟩ | ⟨tr₁, tr₂, r, rfl, h₁, h⟩
    · exact announce_runs admitted h
    · match r, h₁, h with
      | .error e, _, h => cases (runs_done.mp h).2
      | .ok none, _, h => cases (runs_done.mp h).2
      | .ok (some announced), h₁, h =>
        rcases announce_executes h₁ with ⟨hnone, _⟩ | ⟨_, hsome, announces⟩
        · cases hnone
        · cases hsome
          exact submitSigned_runs admitted announces h

theorem handleRequest_skipped (h : Executes (handleRequest options request) tr (.ok .skipped)) :
    apiEvents tr = [] := by
  rcases handleRequest_path h with ⟨rfl, _⟩ | ⟨parsed, admitted, h⟩
  · rfl
  · obtain ⟨tr₁, tr₂, r, rfl, h₁, h⟩ := executes_bind.mp h
    match r, h₁, h with
    | .error e, _, h => cases (runs_done.mp h).2
    | .ok none, h₁, h =>
      obtain ⟨rfl, _⟩ := runs_done.mp h
      rcases announce_executes h₁ with ⟨_, hnone⟩ | ⟨_, hsome, _⟩
      · simpa using hnone
      · cases hsome
    | .ok (some announced), _, h =>
      obtain ⟨tr₃, tr₄, r, rfl, _, h⟩ := executes_bind.mp h
      cases r with
      | error e => cases (runs_done.mp h).2
      | ok success =>
        obtain ⟨answer, tr₅, rfl, hrest⟩ := executes_perform.mp h
        cases answer <;> cases (runs_done.mp hrest).2

def LogLine.ofPoll : LogLine → Bool
  | .pollFailed _ => true
  | .heartbeat .. => true
  | _ => false

/-- What a protocol and an invariant between rows owe to the poll loops. -/
structure PollRule {γ : Type} (P : Protocol (coord G) γ) (options : GuardianCoordinatorOptions G)
    (I : SignTimeouts → γ → Prop) (Lists : γ → Json → Prop) : Prop where
  page : ∀ timeouts g filter page, I timeouts g →
    P.permits g (.inr (.getSigningRequests filter page options.pageSize)) ∧
      ∀ answer : Except Caught Json,
        P.expects g ⟨.inr (.getSigningRequests filter page options.pageSize), answer⟩ →
        I timeouts (P.advance g ⟨.inr (.getSigningRequests filter page options.pageSize), answer⟩) ∧
        ∀ j requests, answer = .ok j → zSigningRequestPage j = some requests →
          ∀ item ∈ requests.items, Lists
            (P.advance g ⟨.inr (.getSigningRequests filter page options.pageSize), answer⟩) item
  item : ∀ (s : PollState) g item, I s.timeouts g → Lists g item →
    (handleItem options item s).Obeys P
      (fun g' s' => I s'.timeouts g' ∧ ∀ item', Lists g item' → Lists g' item') g
  log : ∀ timeouts g line, line.ofPoll = true → I timeouts g →
    P.permits g (.inr (.log line)) ∧ I timeouts (P.advance g ⟨.inr (.log line), ()⟩)

namespace PollRule
variable {γ : Type} {P : Protocol (coord G) γ} {I : SignTimeouts → γ → Prop}
  {Lists : γ → Json → Prop}

theorem handleItems_obeys (rule : PollRule P options I Lists) {items : List Json} {s : PollState}
    {g : γ} (hI : I s.timeouts g) (hlists : ∀ item ∈ items, Lists g item) :
    (handleItems options items s).Obeys P (fun g' s' => I s'.timeouts g') g := by
  induction items generalizing s g with
  | nil => exact .pure hI
  | cons item items ih =>
    refine .bind (rule.item s g item hI (hlists item (by simp))) fun g' s' h => ?_
    exact ih h.1 fun item' hmem => h.2 item' (hlists item' (by simp [hmem]))

theorem pollPages_obeys (rule : PollRule P options I Lists) (filter : PollFilter) {fuel page : ℕ}
    {s : PollState} {g : γ} (hI : I s.timeouts g) :
    (pollPages options filter fuel page s).Obeys P (fun g' r => I r.2.timeouts g') g := by
  induction fuel generalizing page s g with
  | zero => exact .pure hI
  | succ fuel ih =>
    obtain ⟨hpermits, hanswer⟩ := rule.page s.timeouts g filter page hI
    refine .call_bind hpermits fun answer hexpects => ?_
    obtain ⟨hI', hlists⟩ := hanswer answer hexpects
    cases answer with
    | error e => exact .pure hI'
    | ok j =>
      dsimp only
      split
      · exact .pure hI'
      · rename_i requests hrequests
        refine .bind (rule.handleItems_obeys (by simpa using hI')
          (hlists j requests rfl hrequests)) fun g' s' h => ?_
        split
        · exact .pure h
        · exact ih h

theorem pollEach_obeys (rule : PollRule P options I Lists) (fuel : ℕ) {filters : List PollFilter}
    {s : PollState} {g : γ} (hI : I s.timeouts g) :
    (pollEach options fuel filters s).Obeys P (fun g' r => I r.2.timeouts g') g := by
  induction filters generalizing s g with
  | nil => exact .pure hI
  | cons filter filters ih =>
    refine .bind (rule.pollPages_obeys filter hI) fun g' r h => ?_
    match r, h with
    | (.error e, s), h => exact .pure h
    | (.ok _, s), h => exact ih h

theorem runGuardianCoordinatorCycle_obeys (rule : PollRule P options I Lists) (fuel : ℕ)
    {timeouts : SignTimeouts} {g : γ} (hI : I timeouts g) :
    (runGuardianCoordinatorCycle options fuel timeouts).Obeys P (fun g' t => I t g') g := by
  have hlog : ∀ {g : γ} {line : LogLine} {p : Coordinating G SignTimeouts} {t : SignTimeouts},
      line.ofPoll = true → I t g → (∀ g', I t g' → p.Obeys P (fun g' t => I t g') g') →
      ((api (.log line)).bind fun _ => p).Obeys P (fun g' t => I t g') g := by
    intro g line p t hline ht hp
    exact .call_bind (rule.log t g line hline ht).1 fun _ _ => hp _ (rule.log t g line hline ht).2
  refine .bind (rule.pollEach_obeys fuel hI) fun g' r h => ?_
  match r, h with
  | (.error e, s), h => exact hlog rfl h fun _ h => hlog rfl h fun _ h => .pure h
  | (.ok _, s), h => exact hlog rfl h fun _ h => .pure h

theorem runGuardianCoordinator_obeys (rule : PollRule P options I Lists) (fuel n : ℕ)
    {timeouts : SignTimeouts} {g : γ} (hI : I timeouts g) :
    (runGuardianCoordinator options fuel n timeouts).Obeys P (fun g' t => I t g') g := by
  induction n generalizing timeouts g with
  | zero => exact .pure hI
  | succ n ih => exact .bind (rule.runGuardianCoordinatorCycle_obeys fuel hI) fun g' t h => ih h

end PollRule

/-- The programs of a guardian keep `P`, whatever they return. -/
structure GuardianKeeps {γ : Type} (P : Protocol (coord G) γ) (guardian : CoordinatorGuardian G) :
    Prop where
  computes : ∀ compute body g, guardian.whitelistNonceCandidates = some compute →
    (compute body).Obeys P.left (fun _ _ => True) g
  signs : ∀ parsed g, (runSigningOf guardian parsed).Obeys P.left (fun _ _ => True) g

namespace GuardianKeeps
variable {γ : Type} {P : Protocol (coord G) γ}

theorem announce_obeys {guardian : CoordinatorGuardian G} (h : GuardianKeeps P guardian)
    (hapi : ∀ g op, P.permits g (.inr op)) {g : γ} :
    (announce guardian request parsed).Obeys P (fun _ _ => True) g := by
  cases hind : independentNonce request parsed with
  | false =>
    rw [announce_listed hind]
    exact trivial
  | true =>
    obtain ⟨body, rfl, hannounce⟩ := announce_independent guardian hind
    rw [hannounce]
    unfold reserveNonce
    split
    · exact .pure trivial
    · rename_i compute hcompute
      refine .bind (obeys_inLeft.mpr (h.computes compute body g hcompute)) fun g' r _ => ?_
      cases r with
      | error e => exact .pure trivial
      | ok candidates =>
        dsimp only
        split
        · exact .pure trivial
        · exact .call_bind (hapi _ _) fun _ _ => .pure trivial

theorem submitSigned_obeys {guardian : CoordinatorGuardian G} (h : GuardianKeeps P guardian)
    (hapi : ∀ g op, P.permits g (.inr op)) {announced : Announced} {g : γ} :
    (submitSigned guardian request announced).Obeys P (fun _ _ => True) g := by
  have hsigns : (signWithGuardian guardian announced.payloadHash announced.parsed).Obeys P
      (fun _ _ => True) g :=
    .bind (obeys_inLeft.mpr (h.signs announced.parsed g)) fun _ _ _ => .pure trivial
  refine .bind hsigns fun g' r _ => ?_
  cases r with
  | error e => exact .pure trivial
  | ok success => exact .call_bind (hapi _ _) fun _ _ => .pure trivial

theorem handleRequest_obeys (h : GuardianKeeps P options.guardian)
    (hapi : ∀ g op, P.permits g (.inr op)) {g : γ} :
    (handleRequest options request).Obeys P (fun _ _ => True) g := by
  unfold handleRequest
  split
  · exact .pure trivial
  · split
    · exact .pure trivial
    · split
      · exact .pure trivial
      · split
        · exact .pure trivial
        · refine .bind (h.announce_obeys hapi) fun g' r _ => ?_
          match r with
          | .error e => exact .pure trivial
          | .ok none => exact .pure trivial
          | .ok (some announced) => exact h.submitSigned_obeys hapi

theorem handleItem_obeys (h : GuardianKeeps P options.guardian)
    (hapi : ∀ g op, P.permits g (.inr op)) {item : Json} {s : PollState} {g : γ} :
    (handleItem options item s).Obeys P (fun _ _ => True) g := by
  unfold handleItem
  split
  · exact .call_bind (hapi _ _) fun _ _ => .pure trivial
  · rename_i request _
    split
    · exact .pure trivial
    · refine .bind (h.handleRequest_obeys hapi) fun g' r _ => ?_
      match r with
      | .ok .skipped => exact .pure trivial
      | .ok .signed => exact .call_bind (hapi _ _) fun _ _ => .pure trivial
      | .error e => exact .call_bind (hapi _ _) fun _ _ => .pure trivial

theorem rule (h : GuardianKeeps P options.guardian) (hapi : ∀ g op, P.permits g (.inr op)) :
    PollRule P options (fun _ _ => True) (fun _ _ => True) where
  page _ g _ _ _ := ⟨hapi g _, fun _ _ => ⟨trivial, fun _ _ _ _ _ _ => trivial⟩⟩
  item _ _ _ _ _ := (h.handleItem_obeys hapi).mono fun _ _ _ => ⟨trivial, fun _ _ => trivial⟩
  log _ g _ _ _ := ⟨hapi g _, trivial⟩

end GuardianKeeps

end Rows
end Guardian
