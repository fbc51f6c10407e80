import Guardian.Coordinator.EntitledSubmissions
import Guardian.Coordinator.FloorSafety

/-!
# Independent nonces are unique and stable

Processes of one validator share its chains and the reservations of grunt-api,
which are durable and injective. A call to the signer is made under the
reservation that the process obtained last, if a row is in the middle of one;
everything that is signed or submitted under it carries the nonce that the
request keeps for good. The chain may still consume that nonce after the last
read of a signing call, which then signs and submits a nonce already spent.
-/

namespace Guardian
open Effect Text Program

/-- The durable table: no nonce is reserved for two requests. -/
structure Reservations where
  nonceOf : String → Option String
  distinct : ∀ id id' nonce, nonceOf id = some nonce → nonceOf id' = some nonce → id = id'

namespace Reservations

def reserve (r : Reservations) (id nonce : String)
    (free : ∀ id', r.nonceOf id' ≠ some nonce) : Reservations where
  nonceOf := Function.update r.nonceOf id (some nonce)
  distinct id₁ id₂ n h₁ h₂ := by
    by_cases hid₁ : id₁ = id <;> by_cases hid₂ : id₂ = id
    · rw [hid₁, hid₂]
    · subst hid₁
      rw [Function.update_self] at h₁
      rw [Function.update_of_ne hid₂, ← h₁] at h₂
      exact (free id₂ h₂).elim
    · subst hid₂
      rw [Function.update_self] at h₂
      rw [Function.update_of_ne hid₁, ← h₂] at h₁
      exact (free id₁ h₁).elim
    · rw [Function.update_of_ne hid₁] at h₁
      rw [Function.update_of_ne hid₂] at h₂
      exact r.distinct id₁ id₂ n h₁ h₂

/-- `PUT .../nonce`, atomically: the nonce it settles on, if any, and the table after. -/
inductive Puts (r : Reservations) (id : String) (candidates : List String) :
    Option String → Reservations → Prop where
  | existing {nonce : String} (h : r.nonceOf id = some nonce) : Puts r id candidates (some nonce) r
  | fresh {nonce : String} (unreserved : r.nonceOf id = none) (offered : nonce ∈ candidates)
      (free : ∀ id', r.nonceOf id' ≠ some nonce) :
      Puts r id candidates (some nonce) (r.reserve id nonce free)
  | refused : Puts r id candidates none r

variable {r r' : Reservations} {id id' nonce nonce' : String} {candidates : List String}
  {settled : Option String}

theorem Puts.durable (h : Puts r id candidates settled r') (hid : r.nonceOf id' = some nonce) :
    r'.nonceOf id' = some nonce := by
  cases h with
  | existing => exact hid
  | fresh unreserved =>
    have hne : id' ≠ id := by
      rintro rfl
      rw [unreserved] at hid
      cases hid
    exact (Function.update_of_ne hne ..).trans hid
  | refused => exact hid

theorem Puts.settles (h : Puts r id candidates (some nonce) r') : r'.nonceOf id = some nonce := by
  cases h with
  | existing h => exact h
  | fresh => exact Function.update_self ..

end Reservations

structure Shared where
  chains : Chains
  reservations : Reservations

/-- A response that arrives names the settled nonce and the hash of the body with it; any
response may be lost. -/
def ReservationAnswers (hashOf : String → String → String) (id : String) (settled : Option String) :
    Except Caught Json → Prop
  | .error _ => True
  | .ok answer => ∀ reserved, zReservation answer = some reserved →
    settled = some reserved.nonce ∧ reserved.payloadHash = hashOf id reserved.nonce

/-- `hashOf id nonce` is the payload hash of the body of `id` with `nonce`. -/
def nonceWorld (ι : Type) (initial : InitialFloors) (hashOf : String → String → String) :
    World (coord validatorEnv) ι Shared where
  serves _ s e s' :=
    match e with
    | ⟨.inl op, answer⟩ => ChainAnswers initial s.chains ⟨op, answer⟩ ∧
        s' = ⟨afterCall s.chains op, s.reservations⟩
    | ⟨.inr (.putNonce id candidates), answer⟩ => s'.chains = s.chains ∧
        ∃ settled, s.reservations.Puts id candidates settled s'.reservations ∧
          ReservationAnswers hashOf id settled answer
    | ⟨.inr _, _⟩ => s' = s
  evolves s s' := s'.reservations = s.reservations ∧
    ∃ chain next, ChainMoves (s.chains chain) next ∧
      s'.chains = Function.update s.chains chain next

def reservedFor (hist : History validatorEnv) : Option (String × Reservation) :=
  match (apiEvents hist).getLast? with
  | some ⟨.putNonce id _, .ok answer⟩ => (zReservation answer).map fun reserved => (id, reserved)
  | _ => none

section Reserved
variable {hist : History validatorEnv}

theorem reservedFor_inLeft (hist : History validatorEnv) (tr : List (Event validatorEnv)) :
    reservedFor (hist ++ tr.map Event.inLeft) = reservedFor hist := by
  unfold reservedFor
  rw [apiEvents_append, apiEvents_inLeft, List.append_nil]

theorem reservedFor_between (h : ∀ e ∈ (apiEvents hist).getLast?, betweenRows e.op = true) :
    reservedFor hist = none := by
  unfold reservedFor
  split
  · rename_i hlast
    exact absurd (h _ hlast) Bool.false_ne_true
  · rfl

theorem reservedFor_put {answer : Json} {reserved : Reservation}
    (h : zReservation answer = some reserved) (hist : History validatorEnv) (id : String)
    (candidates : List String) :
    reservedFor (hist ++ [⟨.inr (.putNonce id candidates), .ok answer⟩]) =
      some (id, reserved) := by
  unfold reservedFor
  rw [apiEvents_snoc, List.getLast?_concat]
  simp [h]

theorem mem_of_reservedFor {id : String} {reserved : Reservation}
    (h : reservedFor hist = some (id, reserved)) :
    ∃ candidates answer, (⟨.inr (.putNonce id candidates), .ok answer⟩ :
      Event (coord validatorEnv)) ∈ hist ∧ zReservation answer = some reserved := by
  unfold reservedFor at h
  split at h
  · rename_i id' candidates answer hlast
    obtain ⟨reserved', hparses, heq⟩ := Option.map_eq_some_iff.mp h
    cases heq
    obtain ⟨⟨op, r⟩, hmem, hevent⟩ := List.mem_filterMap.mp (List.mem_of_getLast? hlast)
    cases op with
    | inl op => cases hevent
    | inr op =>
      cases hevent
      exact ⟨candidates, answer, hmem, hparses⟩
  · cases h

end Reserved

/-- A coordinator process of the command line, up to some number of polls. -/
structure ValidatorProcess where
  nonces : WhitelistNonceOptions
  pageSize : ℕ
  chainIds : Option (List ℕ)
  facilities : Option (List String)
  fuel : ℕ
  polls : ℕ

namespace ValidatorProcess

def options (p : ValidatorProcess) : GuardianCoordinatorOptions validatorEnv :=
  ⟨validatorGuardian p.nonces, p.pageSize, p.chainIds, p.facilities⟩

def program (p : ValidatorProcess) : Coordinating validatorEnv SignTimeouts :=
  runGuardianCoordinator p.options p.fuel p.polls .empty

end ValidatorProcess

/-- A signing call for a row that lists its own nonce, or needs none. -/
inductive ListedSign (p : ValidatorProcess) : History validatorEnv → ParsedSigningBody → Prop where
  | intro {before : History validatorEnv} {request : SigningRequest} {parsed : ParsedSigningBody}
      (isOpen : Open p.options before request) (admitted : Admitted p.options request parsed)
      (dependent : independentNonce request parsed = false) : ListedSign p before parsed

/-- A signing call for a row without a nonce: the candidates were read at one block, the
reservation is one of them, and the body is the row's with the reserved nonce. -/
inductive IndependentSign (p : ValidatorProcess) :
    History validatorEnv → ParsedSigningBody → String → Reservation → Prop where
  | intro {before : History validatorEnv} {request : SigningRequest}
      {body : RequestWhitelistingBody} {block floor n : ℕ}
      {consumed : List.Vector Bool (candidateNonces p.nonces floor).length}
      {candidates : List String} {answer : Json} {reserved : Reservation}
      (isOpen : Open p.options before request)
      (admitted : Admitted p.options request (.requestWhitelisting body))
      (independent : independentNonce request (.requestWhitelisting body) = true)
      (available : (n, false) ∈ (candidateNonces p.nonces floor).zip consumed.toList)
      (nonce : toString n = reserved.nonce) (parses : zReservation answer = some reserved) :
      IndependentSign p
        (before ++ (floorReads p.nonces body block floor ++ [consumptionRead p.nonces body.chainId
            body.whitelistBook floor block consumed]).map Event.inLeft ++
          [⟨.inr (.putNonce request.id candidates), .ok answer⟩])
        (.requestWhitelisting { body with nonce := reserved.nonce }) request.id reserved

inductive IndependentSubmission (p : ValidatorProcess) :
    History validatorEnv → String → Submission → Reservation → Prop where
  | intro {hist : History validatorEnv} {parsed : ParsedSigningBody} {id : String} {signed : Json}
      {success : SigningSuccess} {reserved : Reservation}
      (signs : IndependentSign p hist parsed id reserved)
      (valid : parsed.zResponse signed = some success)
      (payloadHash : toLowerCase success.payloadHash = toLowerCase reserved.payloadHash) :
      IndependentSubmission p (hist ++ [⟨.inl (.sign parsed), .ok signed⟩]) id
        ⟨parsed.chainId, success.signature, some reserved.nonce⟩ reserved

section Process
variable {p : ValidatorProcess} {hist : History validatorEnv} {parsed : ParsedSigningBody}

theorem runSigning_validatorGuardian (nonces : WhitelistNonceOptions) (chainId : ℕ)
    (sign : Validating (Except Caught Json)) :
    runSigning (validatorGuardian nonces) chainId sign =
      if chainId ∈ nonces.clients then sign
      else .done (.error (.error s!"Unsupported chain {chainId}")) := by
  by_cases h : chainId ∈ nonces.clients
  · simp only [runSigning, validatorGuardian, Option.getD_none, pure_bind, h, if_true]
  · simp only [runSigning, validatorGuardian, Option.getD_none, pure_bind, h, if_false]
    rfl

theorem runSigningOf_validatorGuardian (nonces : WhitelistNonceOptions)
    (parsed : ParsedSigningBody) :
    runSigningOf (validatorGuardian nonces) parsed =
      if parsed.chainId ∈ nonces.clients then onChain (.sign parsed)
      else .done (.error (.error s!"Unsupported chain {parsed.chainId}")) := by
  cases parsed <;> exact runSigning_validatorGuardian nonces _ _

theorem runs_signing {tr : List (Event validatorEnv)} {op : ValidatorOp}
    {next : op.Answer → Validating (Except Caught Json)}
    (h : Runs (runSigningOf (validatorGuardian p.nonces) parsed) tr (.perform op next)) :
    tr = [] ∧ op = .sign parsed := by
  rw [runSigningOf_validatorGuardian] at h
  split at h
  · cases h with
    | refl => exact ⟨rfl, rfl⟩
    | step r h => cases (runs_done.mp h).2
  · cases (runs_done.mp h).2

theorem executes_signing {tr : List (Event validatorEnv)} {signed : Json}
    (h : Executes (runSigningOf (validatorGuardian p.nonces) parsed) tr (.ok signed)) :
    tr = [⟨.sign parsed, .ok signed⟩] := by
  rw [runSigningOf_validatorGuardian] at h
  split at h
  · cases h with
    | step r h =>
      obtain ⟨rfl, hr⟩ := runs_done.mp h
      cases hr
      rfl
  · cases (runs_done.mp h).2

theorem mem_candidates {body : RequestWhitelistingBody} {tr : List (Event validatorEnv)}
    {candidates : List String} {nonce : String}
    (h : Executes (makeWhitelistNonceCandidates p.nonces body) tr (.ok candidates))
    (hmem : nonce ∈ candidates) :
    ∃ (block floor n : ℕ) (consumed : List.Vector Bool (candidateNonces p.nonces floor).length),
      tr = floorReads p.nonces body block floor ++
        [consumptionRead p.nonces body.chainId body.whitelistBook floor block consumed] ∧
      (n, false) ∈ (candidateNonces p.nonces floor).zip consumed.toList ∧ toString n = nonce := by
  cases makeWhitelistNonceCandidates_stage h with
  | advanced => cases hmem
  | available =>
    rename_i block floor consumed
    obtain ⟨n, hn, hnonce⟩ := List.mem_map.mp hmem
    exact ⟨block, floor, n, consumed, rfl, mem_availableNonces.mp hn, hnonce⟩

theorem announces_cases {before tr : History validatorEnv} {request : SigningRequest}
    {body : ParsedSigningBody} {announced : Announced} (isOpen : Open p.options before request)
    (admitted : Admitted p.options request body)
    (announces : Announces p.options.guardian request body tr announced) :
    (reservedFor (before ++ tr) = none ∧ announced.nonce = none ∧
        ListedSign p (before ++ tr) announced.parsed) ∨
      ∃ reserved, reservedFor (before ++ tr) = some (request.id, reserved) ∧
        announced.nonce = some reserved.nonce ∧ announced.payloadHash = reserved.payloadHash ∧
        IndependentSign p (before ++ tr) announced.parsed request.id reserved := by
  cases announces with
  | listed dependent =>
    rw [List.append_nil]
    exact .inl ⟨reservedFor_between isOpen.between, rfl, .intro isOpen admitted dependent⟩
  | reserved independent configured computed parses among =>
    cases configured
    obtain ⟨block, floor, n, consumed, rfl, available, hnonce⟩ := mem_candidates computed among
    rw [← List.append_assoc]
    exact .inr ⟨_, reservedFor_put parses .., rfl, rfl,
      .intro isOpen admitted independent available hnonce parses⟩

theorem sign_cases (h : AsksInRow p.options hist (.inl (.sign parsed))) :
    (reservedFor hist = none ∧ ListedSign p hist parsed) ∨
      ∃ id reserved, reservedFor hist = some (id, reserved) ∧
        IndependentSign p hist parsed id reserved := by
  cases h with
  | intro isOpen asks =>
    cases asks with
    | computing admitted independent configured computing =>
      cases configured
      cases makeWhitelistNonceCandidates_stage computing with
      | reading hread => cases hread
    | signing admitted announces signing =>
      obtain ⟨rfl, hop⟩ := runs_signing signing
      cases hop
      rw [List.map_nil, List.append_nil]
      rcases announces_cases isOpen admitted announces with ⟨hnone, _, hlisted⟩ |
        ⟨reserved, hsome, _, _, hsign⟩
      · exact .inl ⟨hnone, hlisted⟩
      · exact .inr ⟨_, reserved, hsome, hsign⟩

theorem submission_cases {id : String} {submission : Submission}
    (h : AsksInRow p.options hist (.inr (.putSubmission id submission))) :
    (reservedFor hist = none ∧ submission.nonce = none) ∨
      ∃ reserved, reservedFor hist = some (id, reserved) ∧
        IndependentSubmission p hist id submission reserved := by
  cases h with
  | intro isOpen asks =>
    cases asks with
    | submitting admitted announces signs =>
      cases signs with
      | intro returned valid payloadHash guardianSigner =>
        obtain rfl := executes_signing returned
        rw [← List.append_assoc, reservedFor_inLeft]
        rcases announces_cases isOpen admitted announces with ⟨hnone, hnonce, _⟩ |
          ⟨reserved, hsome, hnonce, hhash, hsign⟩
        · exact .inl ⟨hnone, hnonce⟩
        · rw [hnonce]
          exact .inr ⟨reserved, hsome, .intro hsign valid (hhash ▸ payloadHash)⟩

end Process

section Processes
variable {ι : Type} {initial : InitialFloors} {hashOf : String → String → String} {s : Shared}

/-- Every answered reservation is in the table, and announced its hash. -/
def Recorded (hashOf : String → String → String) (s : Shared)
    (log : List (ι × Event (coord validatorEnv))) : Prop :=
  ∀ i id candidates answer reserved, (i, ⟨.inr (.putNonce id candidates), .ok answer⟩) ∈ log →
    zReservation answer = some reserved →
    s.reservations.nonceOf id = some reserved.nonce ∧
      reserved.payloadHash = hashOf id reserved.nonce

theorem serves_durable {i : ι} {s s' : Shared} {e : Event (coord validatorEnv)}
    (h : (nonceWorld ι initial hashOf).serves i s e s') {id nonce : String}
    (hid : s.reservations.nonceOf id = some nonce) : s'.reservations.nonceOf id = some nonce := by
  obtain ⟨op, answer⟩ := e
  cases op with
  | inl op =>
    obtain ⟨_, rfl⟩ := h
    exact hid
  | inr op =>
    cases op with
    | putNonce id' candidates =>
      obtain ⟨_, settled, hputs, _⟩ := h
      exact hputs.durable hid
    | _ =>
      obtain rfl := h
      exact hid

theorem Recorded.serve {i : ι} {s s' : Shared} {log : List (ι × Event (coord validatorEnv))}
    {e : Event (coord validatorEnv)} (h : Recorded hashOf s log)
    (hserves : (nonceWorld ι initial hashOf).serves i s e s') :
    Recorded hashOf s' (log ++ [(i, e)]) := by
  intro j id candidates answer reserved hmem hparses
  rcases List.mem_append.mp hmem with hmem | hmem
  · obtain ⟨hnonce, hhash⟩ := h j id candidates answer reserved hmem hparses
    exact ⟨serves_durable hserves hnonce, hhash⟩
  · cases List.mem_singleton.mp hmem
    obtain ⟨_, settled, hputs, hanswers⟩ := hserves
    obtain ⟨rfl, hhash⟩ := hanswers reserved hparses
    exact ⟨hputs.settles, hhash⟩

variable [DecidableEq ι] {process : ι → ValidatorProcess}
    {c : Config (coord validatorEnv) ι Shared SignTimeouts}

abbrev ReachableNonces (ι : Type) [DecidableEq ι] (initial : InitialFloors)
    (hashOf : String → String → String) (s : Shared) (process : ι → ValidatorProcess)
    (c : Config (coord validatorEnv) ι Shared SignTimeouts) : Prop :=
  Config.Reachable (nonceWorld ι initial hashOf) s (fun i => (process i).program) c

theorem reachable_recorded (h : ReachableNonces ι initial hashOf s process c) :
    Recorded hashOf c.world c.log :=
  Config.reachable_invariant (I := Recorded hashOf) (fun _ _ _ _ _ hmem => by cases hmem)
    (fun _ _ _ _ _ hI hserves => hI.serve hserves)
    (fun s log s' hI hmoves i id candidates answer reserved hmem hparses => by
      rw [hmoves.1]
      exact hI i id candidates answer reserved hmem hparses) h

theorem reservedFor_recorded (h : ReachableNonces ι initial hashOf s process c) {i : ι}
    {pre post : List (ι × Event (coord validatorEnv))} (hlog : c.log = pre ++ post) {id : String}
    {reserved : Reservation}
    (hreserved : reservedFor (Config.eventsOf i pre) = some (id, reserved)) :
    c.world.reservations.nonceOf id = some reserved.nonce ∧
      reserved.payloadHash = hashOf id reserved.nonce := by
  obtain ⟨candidates, answer, hmem, hparses⟩ := mem_of_reservedFor hreserved
  refine reachable_recorded h i id candidates answer reserved ?_ hparses
  rw [hlog]
  exact List.mem_append_left _ (Config.mem_eventsOf.mp hmem)

theorem asksInRow (h : ReachableNonces ι initial hashOf s process c) {i : ι}
    {e : Event (coord validatorEnv)} {pre post : List (ι × Event (coord validatorEnv))}
    (hlog : c.log = pre ++ (i, e) :: post) (hop : ofRow e.op = true) :
    AsksInRow (process i).options (Config.eventsOf i pre) e.op := by
  obtain ⟨next, hissued⟩ := Config.reachable_issued h hlog
  exact runGuardianCoordinator_asks hissued hop

/-- Process `i` called the signer with `parsed`, whatever came back, after `hist` and under
`reservation`. -/
def SignCalled (c : Config (coord validatorEnv) ι Shared SignTimeouts) (i : ι)
    (hist : History validatorEnv) (parsed : ParsedSigningBody)
    (reservation : Option (String × Reservation)) : Prop :=
  ∃ pre post answer, c.log = pre ++ (i, ⟨.inl (.sign parsed), answer⟩) :: post ∧
    hist = Config.eventsOf i pre ∧ reservation = reservedFor hist

def Submitted (c : Config (coord validatorEnv) ι Shared SignTimeouts) (i : ι)
    (hist : History validatorEnv) (id : String) (submission : Submission)
    (reservation : Option (String × Reservation)) : Prop :=
  ∃ pre post answer, c.log = pre ++ (i, ⟨.inr (.putSubmission id submission), answer⟩) :: post ∧
    hist = Config.eventsOf i pre ∧ reservation = reservedFor hist

/-- One nonce for each independent request, for every process, poll and retry. -/
theorem independent_nonces_unique (initial : InitialFloors) (hashOf : String → String → String)
    (s : Shared) (process : ι → ValidatorProcess)
    (c : Config (coord validatorEnv) ι Shared SignTimeouts)
    (h : ReachableNonces ι initial hashOf s process c) :
    (∀ i hist parsed id reserved, SignCalled c i hist parsed (some (id, reserved)) →
      IndependentSign (process i) hist parsed id reserved ∧
        c.world.reservations.nonceOf id = some reserved.nonce ∧
        reserved.payloadHash = hashOf id reserved.nonce) ∧
    (∀ i hist id submission id' reserved,
      Submitted c i hist id submission (some (id', reserved)) →
        id = id' ∧ IndependentSubmission (process i) hist id submission reserved ∧
        c.world.reservations.nonceOf id = some reserved.nonce ∧
        reserved.payloadHash = hashOf id reserved.nonce) ∧
    (∀ i j hist hist' parsed parsed' id id' reserved reserved',
      SignCalled c i hist parsed (some (id, reserved)) →
        SignCalled c j hist' parsed' (some (id', reserved')) →
        (reserved.nonce = reserved'.nonce ↔ id = id')) ∧
    (∀ i hist parsed, SignCalled c i hist parsed none → ListedSign (process i) hist parsed) ∧
    ∀ i hist id submission, Submitted c i hist id submission none → submission.nonce = none := by
  refine ⟨?_, ?_, ?_, ?_, ?_⟩
  · rintro i hist parsed id reserved ⟨pre, post, answer, hlog, rfl, hreserved⟩
    refine ⟨?_, reservedFor_recorded h hlog hreserved.symm⟩
    rcases sign_cases (asksInRow h hlog rfl) with ⟨hnone, _⟩ | ⟨id', reserved', hsome, hsign⟩
    · rw [hnone] at hreserved
      cases hreserved
    · rw [hsome] at hreserved
      cases hreserved
      exact hsign
  · rintro i hist id submission id' reserved ⟨pre, post, answer, hlog, rfl, hreserved⟩
    have hrecorded := reservedFor_recorded h hlog hreserved.symm
    rcases submission_cases (asksInRow h hlog rfl) with ⟨hnone, _⟩ | ⟨reserved', hsome, hsubmits⟩
    · rw [hnone] at hreserved
      cases hreserved
    · rw [hsome] at hreserved
      cases hreserved
      exact ⟨rfl, hsubmits, hrecorded⟩
  · rintro i j hist hist' parsed parsed' id id' reserved reserved'
      ⟨pre, post, answer, hlog, rfl, hreserved⟩ ⟨pre', post', answer', hlog', rfl, hreserved'⟩
    have hnonce := (reservedFor_recorded h hlog hreserved.symm).1
    have hnonce' := (reservedFor_recorded h hlog' hreserved'.symm).1
    constructor
    · intro heq
      exact c.world.reservations.distinct id id' reserved.nonce hnonce (heq ▸ hnonce')
    · rintro rfl
      exact Option.some.inj (hnonce.symm.trans hnonce')
  · rintro i hist parsed ⟨pre, post, answer, hlog, rfl, hreserved⟩
    rcases sign_cases (asksInRow h hlog rfl) with ⟨_, hlisted⟩ | ⟨id, reserved, hsome, _⟩
    · exact hlisted
    · rw [hsome] at hreserved
      cases hreserved
  · rintro i hist id submission ⟨pre, post, answer, hlog, rfl, hreserved⟩
    rcases submission_cases (asksInRow h hlog rfl) with ⟨_, hnone⟩ | ⟨reserved, hsome, _⟩
    · exact hnone
    · rw [hsome] at hreserved
      cases hreserved

end Processes
namespace Sample

def process : ValidatorProcess := ⟨nonceOptions, 100, none, none, 1, 1⟩

def unreserved : Reservations := ⟨fun _ => none, nofun⟩

def fiveReserved : Reservations := unreserved.reserve "r1" "5" (by simp [unreserved])

def hashOf : String → String → String := fun _ _ => hex 64

def shared : Shared := ⟨chains [], unreserved⟩

theorem puts_five {r : Reservations} (hr : r = unreserved ∨ r = fiveReserved)
    {candidates : List String} (hmem : "5" ∈ candidates) :
    r.Puts "r1" candidates (some "5") fiveReserved := by
  rcases hr with rfl | rfl
  · exact .fresh rfl hmem _
  · exact .existing (by simp [fiveReserved, Reservations.reserve])

/-- Nothing happens on the chains, and at most `r1` is reserved. -/
def Still (r : Reservations) (s : Shared) : Prop :=
  (∀ chain, (s.chains chain).log = oneBlock []) ∧
    (s.reservations = r ∨ s.reservations = fiveReserved)

def reservesFive : (coord validatorEnv).Op → Bool
  | .inr (.putNonce id candidates) => decide (id = "r1" ∧ "5" ∈ candidates)
  | _ => true

theorem serves_reserving {r : Reservations} (hr : r = unreserved ∨ r = fiveReserved) (s : Shared)
    (op : (coord validatorEnv).Op) (h : Still r s) (hop : reservesFive op = true) :
    ∃ s', (nonceWorld Unit (fun _ _ _ => 5) hashOf).serves () s ⟨op, stillAnswers [] op⟩ s' ∧
      Still r s' := by
  obtain ⟨hlog, hreserved⟩ := h
  cases op with
  | inl op =>
    exact ⟨⟨afterCall s.chains op, s.reservations⟩, ⟨chainAnswers_still hlog op, rfl⟩,
      afterCall_log hlog op, hreserved⟩
  | inr op =>
    cases op with
    | putNonce id candidates =>
      obtain ⟨rfl, hmem⟩ : id = "r1" ∧ "5" ∈ candidates := of_decide_eq_true hop
      have hanswers : ReservationAnswers hashOf "r1" (some "5")
          (stillAnswers [] (.inr (.putNonce "r1" candidates))) := by
        intro reserved hparses
        have hvalue : reserved = ⟨"5", hex 64⟩ := by
          refine Option.some.inj (hparses.symm.trans ?_)
          decide +kernel
        exact ⟨by rw [hvalue], by rw [hvalue]; rfl⟩
      have hputs : s.reservations.Puts "r1" candidates (some "5") fiveReserved := by
        refine puts_five ?_ hmem
        rcases hreserved with h | h
        · rwa [h]
        · exact .inr h
      exact ⟨⟨s.chains, fiveReserved⟩, ⟨rfl, some "5", hputs, hanswers⟩, hlog, .inr rfl⟩
    | _ => exact ⟨s, rfl, hlog, hreserved⟩

def signedBody (op : (coord validatorEnv).Op) : Option ParsedSigningBody :=
  match op with
  | .inl (.sign parsed) => some parsed
  | _ => none

theorem eq_sign_of_signedBody {op : (coord validatorEnv).Op} {parsed : ParsedSigningBody}
    (h : signedBody op = some parsed) : op = .inl (.sign parsed) := by
  unfold signedBody at h
  split at h
  · rw [Option.some.inj h]
  · cases h

def beforeSigning : History validatorEnv :=
  (process.program.trace (stillAnswers [])).takeWhile fun e => (signedBody e.op).isNone

def fiveBody : ParsedSigningBody := .requestWhitelisting { whitelistBody with nonce := "5" }

theorem stillRun_facts :
    ((process.program.trace (stillAnswers [])).dropWhile
      fun e => (signedBody e.op).isNone).head?.map (fun e => signedBody e.op) =
        some (some fiveBody) ∧
    beforeSigning.all (fun e => reservesFive e.op) = true ∧
    reservedFor beforeSigning = some ("r1", ⟨"5", hex 64⟩) := by
  decide +kernel

theorem runs_beforeSigning : ∃ next, Runs process.program beforeSigning
    (.perform (.inl (.sign fiveBody)) next) := by
  have hrun := executes_trace (stillAnswers []) process.program
  have hhead := stillRun_facts.1
  obtain ⟨⟨op, answer⟩, he, hop⟩ := Option.map_eq_some_iff.mp hhead
  obtain ⟨post, hpost⟩ := List.head?_eq_some_iff.mp he
  rw [← List.takeWhile_append_dropWhile (p := fun e => (signedBody e.op).isNone)
    (l := process.program.trace (stillAnswers [])), hpost] at hrun
  obtain rfl : op = .inl (.sign fiveBody) := eq_sign_of_signedBody hop
  obtain ⟨next, hissued, _⟩ := hrun.split
  exact ⟨next, hissued⟩

theorem reachable_signing :
    ∃ (c : Config (coord validatorEnv) Unit Shared SignTimeouts)
      (next : Except Caught Json → Coordinating validatorEnv SignTimeouts),
      ReachableNonces Unit (fun _ _ _ => 5) hashOf shared (fun _ => process) c ∧
      c.procs () = .perform (.inl (.sign fiveBody)) next ∧
      reservedFor (Config.eventsOf () c.log) = some ("r1", ⟨"5", hex 64⟩) := by
  obtain ⟨next, hrun⟩ := runs_beforeSigning
  obtain ⟨-, hall, hreserved⟩ := stillRun_facts
  have hanswered : ∀ e ∈ beforeSigning, e.answer = stillAnswers [] e.op := fun e he =>
    trace_answered _ _ e ((List.takeWhile_sublist _).subset he)
  have hstill : Still unreserved shared := ⟨fun _ => rfl, .inl rfl⟩
  obtain ⟨s', hserved, -⟩ := Config.served_of (W := nonceWorld Unit (fun _ _ _ => 5) hashOf)
    (i := ()) (P := fun op => reservesFive op = true)
    (serves_reserving (.inl rfl)) hanswered (List.all_eq_true.mp hall) hstill
  refine ⟨_, next, Config.Reachable.run .refl hrun hserved, ?_, ?_⟩
  · simp only [Function.update_self]
  · simpa [Config.eventsOf, Config.start] using hreserved

end Sample

theorem independent_nonces_unique_signed :
    ∃ (c : Config (coord validatorEnv) Unit Shared SignTimeouts) (hist : History validatorEnv),
      SignCalled c () hist Sample.fiveBody (some ("r1", ⟨"5", Sample.hex 64⟩)) ∧
      IndependentSign Sample.process hist Sample.fiveBody "r1" ⟨"5", Sample.hex 64⟩ ∧
      c.world.reservations.nonceOf "r1" = some "5" := by
  obtain ⟨c, next, hreach, hissued, hreserved⟩ := Sample.reachable_signing
  obtain ⟨c', hreach', hlog⟩ : ∃ c', ReachableNonces Unit (fun _ _ _ => 5) Sample.hashOf
      Sample.shared (fun _ => Sample.process) c' ∧
        c'.log = c.log ++ [((), ⟨.inl (.sign Sample.fiveBody), Sample.stillAnswers [] _⟩)] :=
    ⟨_, hreach.serve () _ (Sample.stillAnswers [] _) c.world hissued ⟨trivial, rfl⟩, rfl⟩
  have hsigned : SignCalled c' () (Config.eventsOf () c.log) Sample.fiveBody
      (some ("r1", ⟨"5", Sample.hex 64⟩)) := ⟨c.log, [], _, hlog, rfl, hreserved.symm⟩
  have hunique := (independent_nonces_unique (fun _ _ _ => 5) Sample.hashOf Sample.shared
    (fun _ => Sample.process) c' hreach').1 () _ _ _ _ hsigned
  exact ⟨c', _, hsigned, hunique.1, hunique.2.1⟩

/-- The chain clients of the candidates beside the environment of the signing calls. -/
abbrev commandEnv : Signature := validatorEnv.sum env

/-- The guardian of the command line, each step of its signing calls a request of its own. -/
def commandGuardian (c : Crypto) (signer : LoadedGuardianSigner) (setup : GuardianSetup)
    (nonces : WhitelistNonceOptions) : CoordinatorGuardian (hosted commandEnv) :=
  let host := hostGuardian c signer setup
  CoordinatorGuardian.deadlined
    { guardianSigner := host.guardianSigner
      probeUpstream := none
      getChainClient := fun chainId => (host.getChainClient chainId).inRight
      signIntentRequestBinding := fun body => (host.signIntentRequestBinding body).inRight
      signIntentFundBinding := fun body => (host.signIntentFundBinding body).inRight
      signIntentSwap := fun body => (host.signIntentSwap body).inRight
      signRequestWhitelisting :=
        host.signRequestWhitelisting.map fun sign body => (sign body).inRight
      whitelistNonceCandidates :=
        some fun body => (makeWhitelistNonceCandidates nonces body).inLeft }
    setup.signMs

/-- The two nonce reads of a signing call are one call at the latest block. -/
def NonceReadsAnswer (initial : InitialFloors) (s : Chains) : SigningEvent → Prop
  | ⟨.nonceReads chain book validator nonce, .ok (floor, consumed)⟩ =>
    floor = floorAfter (initial chain book validator) book validator (s chain).log.blocks ∧
      consumed = consumedIn (s chain).log.blocks book validator nonce.toNat
  | _ => True

def commandWorld (ι : Type) (initial : InitialFloors) (hashOf : String → String → String) :
    World (coord (hosted commandEnv)) ι Shared where
  serves i s e s' :=
    match e with
    | ⟨.inl (.inl (.inl op)), answer⟩ =>
      (nonceWorld ι initial hashOf).serves i s ⟨.inl op, answer⟩ s'
    | ⟨.inl (.inl (.inr op)), answer⟩ => NonceReadsAnswer initial s.chains ⟨op, answer⟩ ∧ s' = s
    | ⟨.inl (.inr ()), _⟩ => s' = s
    | ⟨.inr op, answer⟩ => (nonceWorld ι initial hashOf).serves i s ⟨.inr op, answer⟩ s'
  evolves := (nonceWorld ι initial hashOf).evolves

namespace Sample

def announcedCrypto : Crypto := { crypto with hashTypedData := fun _ => .ok (hex 64) }

def commandOptions : GuardianCoordinatorOptions (hosted commandEnv) :=
  ⟨commandGuardian announcedCrypto kmsSigner guardianSetup
    { nonceOptions with guardianSigner := kmsAddress }, 100, none, none⟩

def commandPoll : Unit → Coordinating (hosted commandEnv) SignTimeouts :=
  fun _ => runGuardianCoordinator commandOptions 1 1 .empty

def commandAnswers :
    ∀ op : (coord (hosted commandEnv)).Op, (coord (hosted commandEnv)).Answer op
  | .inl (.inl (.inl op)) => stillAnswers [] (.inl op)
  | .inl (.inl (.inr (.nonceReads ..))) => .ok (5, false)
  | .inl (.inl (.inr op)) => classicAnswers (.inl (.inl op))
  | .inl (.inr ()) => false
  | .inr op => stillAnswers [] (.inr op)

def shareFive : Shared := ⟨chains [], fiveReserved⟩

abbrev ReachableCommand (c : Config (coord (hosted commandEnv)) Unit Shared SignTimeouts) : Prop :=
  Config.Reachable (commandWorld Unit (fun _ _ _ => 5) hashOf) shareFive commandPoll c

def offersFive : (coord (hosted commandEnv)).Op → Bool
  | .inr op => reservesFive (.inr op)
  | _ => true

theorem serves_command (s : Shared) (op : (coord (hosted commandEnv)).Op)
    (h : Still fiveReserved s) (hop : offersFive op = true) :
    ∃ s', (commandWorld Unit (fun _ _ _ => 5) hashOf).serves () s ⟨op, commandAnswers op⟩ s' ∧
      Still fiveReserved s' := by
  match op with
  | .inl (.inl (.inl op)) => exact serves_reserving (.inr rfl) s (.inl op) h rfl
  | .inl (.inl (.inr op)) =>
    refine ⟨s, ⟨?_, rfl⟩, h⟩
    cases op with
    | nonceReads chain book validator nonce =>
      rw [commandAnswers, NonceReadsAnswer, h.1]
      exact ⟨(floorAfter_oneBlock [] book validator).symm, rfl⟩
    | _ => trivial
  | .inl (.inr ()) => exact ⟨s, rfl, h⟩
  | .inr op => exact serves_reserving (.inr rfl) s (.inr op) h hop

def leavesShared : (coord (hosted commandEnv)).Op → Bool
  | .inl (.inl (.inl _)) => false
  | .inl (.inl (.inr (.nonceReads ..))) => false
  | .inr (.putNonce ..) => false
  | _ => true

theorem serves_leaving {shared : Shared} (s : Shared) (op : (coord (hosted commandEnv)).Op)
    (h : s = shared) (hop : leavesShared op = true) :
    ∃ s', (commandWorld Unit (fun _ _ _ => 5) hashOf).serves () s ⟨op, commandAnswers op⟩ s' ∧
      s' = shared := by
  match op, hop with
  | .inl (.inl (.inr op)), hop =>
    refine ⟨s, ⟨?_, rfl⟩, h⟩
    cases op with
    | nonceReads => cases hop
    | _ => trivial
  | .inl (.inr ()), _ => exact ⟨s, rfl, h⟩
  | .inr op, hop =>
    cases op with
    | putNonce => cases hop
    | _ => exact ⟨s, rfl, h⟩

def signedData : (coord (hosted commandEnv)).Op → Option TypedData
  | .inl (.inl (.inr (.signTypedData td))) => some td
  | _ => none

theorem eq_of_signedData {op : (coord (hosted commandEnv)).Op} {td : TypedData}
    (h : signedData op = some td) : op = .inl (.inl (.inr (.signTypedData td))) := by
  unfold signedData at h
  split at h
  · rw [Option.some.inj h]
  · cases h

def commandTrace : History (hosted commandEnv) := (commandPoll ()).trace commandAnswers

def beforeSigner : History (hosted commandEnv) :=
  commandTrace.takeWhile fun e => (signedData e.op).isNone

def afterSigner : History (hosted commandEnv) :=
  (commandTrace.dropWhile fun e => (signedData e.op).isNone).tail

def fiveData : TypedData where
  domain := ⟨"Facility", "1", 1, hex 40⟩
  types := whitelistRequestTypes
  primaryType := "WhitelistRequest"
  message := [("targets", .addressArray [hex 40]), ("deadline", .uint 1050),
    ("validator", .address kmsAddress), ("nonce", .uint 5)]

abbrev signerEvent : Event (coord (hosted commandEnv)) :=
  ⟨.inl (.inl (.inr (.signTypedData fiveData))), .ok (hex 130)⟩

def readsNonce : (coord (hosted commandEnv)).Op → Bool
  | .inl (.inl (.inr (.nonceReads chain book signer nonce))) =>
    decide (chain = 1 ∧ book = hex 40 ∧ signer = kmsAddress ∧ nonce = 5)
  | _ => false

def submissionOf : (coord (hosted commandEnv)).Op → Option (String × Submission)
  | .inr (.putSubmission id submission) => some (id, submission)
  | _ => none

theorem commandRun_facts :
    (commandTrace.dropWhile fun e => (signedData e.op).isNone).head?.map
      (fun e => signedData e.op) = some (some fiveData) ∧
    beforeSigner.all (fun e => offersFive e.op) = true ∧
    beforeSigner.any (fun e => readsNonce e.op) = true ∧
    afterSigner.map (fun e => (leavesShared e.op, submissionOf e.op)) =
      [(true, none), (true, some ("r1", ⟨1, hex 130, some "5"⟩)), (true, none), (true, none)] ∧
    fiveBody.typedData ⟨"Facility", "1"⟩ kmsAddress = .ok fiveData := by
  decide +kernel

theorem commandTrace_eq : commandTrace = beforeSigner ++ signerEvent :: afterSigner := by
  have hhead := commandRun_facts.1
  obtain ⟨⟨op, answer⟩, he, hop⟩ := Option.map_eq_some_iff.mp hhead
  obtain ⟨post, hpost⟩ := List.head?_eq_some_iff.mp he
  obtain rfl := eq_of_signedData hop
  have hanswer : answer = .ok (hex 130) := trace_answered commandAnswers (commandPoll ()) _
    ((List.dropWhile_sublist _).subset (hpost ▸ List.mem_cons_self))
  rw [hanswer] at hpost
  rw [afterSigner, hpost, List.tail_cons, ← hpost]
  exact (List.takeWhile_append_dropWhile ..).symm

def nonceReadsEvent : Event (coord (hosted commandEnv)) :=
  ⟨.inl (.inl (.inr (.nonceReads 1 (hex 40) kmsAddress 5))), .ok (5, false)⟩

def submissionEvent : Event (coord (hosted commandEnv)) :=
  ⟨.inr (.putSubmission "r1" ⟨1, hex 130, some "5"⟩), .ok .null⟩

/-- The nonce is mined in a second block, which is final at once. -/
def minedFive : FinalizedLog Block := ⟨[[], [.consume (hex 40) kmsAddress 5]], 2, le_rfl⟩

theorem evolves_minedFive {s : Shared} (h : Still fiveReserved s) : ∃ s',
    (commandWorld Unit (fun _ _ _ => 5) hashOf).evolves s s' ∧ (s'.chains 1).log = minedFive ∧
      s'.reservations = fiveReserved := by
  obtain ⟨hlog, hreserved⟩ := h
  have hmoves : ChainMoves (s.chains 1) ⟨minedFive, (s.chains 1).sent⟩ := by
    refine ⟨?_, rfl, fun tx htx => by simp [minedFive] at htx⟩
    rw [hlog]
    exact ⟨rfl, Nat.le_succ 1⟩
  refine ⟨⟨Function.update s.chains 1 ⟨minedFive, (s.chains 1).sent⟩, s.reservations⟩,
    ⟨rfl, 1, _, hmoves, rfl⟩, ?_, ?_⟩
  · simp only [Function.update_self]
  · rcases hreserved with h | h <;> exact h

theorem nonceReads_mem : nonceReadsEvent ∈ beforeSigner := by
  obtain ⟨-, -, hany, -⟩ := commandRun_facts
  obtain ⟨⟨op, answer⟩, hmem, hop⟩ := List.any_eq_true.mp hany
  have hanswer : answer = commandAnswers op :=
    trace_answered _ _ _ ((List.takeWhile_sublist _).subset hmem)
  dsimp only at hop
  unfold readsNonce at hop
  split at hop
  · obtain ⟨rfl, rfl, rfl, rfl⟩ := of_decide_eq_true hop
    rw [hanswer] at hmem
    exact hmem
  · cases hop

theorem afterSigner_leaves : ∀ e ∈ afterSigner, leavesShared e.op = true := by
  intro e he
  obtain ⟨-, -, -, heq, -⟩ := commandRun_facts
  have hmem := List.mem_map_of_mem (f := fun e => (leavesShared e.op, submissionOf e.op)) he
  rw [heq] at hmem
  simp only [List.mem_cons, Prod.mk.injEq, List.not_mem_nil, or_false] at hmem
  rcases hmem with h | h | h | h <;> exact h.1

theorem submission_mem : submissionEvent ∈ afterSigner := by
  obtain ⟨-, -, -, hafter, -⟩ := commandRun_facts
  have hmem : (true, some ("r1", ⟨1, hex 130, some "5"⟩)) ∈
      afterSigner.map (fun e => (leavesShared e.op, submissionOf e.op)) := by
    rw [hafter]
    exact .tail _ (.head _)
  obtain ⟨⟨op, answer⟩, he, heq⟩ := List.mem_map.mp hmem
  have hop : submissionOf op = some ("r1", ⟨1, hex 130, some "5"⟩) := congrArg Prod.snd heq
  unfold submissionOf at hop
  split at hop
  · cases hop
    have hanswer : answer = .ok .null := trace_answered commandAnswers (commandPoll ()) _
      ((List.dropWhile_sublist _).subset (List.mem_of_mem_tail he))
    rw [hanswer] at he
    exact he
  · cases hop

/-- Up to the signer's request nothing moves; then the nonce is mined and the rest is served. -/
theorem reachable_minedFive :
    ∃ c c' : Config (coord (hosted commandEnv)) Unit Shared SignTimeouts,
      ReachableCommand c ∧ ReachableCommand c' ∧ (c.world.chains 1).log = minedFive ∧
      c.world.reservations = fiveReserved ∧ c.log = beforeSigner.map (fun e => ((), e)) ∧
      c'.log = c.log ++ (signerEvent :: afterSigner).map (fun e => ((), e)) := by
  have hrun := executes_trace commandAnswers (commandPoll ())
  have hanswered := trace_answered commandAnswers (commandPoll ())
  rw [show (commandPoll ()).trace commandAnswers = _ from commandTrace_eq] at hrun hanswered
  obtain ⟨q, hbefore, hafter⟩ := hrun.append
  have hoffers : ∀ e ∈ beforeSigner, offersFive e.op = true :=
    List.all_eq_true.mp commandRun_facts.2.1
  have hleaves : ∀ e ∈ signerEvent :: afterSigner, leavesShared e.op = true :=
    List.forall_mem_cons.mpr ⟨rfl, afterSigner_leaves⟩
  obtain ⟨s, hserved, hstill⟩ := Config.served_of (i := ())
    (P := fun op => offersFive op = true) serves_command
    (fun e he => hanswered e (List.mem_append_left _ he)) hoffers
    (s := shareFive) ⟨fun _ => rfl, .inl rfl⟩
  obtain ⟨s', hevolves, hmined, hreserved⟩ := evolves_minedFive hstill
  obtain ⟨s'', hserved', -⟩ := Config.served_of (i := ())
    (P := fun op => leavesShared op = true) serves_leaving
    (fun e he => hanswered e (List.mem_append_right _ he)) hleaves (rfl : s' = s')
  have hstart : ReachableCommand (Config.start shareFive commandPoll) := .refl
  have hreach : ReachableCommand
      ⟨s', Function.update commandPoll () q, beforeSigner.map fun e => ((), e)⟩ :=
    (hstart.run hbefore hserved).tail (.evolve hevolves)
  have hafter' : Executes (Function.update commandPoll () q ()) (signerEvent :: afterSigner)
      ((commandPoll ()).eval commandAnswers) := by
    rw [Function.update_self]
    exact hafter
  exact ⟨_, _, hreach, hreach.run (i := ()) hafter' hserved', hmined, hreserved, rfl, rfl⟩

end Sample

/-- A request is signed and submitted under its nonce although that is consumed in a finalized
block: both the candidates and the nonce reads of the signing call came before that block. -/
theorem independent_nonce_signed_consumed :
    ∃ (c c' : Config (coord (hosted commandEnv)) Unit Shared SignTimeouts)
      (after : List (Unit × Event (coord (hosted commandEnv)))),
      Sample.ReachableCommand c ∧ Sample.ReachableCommand c' ∧
      c.world.reservations.nonceOf "r1" = some "5" ∧
      ((), Sample.nonceReadsEvent) ∈ c.log ∧
      consumedIn (c.world.chains 1).log.final (Sample.hex 40) Sample.kmsAddress 5 = true ∧
      Sample.fiveBody.typedData ⟨"Facility", "1"⟩ Sample.kmsAddress = .ok Sample.fiveData ∧
      c'.log = c.log ++ ((), Sample.signerEvent) :: after ∧
      ((), Sample.submissionEvent) ∈ after := by
  obtain ⟨c, c', hreach, hreach', hmined, hreserved, hlog, hlog'⟩ := Sample.reachable_minedFive
  obtain ⟨-, -, -, -, hdata⟩ := Sample.commandRun_facts
  refine ⟨c, c', _, hreach, hreach', ?_, ?_, ?_, hdata, hlog', ?_⟩
  · rw [hreserved]
    simp [Sample.fiveReserved, Reservations.reserve]
  · rw [hlog]
    exact List.mem_map_of_mem Sample.nonceReads_mem
  · rw [hmined]
    exact decide_eq_true (.head _)
  · exact List.mem_map_of_mem Sample.submission_mem

end Guardian
