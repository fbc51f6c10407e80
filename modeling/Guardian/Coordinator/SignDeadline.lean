import Guardian.Coordinator.Rows
import Guardian.Server.Deadline

/-!
# Signing calls under the deadline

The coordinator's guardian as the shell runs it: every signing call of the host raced
with `signMs`. The timer is asked before each request of the host and before its result
is used, and may have expired at any of these points. The deadline's error is recognised
by its text, which works for whole numbers of milliseconds only.
-/

namespace Guardian
open Effect Text

theorem dropWhile_ms (cs : List Char) :
    (cs ++ ['m', 's']).dropWhile isDigit = ['m', 's'] ↔ cs.all isDigit = true := by
  induction cs with
  | nil => exact iff_of_true rfl rfl
  | cons c cs ih =>
    rw [List.cons_append, List.dropWhile_cons, List.all_cons, Bool.and_eq_true]
    split
    case isTrue h => rw [ih, and_iff_right h]
    case isFalse h =>
      refine iff_of_false (fun heq => ?_) fun hand => h hand.1
      have hlength := congrArg List.length heq
      simp only [List.length_cons, List.length_append, List.length_nil] at hlength
      obtain rfl := List.length_eq_zero_iff.mp (show cs.length = 0 by omega)
      cases heq

theorem SIGN_TIMEOUT_deadline (ms : ℚ) : SIGN_TIMEOUT (deadlineMessage "sign" ms) = true ↔
    (Double.text ms).toList ≠ [] ∧ (Double.text ms).toList.all isDigit = true := by
  have hprefix : (deadlineMessage "sign" ms).toList.dropPrefix?
      "sign did not complete within ".toList = some ((Double.text ms).toList ++ ['m', 's']) := by
    have hsplit : (deadlineMessage "sign" ms).toList =
        "sign did not complete within ".toList ++ ((Double.text ms).toList ++ ['m', 's']) := by
      show ("sign" ++ " did not complete within " ++ Double.text ms ++ "ms").toList = _
      simp only [String.toList_append, List.append_assoc]
      rfl
    rw [hsplit]
    exact List.dropPrefix?_append_of_beq _ (by simp)
  rw [SIGN_TIMEOUT, hprefix]
  dsimp only
  rw [Bool.and_eq_true, decide_eq_true_iff, dropWhile_ms]
  cases (Double.text ms).toList with
  | nil => exact iff_of_false (by decide) fun h => h.1 rfl
  | cons c cs =>
    refine and_congr_left fun hall => iff_of_true ?_ (List.cons_ne_nil c cs)
    rw [List.all_cons, Bool.and_eq_true] at hall
    rw [List.cons_append, List.takeWhile_cons, if_pos hall.1]
    rfl

theorem SIGN_TIMEOUT_iff {ms : ℚ} (hms : InTimeoutRange ms) :
    SIGN_TIMEOUT (deadlineMessage "sign" ms) = true ↔ ms.den = 1 := by
  obtain ⟨hpos, hmax⟩ := hms
  have hsmall : ms < 10 ^ 21 := lt_of_le_of_lt hmax (by norm_num [MAX_TIMEOUT_MS])
  rw [SIGN_TIMEOUT_deadline]
  constructor
  · rintro ⟨-, hall⟩
    by_contra hden
    obtain ⟨c, hc, hmark⟩ := Double.text_mark fun h => hden h.1
    have hdigit := List.all_eq_true.mp hall c hc
    rcases hmark with rfl | rfl
    · cases hdigit
    · cases hdigit
  · intro hden
    obtain ⟨n, rfl⟩ : ∃ n : ℕ, ms = n := by
      refine ⟨ms.num.toNat, ?_⟩
      have hnum : (ms.num.toNat : ℤ) = ms.num := Int.toNat_of_nonneg (Rat.num_pos.mpr hpos).le
      rw [← Int.cast_natCast, hnum]
      exact (Rat.den_eq_one_iff ms).mp hden |>.symm
    rw [Double.text_natCast hsmall, toList_toString]
    exact ⟨Nat.toDigits_ne_nil, List.all_eq_true.mpr (isDigit_toDigits n)⟩

/-- Whether the budget of the running call has expired. -/
abbrev timer : Signature := ⟨Unit, fun _ => Bool⟩

abbrev hosted (H : Signature) : Signature := H.sum timer

def signDeadline (ms : ℚ) : Caught := .upstreamUnavailable (deadlineMessage "sign" ms)

/-- A host call under the deadline; the timer may win at any of its steps. What an abandoned call
still asks of the host is left out: the row is settled without it. -/
def raced {H : Signature} {α : Type} (ms : ℚ) : Program H (Except Caught α) →
    Program (hosted H) (Except Caught α)
  | .done r => .perform (.inr ()) fun expired : Bool =>
    .done (if expired = true then .error (signDeadline ms) else r)
  | .perform op next => .perform (.inr ()) fun expired : Bool =>
    if expired = true then .done (.error (signDeadline ms))
    else .perform (.inl op) fun r => raced ms (next r)

/-- The guardian object of a host, its signing calls under the deadline of `runSigning`. -/
def CoordinatorGuardian.deadlined {H : Signature} (host : CoordinatorGuardian H) (ms : ℚ) :
    CoordinatorGuardian (hosted H) where
  guardianSigner := host.guardianSigner
  probeUpstream := host.probeUpstream.map Program.inLeft
  getChainClient chainId := (host.getChainClient chainId).inLeft
  signIntentRequestBinding body := raced ms (host.signIntentRequestBinding body)
  signIntentFundBinding body := raced ms (host.signIntentFundBinding body)
  signIntentSwap body := raced ms (host.signIntentSwap body)
  signRequestWhitelisting := host.signRequestWhitelisting.map fun sign body => raced ms (sign body)
  whitelistNonceCandidates :=
    host.whitelistNonceCandidates.map fun compute body => (compute body).inLeft

def timedOut {α : Type} : Except Caught α → Bool
  | .error e => isSignTimeout e
  | .ok _ => false

/-- However it is answered, a program returns no error that reads as the deadline's. -/
abbrev Quiet {H : Signature} {α : Type} (p : Program H (Except Caught α)) : Prop :=
  p.Ensures (fun _ => True) fun r => timedOut r = false

structure CoordinatorGuardian.IsQuiet {H : Signature} (host : CoordinatorGuardian H) : Prop where
  probeUpstream : ∀ probe, host.probeUpstream = some probe → Quiet probe
  getChainClient : ∀ chainId, Quiet (host.getChainClient chainId)
  signIntentRequestBinding : ∀ body, Quiet (host.signIntentRequestBinding body)
  signIntentFundBinding : ∀ body, Quiet (host.signIntentFundBinding body)
  signIntentSwap : ∀ body, Quiet (host.signIntentSwap body)
  signRequestWhitelisting : ∀ sign, host.signRequestWhitelisting = some sign →
    ∀ body, Quiet (sign body)
  whitelistNonceCandidates : ∀ compute, host.whitelistNonceCandidates = some compute →
    ∀ body, Quiet (compute body)

section Race
variable {H : Signature}

def isCutOff : Event (coord (hosted H)) → Bool
  | ⟨.inl (.inr ()), expired⟩ => expired
  | _ => false

def QuietAnswer : Event (coord (hosted H)) → Prop
  | ⟨.inr (.putNonce ..), answer⟩ => timedOut (answer : Except Caught Json) = false
  | ⟨.inr (.putSubmission ..), answer⟩ => timedOut (answer : Except Caught Json) = false
  | _ => True

/-- The ghost says whether the deadline has cut the row's signing call off. -/
def cutProtocol : Protocol (coord (hosted H)) Bool :=
  ⟨fun _ _ => True, fun _ => QuietAnswer, fun cut e => cut || isCutOff e⟩

/-- The result reads as a deadline exactly after a cut-off under a whole budget. -/
def Tells {α : Type} (ms : ℚ) (cut : Bool) (r : Except Caught α) : Prop :=
  timedOut r = (cut && decide (ms.den = 1))

theorem tells_quiet {α : Type} {ms : ℚ} {r : Except Caught α} (h : timedOut r = false) :
    Tells ms false r := h

theorem timedOut_signDeadline {α : Type} {ms : ℚ} (hms : InTimeoutRange ms) :
    timedOut (.error (signDeadline ms) : Except Caught α) = decide (ms.den = 1) :=
  Bool.eq_iff_iff.mpr ((SIGN_TIMEOUT_iff hms).trans decide_eq_true_iff.symm)

theorem raced_obeys {α : Type} {ms : ℚ} (hms : InTimeoutRange ms) {p : Program H (Except Caught α)}
    (h : Quiet p) : (raced ms p).Obeys (Protocol.left cutProtocol) (Tells ms) false := by
  induction p with
  | done r =>
    refine ⟨trivial, fun expired _ => ?_⟩
    cases expired with
    | true => exact timedOut_signDeadline hms
    | false => exact h
  | perform op next ih =>
    refine ⟨trivial, fun expired _ => ?_⟩
    cases expired with
    | true => exact timedOut_signDeadline hms
    | false => exact ⟨trivial, fun r _ => ih r (h.2 r trivial)⟩

theorem host_obeys {α : Type} {p : Program H (Except Caught α)} (h : Quiet p) :
    (p.inLeft : Program (hosted H) (Except Caught α)).Obeys (Protocol.left cutProtocol)
      (fun cut r => cut = false ∧ timedOut r = false) false := by
  induction p with
  | done r => exact ⟨rfl, h⟩
  | perform op next ih => exact ⟨trivial, fun r _ => ih r (h.2 r trivial)⟩

variable {host : CoordinatorGuardian H} {ms : ℚ} {parsed : ParsedSigningBody}
  {request : SigningRequest}

theorem runSigning_obeys (hquiet : host.IsQuiet) (chainId : ℕ)
    {sign : Program (hosted H) (Except Caught Json)}
    (hsign : sign.Obeys (Protocol.left cutProtocol) (Tells ms) false) :
    (runSigning (host.deadlined ms) chainId sign).Obeys (Protocol.left cutProtocol) (Tells ms)
      false := by
  have hclient : ((host.deadlined ms).getChainClient chainId).Obeys (Protocol.left cutProtocol)
      (fun cut r => cut = false ∧ timedOut r = false) false :=
    host_obeys (hquiet.getChainClient chainId)
  have hprobed : ((host.deadlined ms).probeUpstream.getD (return .ok ())).Obeys
      (Protocol.left cutProtocol) (fun cut r => cut = false ∧ timedOut r = false) false := by
    rw [CoordinatorGuardian.deadlined]
    cases hprobe : host.probeUpstream with
    | none => exact .pure ⟨rfl, rfl⟩
    | some probe => exact host_obeys (hquiet.probeUpstream probe hprobe)
  rw [runSigning]
  refine .bind hprobed fun cut r hr => ?_
  obtain ⟨rfl, hr⟩ := hr
  cases r with
  | error e => exact .pure hr
  | ok _ =>
    refine .bind hclient fun cut r hr => ?_
    obtain ⟨rfl, hr⟩ := hr
    cases r with
    | error e => exact .pure hr
    | ok _ => exact hsign

theorem runSigningOf_obeys (hms : InTimeoutRange ms) (hquiet : host.IsQuiet) :
    (runSigningOf (host.deadlined ms) parsed).Obeys (Protocol.left cutProtocol) (Tells ms)
      false := by
  cases parsed with
  | setRequest body =>
    exact runSigning_obeys hquiet _ (raced_obeys hms (hquiet.signIntentRequestBinding body))
  | setFund body =>
    exact runSigning_obeys hquiet _ (raced_obeys hms (hquiet.signIntentFundBinding body))
  | swap body => exact runSigning_obeys hquiet _ (raced_obeys hms (hquiet.signIntentSwap body))
  | requestWhitelisting body =>
    unfold runSigningOf
    cases hsign : host.signRequestWhitelisting with
    | none =>
      rw [show (host.deadlined ms).signRequestWhitelisting = none by
        rw [CoordinatorGuardian.deadlined, hsign]; rfl]
      exact .pure (tells_quiet rfl)
    | some sign =>
      rw [show (host.deadlined ms).signRequestWhitelisting =
        some fun body => raced ms (sign body) by
        rw [CoordinatorGuardian.deadlined, hsign]; rfl]
      exact runSigning_obeys hquiet _
        (raced_obeys hms (hquiet.signRequestWhitelisting sign hsign body))

theorem checkSigned_quiet (guardianSigner : Address) (payloadHash : String) (signed : Json) :
    timedOut (checkSigned guardianSigner payloadHash parsed signed) = false := by
  unfold checkSigned
  split
  · rfl
  · split
    · rfl
    · split <;> rfl

theorem Tells.bind {α β : Type} {cut : Bool} {r : Except Caught α} {f : α → Except Caught β}
    (h : Tells ms cut r) (hf : ∀ a, timedOut (f a) = false) : Tells ms cut (r.bind f) := by
  cases r with
  | error e => exact h
  | ok a => exact (hf a).trans h

theorem Tells.inr {α : Type} {cut : Bool} {r : Except Caught α} (h : Tells ms cut r)
    {op : ApiOp} {answer : op.Answer} :
    Tells ms (cutProtocol.advance cut (⟨.inr op, answer⟩ : Event (coord (hosted H)))) r := by
  show timedOut r = ((cut || false) && _)
  rw [Bool.or_false]
  exact h

theorem submitSigned_obeys (hms : InTimeoutRange ms) (hquiet : host.IsQuiet)
    (announced : Announced) :
    (submitSigned (host.deadlined ms) request announced).Obeys cutProtocol (Tells ms) false := by
  have hsign : (signWithGuardian (host.deadlined ms) announced.payloadHash
      announced.parsed).Obeys cutProtocol (Tells ms) false :=
    .bind (obeys_inLeft.mpr (runSigningOf_obeys hms hquiet)) fun cut r hr =>
      .pure (hr.bind (checkSigned_quiet _ _))
  refine .bind hsign fun cut r hr => ?_
  cases r with
  | error e => exact .pure hr
  | ok success =>
    refine .call_bind trivial fun answer hanswer => .pure (Tells.inr ?_)
    have hquietAnswer : timedOut (answer : Except Caught Json) = false := hanswer
    refine Eq.trans ?_ (show false = _ from hr)
    cases answer with
    | error e => exact hquietAnswer
    | ok j => rfl

theorem acceptReservation_quiet (body : RequestWhitelistingBody) (candidates : List String)
    (answer : Json) : timedOut (acceptReservation body candidates answer) = false := by
  unfold acceptReservation
  split
  · rfl
  · split <;> rfl

theorem announce_obeys (hquiet : host.IsQuiet) :
    (announce (host.deadlined ms) request parsed).Obeys cutProtocol
      (fun cut r => cut = false ∧ timedOut r = false) false := by
  cases hind : independentNonce request parsed with
  | false =>
    rw [announce_listed hind]
    exact ⟨rfl, rfl⟩
  | true =>
    obtain ⟨body, rfl, hannounce⟩ := announce_independent (host.deadlined ms) hind
    rw [hannounce]
    unfold reserveNonce
    cases hcompute : host.whitelistNonceCandidates with
    | none =>
      rw [show (host.deadlined ms).whitelistNonceCandidates = none by
        rw [CoordinatorGuardian.deadlined, hcompute]; rfl]
      exact .pure ⟨rfl, rfl⟩
    | some compute =>
      rw [show (host.deadlined ms).whitelistNonceCandidates =
          some fun body => (compute body).inLeft by
        rw [CoordinatorGuardian.deadlined, hcompute]; rfl]
      refine .bind (obeys_inLeft.mpr
        (host_obeys (hquiet.whitelistNonceCandidates compute hcompute body))) fun cut r hr => ?_
      obtain ⟨rfl, hr⟩ := hr
      cases r with
      | error e => exact .pure ⟨rfl, hr⟩
      | ok candidates =>
        dsimp only
        split
        · exact .pure ⟨rfl, rfl⟩
        · refine .call_bind trivial fun answer hanswer => .pure ⟨rfl, ?_⟩
          cases answer with
          | error e => exact hanswer
          | ok j => exact acceptReservation_quiet body candidates j

theorem handleRequest_obeys (hms : InTimeoutRange ms) (hquiet : host.IsQuiet)
    {options : GuardianCoordinatorOptions (hosted H)}
    (hguardian : options.guardian = host.deadlined ms) :
    (handleRequest options request).Obeys cutProtocol (Tells ms) false := by
  unfold handleRequest
  split
  · exact .pure (tells_quiet rfl)
  · split
    · exact .pure (tells_quiet rfl)
    · split
      · exact .pure (tells_quiet rfl)
      · split
        · exact .pure (tells_quiet rfl)
        · rw [hguardian]
          refine .bind (announce_obeys hquiet) fun cut r hr => ?_
          obtain ⟨rfl, hr⟩ := hr
          match r, hr with
          | .error e, hr => exact .pure (tells_quiet hr)
          | .ok none, _ => exact .pure (tells_quiet rfl)
          | .ok (some announced), _ => exact submitSigned_obeys hms hquiet announced

end Race
end Guardian
