import Guardian.Server.Auth

/-!
# Precedence, framing and noninterference of authentication

The verdict of every stage on its own, against the answers of one environment, and the
route's response as that of the first stage that fails.
-/

namespace Guardian
open Effect Text

def errorOf {α : Type} : Except ThrownValue α → Option ThrownValue
  | .error thrown => some thrown
  | .ok _ => none

inductive Stage where
  | bearer
  | authenticate
  | hmac
  | scope
  | rateLimit
  deriving DecidableEq, Repr

def Stage.order : List Stage := [.bearer, .authenticate, .hmac, .scope, .rateLimit]

/-- A request on a route, with all the answers its environment would give. -/
structure Attempt where
  abs : AuthAbstractions
  requiredScope : EndpointScope
  request : ProtectedRequest
  answers : (op : ShellOp) → op.Answer

namespace Attempt
variable (a : Attempt)

def token : Option String := (bearerToken a.request.authorization).toOption

def tokenInfo : Option TokenInfo :=
  a.token.bind fun token => ((authenticate a.abs token).eval a.answers).toOption

def requestId : String := (resolveRequestId a.request.requestId).eval a.answers

def base : Headers := baseHeaders a.abs a.requestId

/-- The verdict of a stage, as far as the data it works on exists. -/
def failure : Stage → Option ThrownValue
  | .bearer => errorOf (bearerToken a.request.authorization)
  | .authenticate =>
    a.token.bind fun token => errorOf ((authenticate a.abs token).eval a.answers)
  | .hmac =>
    a.tokenInfo.bind fun info => errorOf ((hmacStage a.abs a.request info).eval a.answers)
  | .scope => a.tokenInfo.bind fun info => errorOf (scopeStage a.requiredScope info)
  | .rateLimit =>
    a.tokenInfo.bind fun info => errorOf ((rateLimitStage a.abs info a.base).eval a.answers).1

def firstFailure : Option (Stage × ThrownValue) :=
  Stage.order.findSome? fun stage => (a.failure stage).map fun thrown => (stage, thrown)

def headersAt : Stage → Headers
  | .rateLimit =>
    a.tokenInfo.elim a.base fun info => ((rateLimitStage a.abs info a.base).eval a.answers).2
  | _ => a.base

def handled (info : TokenInfo) : Response :=
  match (a.answers (.handler info) : Except ThrownValue Json) with
  | .ok body => ⟨200, a.headersAt .rateLimit, .inr body⟩
  | .error thrown => onError a.requestId (a.headersAt .rateLimit) thrown

def response : Response := (protectedRoute a.abs a.requiredScope a.request).eval a.answers

def Calls (op : ShellOp) : Prop :=
  ∃ e ∈ (protectedRoute a.abs a.requiredScope a.request).trace a.answers, e.op = op

end Attempt

/-- A signature over the timestamp and the raw body, made with the token's secret within
a minute of now. -/
def HmacValid (a : Attempt) (info : TokenInfo) : Prop :=
  ∃ secret timestamp signature, info.hmacSecret = some secret ∧ secret ≠ "" ∧
    a.request.timestamp = some timestamp ∧ a.request.signature = some signature ∧
    isTimestamp timestamp = true ∧
    |((a.answers .dateNow : TimeValue).ms / 1000 : ℤ) - (decimalValue timestamp.toList : ℤ)| ≤ 60 ∧
    toLowerCase signature = bytesToHex (a.abs.hmacSha256 (encode secret)
      (encode timestamp ++ encode "." ++ a.request.rawBody)).toList

namespace Attempt
variable {a : Attempt} {token : String} {info : TokenInfo} {thrown : ThrownValue}

theorem firstFailure_of {stage : Stage} (before : List Stage) {after : List Stage}
    (horder : Stage.order = before ++ stage :: after) (hbefore : ∀ st ∈ before, a.failure st = none)
    (hstage : a.failure stage = some thrown) : a.firstFailure = some (stage, thrown) := by
  have hskip : before.findSome? (fun st => (a.failure st).map fun thrown => (st, thrown)) = none :=
    List.findSome?_eq_none_iff.mpr fun st hst => by rw [hbefore st hst, Option.map_none]
  rw [firstFailure, horder, List.findSome?_append, hskip, List.findSome?_cons, hstage]
  rfl

theorem firstFailure_eq_none (h : ∀ stage, a.failure stage = none) : a.firstFailure = none :=
  List.findSome?_eq_none_iff.mpr fun st _ => by rw [h st, Option.map_none]

theorem token_of (h : bearerToken a.request.authorization = .ok token) : a.token = some token := by
  rw [Attempt.token, h]
  rfl

theorem tokenInfo_of (h : a.token = some token)
    (hauth : (authenticate a.abs token).eval a.answers = .ok info) : a.tokenInfo = some info := by
  rw [tokenInfo, h, Option.bind_some, hauth]
  rfl

variable (a)

/-- The limiter is asked once the first four stages have passed, the handler after all. -/
def Permitted : ShellOp → Prop
  | .accountRateLimit info => a.tokenInfo = some info ∧ ∀ stage ≠ .rateLimit, a.failure stage = none
  | .handler info => a.tokenInfo = some info ∧ ∀ stage, a.failure stage = none
  | _ => True

def protocol : Protocol shell Unit where
  permits _ := a.Permitted
  expects _ e := e.answer = a.answers e.op
  advance _ _ := ()

def Ends (r : Except ThrownValue TokenInfo × Headers) : Prop :=
  (∃ stage thrown, a.firstFailure = some (stage, thrown) ∧ r = (.error thrown, a.headersAt stage)) ∨
    ∃ info, a.tokenInfo = some info ∧ (∀ stage, a.failure stage = none) ∧
      r = (.ok info, a.headersAt .rateLimit)

variable {a}

def IsStageOp : ShellOp → Prop
  | .accountRateLimit _ => False
  | .handler _ => False
  | _ => True

theorem authenticate_performs (abs : AuthAbstractions) (token : String) :
    (authenticate abs token).Performs IsStageOp := ⟨trivial, fun _ => trivial⟩

theorem verifyHmac_performs (abs : AuthAbstractions) (request : ProtectedRequest)
    (secret : String) :
    (verifyHmac abs request secret).Performs fun op => op = ShellOp.dateNow := by
  unfold verifyHmac
  dsimp only
  split
  · trivial
  · split
    · trivial
    · refine ⟨rfl, fun now => ?_⟩
      show Program.Performs _ (ite _ _ _)
      split
      · trivial
      · split <;> trivial

theorem hmacStage_performs (abs : AuthAbstractions) (request : ProtectedRequest)
    (info : TokenInfo) : (hmacStage abs request info).Performs fun op => op = ShellOp.dateNow := by
  rw [hmacStage]
  split
  · split
    · trivial
    · exact verifyHmac_performs _ _ _
  · trivial

theorem resolveRequestId_performs (headerValue : Option String) :
    (resolveRequestId headerValue).Performs fun op => op = ShellOp.randomUUID := by
  cases headerValue with
  | none => exact ⟨rfl, fun _ => trivial⟩
  | some value =>
    unfold resolveRequestId
    dsimp only
    split
    · trivial
    · exact ⟨rfl, fun _ => trivial⟩

theorem stage_obeys {β : Type} {p : Shell β} (h : p.Performs IsStageOp) :
    p.Obeys a.protocol (fun _ r => r = p.eval a.answers) () := by
  refine h.obeys a.answers (fun op hop => ?_) (fun op r _ hr => hr) (fun _ _ _ => rfl) rfl
  cases op with
  | accountRateLimit => exact hop.elim
  | handler => exact hop.elim
  | _ => trivial

theorem rateLimit_obeys (h : a.Permitted (.accountRateLimit info)) (headers : Headers) :
    (rateLimitStage a.abs info headers).Obeys a.protocol
      (fun _ r => r = (rateLimitStage a.abs info headers).eval a.answers) () := by
  rw [rateLimitStage]
  split
  · refine ⟨h, fun r hr => ?_⟩
    obtain rfl : r = a.answers (.accountRateLimit info) := hr
    rfl
  · rfl

theorem plugin_obeys : (makeAuthPlugin a.abs a.requiredScope a.request a.base).Obeys a.protocol
    (fun _ r => a.Ends r) () := by
  rw [makeAuthPlugin]
  cases hbearer : bearerToken a.request.authorization with
  | error thrown =>
    have hfail : a.failure .bearer = some thrown := by rw [failure, hbearer]; rfl
    exact .inl ⟨.bearer, thrown, firstFailure_of [] rfl (by simp) hfail, rfl⟩
  | ok token =>
    have htoken := token_of hbearer
    have hbearer' : a.failure .bearer = none := by rw [failure, hbearer]; rfl
    refine .bind (stage_obeys (authenticate_performs _ _)) fun _ r hauth => ?_
    cases r with
    | error thrown =>
      have hfail : a.failure .authenticate = some thrown := by
        rw [failure, htoken, Option.bind_some, ← hauth]
        rfl
      exact .inl ⟨.authenticate, thrown, firstFailure_of [.bearer] rfl (by simpa using hbearer')
        hfail, rfl⟩
    | ok info =>
      have hinfo := tokenInfo_of htoken hauth.symm
      have hauth' : a.failure .authenticate = none := by
        rw [failure, htoken, Option.bind_some, ← hauth]
        rfl
      have hops : (hmacStage a.abs a.request info).Performs IsStageOp :=
        (hmacStage_performs _ _ _).mono fun op hop => hop ▸ trivial
      refine .bind (stage_obeys hops) fun _ r hhmac => ?_
      cases r with
      | error thrown =>
        have hfail : a.failure .hmac = some thrown := by
          rw [failure, hinfo, Option.bind_some, ← hhmac]
          rfl
        exact .inl ⟨.hmac, thrown, firstFailure_of [.bearer, .authenticate] rfl
          (by simpa using ⟨hbearer', hauth'⟩) hfail, rfl⟩
      | ok _ =>
        have hhmac' : a.failure .hmac = none := by
          rw [failure, hinfo, Option.bind_some, ← hhmac]
          rfl
        dsimp only
        cases hscope : scopeStage a.requiredScope info with
        | error thrown =>
          have hfail : a.failure .scope = some thrown := by
            rw [failure, hinfo, Option.bind_some, hscope]
            rfl
          exact .inl ⟨.scope, thrown, firstFailure_of [.bearer, .authenticate, .hmac] rfl
            (by simpa using ⟨hbearer', hauth', hhmac'⟩) hfail, rfl⟩
        | ok _ =>
          have hscope' : a.failure .scope = none := by
            rw [failure, hinfo, Option.bind_some, hscope]
            rfl
          have hearlier : ∀ stage ≠ .rateLimit, a.failure stage = none := by
            intro stage hstage
            cases stage with
            | bearer => exact hbearer'
            | authenticate => exact hauth'
            | hmac => exact hhmac'
            | scope => exact hscope'
            | rateLimit => exact absurd rfl hstage
          refine .bind (rateLimit_obeys ⟨hinfo, hearlier⟩ a.base) fun _ r hrate => ?_
          obtain ⟨verdict, headers⟩ := r
          have hheaders : a.headersAt .rateLimit = headers := by
            rw [headersAt, hinfo, Option.elim_some, ← hrate]
          have hverdict : a.failure .rateLimit = errorOf verdict := by
            rw [failure, hinfo, Option.bind_some, ← hrate]
          cases verdict with
          | error thrown =>
            exact .inl ⟨.rateLimit, thrown, firstFailure_of
              [.bearer, .authenticate, .hmac, .scope] rfl
              (fun st hst => hearlier st (by rintro rfl; simp at hst)) hverdict,
              by rw [hheaders]; rfl⟩
          | ok _ =>
            refine .inr ⟨info, hinfo, fun stage => ?_, by rw [hheaders]; rfl⟩
            by_cases hstage : stage = .rateLimit
            · rw [hstage, hverdict]
              rfl
            · exact hearlier stage hstage

theorem base_requestId : a.base.get? Headers.REQUEST_ID = some a.requestId := by
  rw [base, baseHeaders, OrderedMap.get?_set, if_pos rfl]

theorem get?_set_other {headers : Headers} {name value : String} (h : name ≠ Headers.REQUEST_ID) :
    (headers.set name value).get? Headers.REQUEST_ID = headers.get? Headers.REQUEST_ID := by
  rw [OrderedMap.get?_set, if_neg (Ne.symm h)]

theorem rejectedWindow_requestId (headers : Headers)
    (result : Except ThrownValue (Except GuardianError RateLimitWindow)) :
    (rejectedWindow headers result).get? Headers.REQUEST_ID = headers.get? Headers.REQUEST_ID := by
  unfold rejectedWindow
  split
  · exact get?_set_other (by decide)
  · rw [setWindow, get?_set_other (by decide), get?_set_other (by decide),
      get?_set_other (by decide)]
  · rfl

theorem headersAt_requestId (stage : Stage) :
    (a.headersAt stage).get? Headers.REQUEST_ID = some a.requestId := by
  cases stage with
  | rateLimit =>
    rw [headersAt]
    cases a.tokenInfo with
    | none => exact base_requestId
    | some info =>
      rw [Option.elim_some, rateLimitStage]
      split
      · rw [Program.eval_bind_def, Program.eval_pure, rejectedWindow_requestId]
        exact base_requestId
      · exact base_requestId
  | _ => exact base_requestId

theorem handleError_set (stage : Stage) (thrown : ThrownValue) :
    handleError a.request (a.headersAt stage) thrown =
      .done (onError a.requestId (a.headersAt stage) thrown) := by
  rw [handleError, headersAt_requestId]
  rfl

variable (a) in
def Answered (response : Response) : Prop :=
  (∃ stage thrown, a.firstFailure = some (stage, thrown) ∧
    response = onError a.requestId (a.headersAt stage) thrown) ∨
  ∃ info, a.tokenInfo = some info ∧ (∀ stage, a.failure stage = none) ∧ response = a.handled info

theorem route_obeys : (protectedRoute a.abs a.requiredScope a.request).Obeys a.protocol
    (fun _ response => a.Answered response) () := by
  have hops : (resolveRequestId a.request.requestId).Performs IsStageOp :=
    (resolveRequestId_performs _).mono fun op hop => hop ▸ trivial
  refine .bind (stage_obeys hops) fun _ requestId hid => ?_
  subst hid
  refine .bind plugin_obeys fun _ r hends => ?_
  rcases hends with ⟨stage, thrown, hfirst, rfl⟩ | ⟨info, hinfo, hpassed, rfl⟩
  · dsimp only
    rw [handleError_set]
    exact .inl ⟨stage, thrown, hfirst, rfl⟩
  · refine .call_bind ⟨hinfo, hpassed⟩ fun r hr => ?_
    have hanswer : a.answers (.handler info) = r := hr.symm
    cases r with
    | ok body => exact .inr ⟨info, hinfo, hpassed, by rw [handled, hanswer]⟩
    | error thrown =>
      dsimp only
      rw [handleError_set]
      exact .inr ⟨info, hinfo, hpassed, by rw [handled, hanswer]⟩

theorem response_answered : a.Answered a.response := route_obeys.eval fun _ => rfl

theorem calls_permitted {op : ShellOp} (h : a.Calls op) : a.Permitted op := by
  obtain ⟨e, he, rfl⟩ := h
  have hanswered : ∀ e ∈ (protectedRoute a.abs a.requiredScope a.request).trace a.answers,
      e.answer = a.answers e.op := @Program.trace_answered shell _ a.answers _
  exact route_obeys.permits_mem (Program.executes_trace a.answers _)
    (Protocol.follows_of_forall (fun _ _ he => he) hanswered) e he

end Attempt

theorem skew_iff {now : ℤ} (hlower : -MAX_TIME_VALUE ≤ now * 1000) (n : ℕ)
    (hupper : now * 1000 ≤ MAX_TIME_VALUE) :
    |(now : ℚ) - Double.nearest n| ≤ 60 ↔ |now - (n : ℤ)| ≤ 60 := by
  have hmax : MAX_TIME_VALUE = 8640000000000000 := rfl
  rcases le_total n (2 ^ 53) with hn | hn
  · rw [Double.nearest_natCast hn]
    have hcast : ((now : ℚ) - (n : ℚ)) = ((now - (n : ℤ) : ℤ) : ℚ) := by push_cast; rfl
    rw [hcast, ← Int.cast_abs]
    exact_mod_cast Iff.rfl
  · have hround := Double.le_nearest hn
    have hnow : (now : ℚ) ≤ 8640000000000 := by
      have : now ≤ 8640000000000 := by omega
      exact_mod_cast this
    constructor
    · intro h
      have := (abs_le.mp h).1
      norm_num at hround
      linarith
    · intro h
      have := (abs_le.mp h).1
      omega

theorem requireSecret_ok {info : TokenInfo} {secret : String} :
    requireSecret info = .ok secret ↔ info.hmacSecret = some secret ∧ secret ≠ "" := by
  unfold requireSecret
  cases info.hmacSecret with
  | none => simp
  | some value =>
    dsimp only
    split
    case isTrue h =>
      constructor
      · intro heq
        cases heq
      · rintro ⟨heq, hne⟩
        exact absurd ((Option.some.inj heq) ▸ h) hne
    case isFalse h =>
      rw [Except.ok.injEq, Option.some.injEq]
      constructor
      · rintro rfl
        exact ⟨rfl, h⟩
      · exact fun h => h.1

theorem bytesToHex_ne_empty (bytes : List.Vector UInt8 32) : bytesToHex bytes.toList ≠ "" := by
  obtain ⟨list, hlength⟩ := bytes
  cases list with
  | nil => cases hlength
  | cons b bs =>
    intro h
    have hlist := congrArg String.toList h
    rw [bytesToHex, String.toList_ofList] at hlist
    cases hlist

theorem isTimestamp_ne_empty {s : String} (h : isTimestamp s = true) : s ≠ "" := by
  rintro rfl
  cases h

theorem now_range (now : TimeValue) :
    -MAX_TIME_VALUE ≤ now.ms / 1000 * 1000 ∧ now.ms / 1000 * 1000 ≤ MAX_TIME_VALUE := by
  have hmax : MAX_TIME_VALUE = 8640000000000000 := rfl
  have hlower := now.lower
  have hupper := now.upper
  omega

theorem verifyHmac_ok {a : Attempt} {secret timestamp signature : String}
    (hts : a.request.timestamp = some timestamp) (hsig : a.request.signature = some signature) :
    (verifyHmac a.abs a.request secret).eval a.answers = .ok () ↔ isTimestamp timestamp = true ∧
      |((a.answers .dateNow : TimeValue).ms / 1000 : ℤ) -
        (decimalValue timestamp.toList : ℤ)| ≤ 60 ∧
      toLowerCase signature =
        computeBodyHmacHex a.abs.hmacSha256 secret timestamp a.request.rawBody := by
  unfold verifyHmac
  rw [hts, hsig, Option.getD_some, Option.getD_some]
  dsimp only
  split
  case isTrue hmissing =>
    constructor
    · intro h
      cases h
    · rintro ⟨hdigits, -, hmac⟩
      rcases hmissing with hempty | hempty
      · exact absurd hempty (isTimestamp_ne_empty hdigits)
      · rw [hempty] at hmac
        exact absurd hmac.symm (bytesToHex_ne_empty _)
  case isFalse hpresent =>
    split
    case isTrue hformat =>
      constructor
      · intro h
        cases h
      · rintro ⟨hdigits, -⟩
        rw [hdigits] at hformat
        cases hformat
    case isFalse hformat =>
      obtain ⟨hlower, hupper⟩ := now_range (a.answers .dateNow)
      have hskew := skew_iff hlower (decimalValue timestamp.toList) hupper
      rw [Program.eval_bind_def, nowUnixSeconds, Program.eval_bind_def, Program.eval_call,
        Program.eval_pure]
      split
      case isTrue hstale =>
        constructor
        · intro h
          cases h
        · rintro ⟨-, hnear, -⟩
          exact absurd (hskew.mpr hnear) (not_le.mpr hstale)
      case isFalse hfresh =>
        have hnear := hskew.mp (not_lt.mp hfresh)
        split
        case isTrue hmac =>
          refine iff_of_true rfl ⟨by simpa using hformat, hnear, ?_⟩
          exact (timingSafeEqualHex_iff.mp hmac).symm
        case isFalse hmac =>
          constructor
          · intro h
            cases h
          · rintro ⟨-, -, heq⟩
            exact absurd (timingSafeEqualHex_iff.mpr heq.symm) hmac

theorem verifyHmac_missing {a : Attempt} {secret : String}
    (h : a.request.timestamp = none ∨ a.request.signature = none) :
    (verifyHmac a.abs a.request secret).eval a.answers ≠ .ok () := by
  unfold verifyHmac
  rw [if_pos]
  · intro heq
    cases heq
  · rcases h with h | h
    · exact .inl (by rw [h]; rfl)
    · exact .inr (by rw [h]; rfl)

theorem errorOf_eq_none {r : Except ThrownValue Unit} : errorOf r = none ↔ r = .ok () := by
  cases r with
  | error thrown =>
    constructor
    · intro h
      cases h
    · intro h
      cases h
  | ok u => exact iff_of_true rfl rfl

theorem hmac_passes_iff {a : Attempt} {info : TokenInfo} (hinfo : a.tokenInfo = some info) :
    a.failure .hmac = none ↔ (info.requiresHmac = true → HmacValid a info) := by
  rw [Attempt.failure, hinfo, Option.bind_some, errorOf_eq_none, hmacStage]
  split
  case isFalse hflag => exact iff_of_true rfl fun h => absurd h hflag
  case isTrue hflag =>
    rw [imp_iff_right hflag]
    cases hsecret : requireSecret info with
    | error thrown =>
      constructor
      · intro h
        cases h
      · rintro ⟨secret, -, -, hs, hne, -⟩
        rw [requireSecret_ok.mpr ⟨hs, hne⟩] at hsecret
        cases hsecret
    | ok secret =>
      obtain ⟨hs, hne⟩ := requireSecret_ok.mp hsecret
      have hframe : ∀ ts, encode (ts ++ ".") = encode ts ++ encode "." := fun ts => by
        rw [encode, String.toList_append, List.flatMap_append]
        rfl
      constructor
      · intro hok
        cases hts : a.request.timestamp with
        | none => exact absurd hok (verifyHmac_missing (.inl hts))
        | some timestamp =>
          cases hsig : a.request.signature with
          | none => exact absurd hok (verifyHmac_missing (.inr hsig))
          | some signature =>
            obtain ⟨hdigits, hnear, hmac⟩ := (verifyHmac_ok hts hsig).mp hok
            rw [computeBodyHmacHex, macMessage, hframe] at hmac
            exact ⟨secret, timestamp, signature, hs, hne, hts, hsig, hdigits, hnear, hmac⟩
      · rintro ⟨secret', timestamp, signature, hs', -, hts, hsig, hdigits, hnear, hmac⟩
        obtain rfl := Option.some.inj (hs.symm.trans hs')
        refine (verifyHmac_ok hts hsig).mpr ⟨hdigits, hnear, ?_⟩
        rw [computeBodyHmacHex, macMessage, hframe]
        exact hmac

namespace Attempt
variable {a b : Attempt} {info : TokenInfo} {thrown : ThrownValue}

theorem earlier_of_tokenInfo (h : a.tokenInfo = some info) :
    a.failure .bearer = none ∧ a.failure .authenticate = none := by
  obtain ⟨token, htoken, hauth⟩ := Option.bind_eq_some_iff.mp h
  cases hbearer : bearerToken a.request.authorization with
  | error thrown =>
    rw [Attempt.token, hbearer] at htoken
    cases htoken
  | ok token' =>
    refine ⟨by rw [failure, hbearer]; rfl, ?_⟩
    cases heval : (authenticate a.abs token).eval a.answers with
    | error thrown =>
      rw [heval] at hauth
      cases hauth
    | ok info' =>
      rw [failure, htoken, Option.bind_some, heval]
      rfl

theorem response_of_hmac (hinfo : a.tokenInfo = some info) (h : a.failure .hmac = some thrown) :
    a.response = onError a.requestId a.base thrown := by
  obtain ⟨hbearer, hauth⟩ := earlier_of_tokenInfo hinfo
  have hfirst := firstFailure_of [.bearer, .authenticate] rfl (by simpa using ⟨hbearer, hauth⟩) h
  rcases a.response_answered with ⟨stage, thrown', hfirst', hresponse⟩ | ⟨_, _, hpassed, _⟩
  · rw [hfirst] at hfirst'
    cases hfirst'
    exact hresponse
  · rw [hpassed] at h
    cases h

theorem hmacStage_scopes (abs : AuthAbstractions) (request : ProtectedRequest)
    (scopes : List EndpointScope) :
    hmacStage abs request { info with scopes := scopes } = hmacStage abs request info := rfl

theorem noninterference (habs : b.abs = a.abs) (hrequest : b.request = a.request)
    (hclock : b.answers .dateNow = a.answers .dateNow)
    (hid : b.answers .randomUUID = a.answers .randomUUID) {scopes : List EndpointScope}
    (ha : a.tokenInfo = some info) (hb : b.tokenInfo = some { info with scopes := scopes })
    (hfail : a.failure .hmac = some thrown) : b.response = a.response := by
  have hverdict : b.failure .hmac = some thrown := by
    rw [← hfail, failure, failure, ha, hb, Option.bind_some, Option.bind_some, hmacStage_scopes,
      habs, hrequest]
    refine congrArg errorOf (Program.Performs.eval_congr ((hmacStage_performs _ _ _).mono ?_))
    rintro op rfl
    exact hclock
  have hrequestId : b.requestId = a.requestId := by
    rw [requestId, requestId, hrequest]
    refine Program.Performs.eval_congr ((resolveRequestId_performs _).mono ?_)
    rintro op rfl
    exact hid
  rw [response_of_hmac ha hfail, response_of_hmac hb hverdict, base, base, hrequestId, habs]

end Attempt

/-- The pipeline answers with its first failing stage; limiter and handler run only behind
the stages before them; the HMAC stage passes exactly on a valid signature over an
unambiguous message; and its failure does not depend on the token's scopes. -/
theorem auth_pipeline (a : Attempt) :
    (∀ stage thrown, a.firstFailure = some (stage, thrown) →
      a.response = onError a.requestId (a.headersAt stage) thrown) ∧
    (a.firstFailure = none → ∃ info, a.tokenInfo = some info ∧ a.response = a.handled info) ∧
    (∀ info, a.Calls (.accountRateLimit info) →
      a.tokenInfo = some info ∧ ∀ stage ≠ .rateLimit, a.failure stage = none) ∧
    (∀ info, a.Calls (.handler info) →
      a.tokenInfo = some info ∧ ∀ stage, a.failure stage = none) ∧
    (∀ info, a.tokenInfo = some info →
      (a.failure .hmac = none ↔ (info.requiresHmac = true → HmacValid a info))) ∧
    (∀ timestamp timestamp' rawBody rawBody', isTimestamp timestamp = true →
      isTimestamp timestamp' = true →
      macMessage timestamp rawBody = macMessage timestamp' rawBody' →
      timestamp = timestamp' ∧ rawBody = rawBody') ∧
    (∀ (b : Attempt) (info : TokenInfo) (scopes : List EndpointScope) (thrown : ThrownValue),
      b.abs = a.abs → b.request = a.request → b.answers .dateNow = a.answers .dateNow →
      b.answers .randomUUID = a.answers .randomUUID → a.tokenInfo = some info →
      b.tokenInfo = some { info with scopes := scopes } → a.failure .hmac = some thrown →
      b.response = a.response) := by
  refine ⟨fun stage thrown hfirst => ?_, fun hnone => ?_, fun info => Attempt.calls_permitted,
    fun info => Attempt.calls_permitted, fun info => hmac_passes_iff,
    fun _ _ _ _ h h' => macMessage_injective h h',
    fun b info scopes thrown habs hrequest hclock hid => Attempt.noninterference habs hrequest
      hclock hid⟩
  · rcases a.response_answered with ⟨stage', thrown', hfirst', hresponse⟩ | ⟨_, _, hpassed, _⟩
    · rw [hfirst] at hfirst'
      cases hfirst'
      exact hresponse
    · rw [Attempt.firstFailure_eq_none hpassed] at hfirst
      cases hfirst
  · rcases a.response_answered with ⟨stage, thrown, hfirst, _⟩ | ⟨info, hinfo, _, hresponse⟩
    · rw [hnone] at hfirst
      cases hfirst
    · exact ⟨info, hinfo, hresponse⟩

end Guardian
