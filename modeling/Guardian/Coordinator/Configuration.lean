import Guardian.Coordinator.AddressMap
import Guardian.Coordinator.EntitledSubmissions
import Guardian.Server.Deadline

/-!
# The configuration of the process

The environment variables read into the connection of the coordinator and into its guardian,
in the order of the source, with every refusal. viem and the URL parser are parameters. What
follows a successful load is one fact for each reader, and then one for each variable.
-/

namespace Guardian
open Double Text

abbrev ProcessEnv := String → Option String

/-- `value?.trim()`, an absent value read as the empty one. -/
def trimmed (value : Option String) : String := String.ofList (trim (value.getD "").toList)

def required (env : ProcessEnv) (key : String) : Except Thrown String :=
  if trimmed (env key) = "" then .error ⟨s!"{key} is required"⟩ else .ok (trimmed (env key))

def nonNegativeInt (value : Option String) (fallback : ℕ) : Except Thrown ℕ :=
  let raw := if trimmed value = "" then toString fallback else trimmed value
  let rejected : Except Thrown ℕ := .error ⟨s!"expected non-negative integer: {raw}"⟩
  match number raw with
  | .finite parsed => if parsed.den = 1 ∧ 0 ≤ parsed then .ok parsed.num.toNat else rejected
  | _ => rejected

/-- The parts of a parsed URL that are looked at. -/
structure Url where
  protocol : String
  hostname : String
  href : String
  deriving DecidableEq, Repr

/-- `replace(/^\[|\]$/g, "")`. -/
def unbracketed (host : List Char) : List Char :=
  let opened := if host.head? = some '[' then host.tail else host
  if opened.getLast? = some ']' then opened.dropLast else opened

/-- `/^\d+$/.test(part) && Number(part) >= 0 && Number(part) <= 255`. -/
def isOctet (part : List Char) : Bool :=
  !part.isEmpty && part.all isDigit &&
    match number (String.ofList part) with
    | .finite value => decide (0 ≤ value ∧ value ≤ 255)
    | _ => false

def isLoopback (hostname : String) : Bool :=
  let host := unbracketed (toLowerCase hostname).toList
  let ipv4 := host.splitOn '.'
  decide (host = "localhost".toList) || ".localhost".toList.isSuffixOf host ||
    decide (host = "::1".toList) ||
    (decide (ipv4.length = 4) && decide (ipv4.head? = some "127".toList) && ipv4.all isOctet)

/-- What the readers use of viem, `URL` and the key of a private account. -/
structure Platform where
  isAddress : String → Bool
  parseUrl : String → Except Thrown Url
  privateKeyToAddress : String → Except Thrown Address

section Readers
variable (platform : Platform)

def secureUrl (name value : String) : Except Thrown Url := do
  let url ← platform.parseUrl value
  if url.protocol ≠ "https:" ∧ ¬(url.protocol = "http:" ∧ isLoopback url.hostname = true) then
    .error ⟨s!"{name} must use https unless it points at localhost"⟩
  else .ok url

/-- `replace(/\/+$/, "")`. -/
def withoutTrailingSlashes (href : String) : String :=
  String.ofList ((href.toList.reverse.dropWhile (· = '/')).reverse)

def baseUrl (value : String) : Except Thrown String := do
  let url ← secureUrl platform "COORDINATOR_BASE_URL" value
  return withoutTrailingSlashes url.href

def requiredAddressMap (env : ProcessEnv) (name : String) : Except Thrown AddressMap := do
  let value ← required env name
  parseAddressMap platform.isAddress name value

def numberSet (value : Option String) : Except Thrown (Option (List ℕ)) :=
  if trimmed value = "" then .ok none
  else do
    let parsed ← (tokens ',' (value.getD "").toList).mapM fun part => positiveInt (some part) 0
    return if parsed.length = 0 then none
      else some (parsed.foldl (fun set n => if n ∈ set then set else set ++ [n]) [])

def stringSet (value : Option String) : Option (List String) :=
  if trimmed value = "" then none
  else
    let parsed := (tokens ',' (value.getD "").toList).map toLowerCase
    if parsed.length = 0 then none else some (parsed.foldl addToSet [])

def DEFAULT_SWAP_PRICE_TOLERANCE_BPS : ℕ := 1

def AddressMap.sets (map : AddressMap) : AddressSets := map.get?

def swapPolicy (env : ProcessEnv) (maxDeadlineSecondsAhead : ℕ) :
    Except Thrown IntentSwapPolicy := do
  let factories ← requiredAddressMap platform env "GUARDIAN_PM_FACTORIES"
  let owners ← requiredAddressMap platform env "GUARDIAN_PM_OWNERS"
  let bps ← nonNegativeInt (env "GUARDIAN_SWAP_PRICE_TOLERANCE_BPS")
    DEFAULT_SWAP_PRICE_TOLERANCE_BPS
  return ⟨maxDeadlineSecondsAhead, factories.sets, owners.sets, bps⟩

structure CoordinatorConnectionConfig where
  coordinatorBaseUrl : String
  coordinatorApiKey : String
  pollIntervalMs : ℕ
  pageSize : ℕ
  requestTimeoutMs : ℕ
  chainIds : Option (List ℕ)
  facilities : Option (List String)
  deriving DecidableEq, Repr

def DEFAULT_POLL_INTERVAL_MS : ℕ := 5000
def DEFAULT_PAGE_SIZE : ℕ := 100
def DEFAULT_REQUEST_TIMEOUT_MS : ℕ := 10000

def loadCoordinatorConfig (env : ProcessEnv) : Except Thrown CoordinatorConnectionConfig := do
  let coordinatorBaseUrl ← (required env "COORDINATOR_BASE_URL").bind (baseUrl platform)
  let coordinatorApiKey ← required env "COORDINATOR_API_KEY"
  let pollIntervalMs ← positiveInt (env "POLL_INTERVAL_MS") DEFAULT_POLL_INTERVAL_MS
  let pageSize ← positiveInt (env "PAGE_SIZE") DEFAULT_PAGE_SIZE
  let requestTimeoutMs ← positiveInt (env "REQUEST_TIMEOUT_MS") DEFAULT_REQUEST_TIMEOUT_MS
  let chainIds ← numberSet (env "CHAIN_IDS")
  return ⟨coordinatorBaseUrl, coordinatorApiKey, pollIntervalMs, pageSize, requestTimeoutMs,
    chainIds, stringSet (env "FACILITIES")⟩

end Readers

theorem bind_eq_ok {ε α β : Type} {x : Except ε α} {f : α → Except ε β} {b : β} :
    (x >>= f) = .ok b ↔ ∃ a, x = .ok a ∧ f a = .ok b := by
  cases x with
  | error e =>
    refine iff_of_false (fun h => by cases h) fun h => ?_
    obtain ⟨a, ha, -⟩ := h
    cases ha
  | ok a => simp [ok_bind]

theorem required_ok {env : ProcessEnv} {key value : String} :
    required env key = .ok value ↔ value = trimmed (env key) ∧ value ≠ "" := by
  unfold required
  split
  · rename_i hblank
    refine iff_of_false (fun h => by cases h) fun h => ?_
    exact h.2 (h.1.trans hblank)
  · rename_i hsome
    simp only [Except.ok.injEq]
    constructor
    · intro h
      subst h
      exact ⟨rfl, hsome⟩
    · exact fun h => h.1.symm

/-- What a setting reads as: the fallback if its text is empty, else what is read from it. -/
def ReadsAs {α : Type} (text : String) (reads : String → α → Prop) (fallback a : α) : Prop :=
  if text = "" then a = fallback else reads text a

def ReadsAsNumber (value : Option String) : ℕ → ℕ → Prop :=
  ReadsAs (trimmed value) fun text n => number text = .finite n

theorem readsAsNumber_raw {value : Option String} {fallback : ℕ} {parsed : ℚ}
    (hfallback : fallback ≤ 2 ^ 53) (hden : parsed.den = 1) (hnonneg : 0 ≤ parsed)
    (h : number (if trimmed value = "" then toString fallback else trimmed value) =
      .finite parsed) : ReadsAsNumber value fallback parsed.num.toNat := by
  have hparsed : ((parsed.num.toNat : ℕ) : ℚ) = parsed := by
    have hnum : (parsed.num.toNat : ℤ) = parsed.num :=
      Int.toNat_of_nonneg (Rat.num_nonneg.mpr hnonneg)
    rw [← Int.cast_natCast, hnum]
    exact (Rat.den_eq_one_iff parsed).mp hden
  unfold ReadsAsNumber ReadsAs
  split at h
  · rename_i hblank
    rw [if_pos hblank]
    rw [number_toString hfallback] at h
    have heq : (fallback : ℚ) = parsed := JsNumber.finite.inj h
    exact_mod_cast hparsed.trans heq.symm
  · rename_i hsome
    rw [if_neg hsome]
    exact h.trans (congrArg JsNumber.finite hparsed.symm)

theorem positiveInt_reads {value : Option String} {fallback n : ℕ} (hfallback : fallback ≤ 2 ^ 53)
    (h : positiveInt value fallback = .ok n) : 0 < n ∧ ReadsAsNumber value fallback n := by
  have hraw : (if (trim (value.getD "").toList).isEmpty then toString fallback
      else String.ofList (trim (value.getD "").toList)) =
      if trimmed value = "" then toString fallback else trimmed value := by
    rw [trimmed]
    exact if_congr (by simp [List.isEmpty_iff]) rfl rfl
  unfold positiveInt at h
  dsimp only at h
  rw [hraw] at h
  split at h
  · rename_i parsed hnumber
    split at h
    · rename_i hpos
      obtain rfl := Except.ok.inj h
      refine ⟨?_, readsAsNumber_raw hfallback hpos.1 hpos.2.le hnumber⟩
      have hnum : 0 < parsed.num := Rat.num_pos.mpr hpos.2
      omega
    · cases h
  · cases h

/-- One of the four numbers of an address, as it may be written. -/
def Octet (part : List Char) : Prop :=
  part ≠ [] ∧ (∀ c ∈ part, isDigit c = true) ∧ decimalValue part ≤ 255

inductive LoopbackHost : List Char → Prop where
  | localhost : LoopbackHost "localhost".toList
  | subdomain (labels : List Char) : LoopbackHost (labels ++ ".localhost".toList)
  | ipv6 : LoopbackHost "::1".toList
  | ipv4 {a b c : List Char} (ha : Octet a) (hb : Octet b) (hc : Octet c) :
    LoopbackHost ("127.".toList ++ a ++ '.' :: b ++ '.' :: c)

theorem isOctet_iff {part : List Char} : isOctet part = true ↔ Octet part := by
  unfold isOctet Octet
  rw [Bool.and_eq_true, Bool.and_eq_true, Bool.not_eq_true', List.isEmpty_eq_false_iff,
    List.all_eq_true, and_assoc]
  refine and_congr_right fun hne => and_congr_right fun hdigits => ?_
  have hstring : String.ofList part ≠ "" := fun hempty => hne (by
    rw [← String.toList_ofList (l := part), hempty]
    rfl)
  rw [number_digits hstring (by rwa [String.toList_ofList]), String.toList_ofList, ofRat]
  by_cases hsmall : decimalValue part ≤ 2 ^ 53
  · have hle : (decimalValue part : ℚ) < 2 ^ 1024 := by
      calc (decimalValue part : ℚ) ≤ 2 ^ 53 := by exact_mod_cast hsmall
        _ < 2 ^ 1024 := pow_lt_pow_right₀ (by norm_num) (by norm_num)
    rw [nearest_natCast hsmall, if_pos hle]
    simp only [Nat.cast_nonneg, true_and, decide_eq_true_eq]
    exact_mod_cast Iff.rfl
  · have hlarge := le_nearest (n := decimalValue part) (by omega)
    refine iff_of_false (fun h => ?_) (by omega)
    split at h
    · rename_i q hq
      split at hq
      · cases hq
        have hrange := of_decide_eq_true h
        have hbound : (2 ^ 53 : ℚ) ≤ 255 := hlarge.trans hrange.2
        norm_num at hbound
      · cases hq
    · cases h

theorem Octet.notMem {part : List Char} (h : Octet part) : '.' ∉ part := fun hmem => by
  have hdigit := h.2.1 _ hmem
  revert hdigit
  decide

theorem length_splitOn_four {host : List Char} (h : (host.splitOn '.').length = 4) :
    ∃ first a b c, host.splitOn '.' = [first, a, b, c] ∧
      host = first ++ '.' :: a ++ '.' :: b ++ '.' :: c := by
  have hjoin : ['.'].intercalate (host.splitOn '.') = host := List.intercalate_splitOn '.'
  rcases hparts : host.splitOn '.' with _ | ⟨first, _ | ⟨a, _ | ⟨b, _ | ⟨c, _ | ⟨d, rest⟩⟩⟩⟩⟩ <;>
    rw [hparts] at h hjoin <;> simp at h
  refine ⟨first, a, b, c, rfl, ?_⟩
  rw [← hjoin]
  simp [List.intercalate]

theorem splitOn_four {first a b c : List Char} (hfirst : '.' ∉ first) (ha : '.' ∉ a)
    (hb : '.' ∉ b) (hc : '.' ∉ c) :
    (first ++ '.' :: a ++ '.' :: b ++ '.' :: c).splitOn '.' = [first, a, b, c] := by
  have hjoin : first ++ '.' :: a ++ '.' :: b ++ '.' :: c =
      ['.'].intercalate [first, a, b, c] := by simp [List.intercalate]
  rw [hjoin]
  refine List.splitOn_intercalate '.' ?_ (by simp)
  simp only [List.forall_mem_cons, List.not_mem_nil, false_implies, implies_true, and_true]
  exact ⟨hfirst, ha, hb, hc⟩

theorem isLoopback_iff {hostname : String} :
    isLoopback hostname = true ↔ LoopbackHost (unbracketed (toLowerCase hostname).toList) := by
  unfold isLoopback
  generalize unbracketed (toLowerCase hostname).toList = host
  simp only [Bool.or_eq_true, Bool.and_eq_true, decide_eq_true_eq, List.isSuffixOf_iff_suffix,
    List.all_eq_true, isOctet_iff]
  constructor
  · intro h
    rcases h with ((h | h) | h) | h
    · subst h
      exact .localhost
    · obtain ⟨labels, rfl⟩ := h
      exact .subdomain labels
    · subst h
      exact .ipv6
    · obtain ⟨⟨hlength, hhead⟩, hall⟩ := h
      obtain ⟨first, a, b, c, hparts, hhost⟩ := length_splitOn_four hlength
      rw [hparts] at hhead hall
      obtain rfl := Option.some.inj hhead
      have hoctets : LoopbackHost ("127.".toList ++ a ++ '.' :: b ++ '.' :: c) :=
        .ipv4 (hall a (by simp)) (hall b (by simp)) (hall c (by simp))
      rw [hhost]
      exact hoctets
  · intro h
    cases h with
    | localhost => exact .inl (.inl (.inl rfl))
    | subdomain labels => exact .inl (.inl (.inr (List.suffix_append _ _)))
    | ipv6 => exact .inl (.inr rfl)
    | ipv4 ha hb hc =>
      rename_i a b c
      have hfirst : Octet "127".toList := by
        refine ⟨by decide, ?_, by decide⟩
        exact List.all_eq_true.mp (by decide)
      have hsplit : ("127.".toList ++ a ++ '.' :: b ++ '.' :: c).splitOn '.' =
          ["127".toList, a, b, c] :=
        splitOn_four hfirst.notMem ha.notMem hb.notMem hc.notMem
      refine .inr ?_
      rw [hsplit]
      simp only [List.forall_mem_cons, List.not_mem_nil, false_implies, implies_true, and_true]
      exact ⟨⟨rfl, rfl⟩, hfirst, ha, hb, hc⟩

/-- Secure transport, or plain transport that does not leave the host. -/
def Url.Secure (url : Url) : Prop :=
  url.protocol = "https:" ∨
    url.protocol = "http:" ∧ LoopbackHost (unbracketed (toLowerCase url.hostname).toList)

section Accepted
variable {platform : Platform} {env : ProcessEnv}

theorem secureUrl_ok {name value : String} {url : Url}
    (h : secureUrl platform name value = .ok url) :
    platform.parseUrl value = .ok url ∧ url.Secure := by
  obtain ⟨parsed, hparsed, h⟩ := bind_eq_ok.mp h
  split at h
  · cases h
  · rename_i hsecure
    obtain rfl := Except.ok.inj h
    refine ⟨hparsed, ?_⟩
    rw [Url.Secure, ← isLoopback_iff]
    by_cases hs : parsed.protocol = "https:"
    · exact .inl hs
    · exact .inr (not_not.mp fun hn => hsecure ⟨hs, hn⟩)

theorem pieces_of_blank {text : Option String} (h : trimmed text = "") (separator : Char)
    (hblank : isWhiteSpace separator = false) :
    (text.getD "").toList.splitOn separator = [(text.getD "").toList] ∧
      trim (text.getD "").toList = [] := by
  have hnil : trim (text.getD "").toList = [] := by
    rw [← String.toList_ofList (l := trim _), ← trimmed, h]
    rfl
  refine ⟨List.splitOn_eq_singleton fun hmem => ?_, hnil⟩
  rw [← mem_trim hblank, hnil] at hmem
  cases hmem

theorem nodup_foldl_insert {α : Type} [DecidableEq α] (xs : List α) {set : List α}
    (hset : set.Nodup) :
    (xs.foldl (fun set x => if x ∈ set then set else set ++ [x]) set).Nodup ∧
      ∀ y, y ∈ xs.foldl (fun set x => if x ∈ set then set else set ++ [x]) set ↔
        y ∈ set ∨ y ∈ xs := by
  induction xs generalizing set with
  | nil => simp [hset]
  | cons x xs ih =>
    rw [List.foldl_cons]
    by_cases hx : x ∈ set
    · rw [if_pos hx]
      refine ⟨(ih hset).1, fun y => ?_⟩
      rw [(ih hset).2, List.mem_cons]
      constructor
      · exact fun h => h.imp_right .inr
      · intro h
        rcases h with h | rfl | h
        · exact .inl h
        · exact .inl hx
        · exact .inr h
    · rw [if_neg hx]
      have hnodup : (set ++ [x]).Nodup := by
        rw [List.nodup_append]
        refine ⟨hset, List.nodup_singleton x, fun a ha b hb hab => hx ?_⟩
        rw [← List.mem_singleton.mp hb, ← hab]
        exact ha
      refine ⟨(ih hnodup).1, fun y => ?_⟩
      rw [(ih hnodup).2]
      simp [or_assoc]

theorem tokens_of_blank {text : Option String} (h : trimmed text = "") :
    tokens ',' (text.getD "").toList = [] := by
  obtain ⟨hpieces, hnil⟩ := pieces_of_blank h ',' (by decide)
  rw [tokens, hpieces, List.map_singleton, hnil]
  simp

theorem mem_of_mapM_ok {α β ε : Type} {f : α → Except ε β} {xs : List α} {ys : List β}
    (h : xs.mapM f = .ok ys) (y : β) : y ∈ ys ↔ ∃ x ∈ xs, f x = .ok y := by
  induction xs generalizing ys with
  | nil =>
    obtain rfl := Except.ok.inj h
    simp
  | cons x xs ih =>
    rw [List.mapM_cons] at h
    obtain ⟨z, hz, h⟩ := bind_eq_ok.mp h
    obtain ⟨zs, hzs, h⟩ := bind_eq_ok.mp h
    obtain rfl := Except.ok.inj h
    simp only [List.mem_cons, ih hzs, exists_eq_or_imp, hz, Except.ok.injEq]
    rw [eq_comm]

theorem mapM_ok_eq_nil {α β ε : Type} {f : α → Except ε β} {xs : List α} {ys : List β}
    (h : xs.mapM f = .ok ys) : ys = [] ↔ xs = [] := by
  cases xs with
  | nil =>
    obtain rfl := Except.ok.inj h
    simp
  | cons x xs =>
    rw [List.mapM_cons] at h
    obtain ⟨z, -, h⟩ := bind_eq_ok.mp h
    obtain ⟨zs, -, h⟩ := bind_eq_ok.mp h
    obtain rfl := Except.ok.inj h
    simp

/-- The set of a filter: none for a text with no token, else what the tokens read as. -/
structure FilterWritten {α : Type} (text : String) (reads : String → α → Prop)
    (filter : Option (List α)) : Prop where
  any : filter = none ↔ tokens ',' text.toList = []
  nonempty : filter ≠ some []
  set : ∀ set, filter = some set →
    set.Nodup ∧ ∀ x, x ∈ set ↔ ∃ token ∈ tokens ',' text.toList, reads token x

theorem FilterWritten.of_parsed {α : Type} [DecidableEq α] {text : String}
    {reads : String → α → Prop} {parsed : List α}
    (hempty : parsed = [] ↔ tokens ',' text.toList = [])
    (hreads : ∀ x, x ∈ parsed ↔ ∃ token ∈ tokens ',' text.toList, reads token x) :
    FilterWritten text reads (if parsed.length = 0 then none
      else some (parsed.foldl (fun set x => if x ∈ set then set else set ++ [x]) [])) := by
  obtain ⟨hnodup, hmem⟩ := @nodup_foldl_insert α _ parsed [] .nil
  split
  · rename_i hlength
    have hnil := List.length_eq_zero_iff.mp hlength
    refine ⟨iff_of_true rfl (hempty.mp hnil), fun h => ?_, fun set h => ?_⟩
    · cases h
    · cases h
  · rename_i hlength
    have hne : parsed ≠ [] := fun hnil => hlength (List.length_eq_zero_iff.mpr hnil)
    refine ⟨iff_of_false (fun h => ?_) fun h => hne (hempty.mpr h), fun h => ?_, fun set h => ?_⟩
    · cases h
    · obtain ⟨x, hx⟩ := List.exists_mem_of_ne_nil parsed hne
      rw [Option.some.inj h] at hmem
      exact absurd ((hmem x).mpr (.inr hx)) List.not_mem_nil
    · obtain rfl := Option.some.inj h
      refine ⟨hnodup, fun x => ?_⟩
      rw [hmem, ← hreads]
      simp

theorem numberSet_written {value : Option String} {filter : Option (List ℕ)}
    (h : numberSet value = .ok filter) :
    FilterWritten (value.getD "") (fun token n => positiveInt (some token) 0 = .ok n) filter := by
  unfold numberSet at h
  split at h
  · rename_i hblank
    obtain rfl := Except.ok.inj h
    refine ⟨iff_of_true rfl (tokens_of_blank hblank), fun h => ?_, fun set h => ?_⟩
    · cases h
    · cases h
  · obtain ⟨parsed, hparsed, h⟩ := bind_eq_ok.mp h
    obtain rfl := Except.ok.inj h
    exact .of_parsed (mapM_ok_eq_nil hparsed) fun x => mem_of_mapM_ok hparsed x

theorem stringSet_written (value : Option String) :
    FilterWritten (value.getD "") (fun token facility => facility = toLowerCase token)
      (stringSet value) := by
  unfold stringSet
  split
  · rename_i hblank
    refine ⟨iff_of_true rfl (tokens_of_blank hblank), fun h => ?_, fun set h => ?_⟩
    · cases h
    · cases h
  · refine FilterWritten.of_parsed List.map_eq_nil_iff fun x => ?_
    simp [eq_comm]

/-- What a loaded connection is, in terms of the variables it was loaded from. -/
structure Connected (platform : Platform) (env : ProcessEnv)
    (config : CoordinatorConnectionConfig) : Prop where
  url : ∃ url, platform.parseUrl (trimmed (env "COORDINATOR_BASE_URL")) = .ok url ∧ url.Secure ∧
    config.coordinatorBaseUrl = withoutTrailingSlashes url.href
  noTrailingSlash : config.coordinatorBaseUrl.toList.getLast? ≠ some '/'
  apiKey : config.coordinatorApiKey = trimmed (env "COORDINATOR_API_KEY") ∧
    config.coordinatorApiKey ≠ ""
  pollIntervalMs : 0 < config.pollIntervalMs ∧
    ReadsAsNumber (env "POLL_INTERVAL_MS") DEFAULT_POLL_INTERVAL_MS config.pollIntervalMs
  pageSize : 0 < config.pageSize ∧
    ReadsAsNumber (env "PAGE_SIZE") DEFAULT_PAGE_SIZE config.pageSize
  requestTimeoutMs : 0 < config.requestTimeoutMs ∧
    ReadsAsNumber (env "REQUEST_TIMEOUT_MS") DEFAULT_REQUEST_TIMEOUT_MS config.requestTimeoutMs
  chainIds : FilterWritten ((env "CHAIN_IDS").getD "")
    (fun token n => positiveInt (some token) 0 = .ok n) config.chainIds
  facilities : FilterWritten ((env "FACILITIES").getD "")
    (fun token facility => facility = toLowerCase token) config.facilities

theorem withoutTrailingSlashes_getLast? (href : String) :
    (withoutTrailingSlashes href).toList.getLast? ≠ some '/' := by
  rw [withoutTrailingSlashes, String.toList_ofList, List.getLast?_reverse]
  intro hhead
  have hkept := List.head?_dropWhile_not (· = '/') href.toList.reverse
  rw [hhead] at hkept
  simp at hkept

theorem loadCoordinatorConfig_connected {config : CoordinatorConnectionConfig}
    (h : loadCoordinatorConfig platform env = .ok config) : Connected platform env config := by
  obtain ⟨coordinatorBaseUrl, hbase, h⟩ := bind_eq_ok.mp h
  obtain ⟨coordinatorApiKey, hkey, h⟩ := bind_eq_ok.mp h
  obtain ⟨pollIntervalMs, hpoll, h⟩ := bind_eq_ok.mp h
  obtain ⟨pageSize, hpage, h⟩ := bind_eq_ok.mp h
  obtain ⟨requestTimeoutMs, htimeout, h⟩ := bind_eq_ok.mp h
  obtain ⟨chainIds, hchains, h⟩ := bind_eq_ok.mp h
  obtain rfl := Except.ok.inj h
  obtain ⟨value, hvalue, hbase⟩ := bind_eq_ok.mp hbase
  obtain ⟨rfl, -⟩ := required_ok.mp hvalue
  obtain ⟨url, hurl, hbase⟩ := bind_eq_ok.mp hbase
  obtain rfl := Except.ok.inj hbase
  obtain ⟨hparse, hsecure⟩ := secureUrl_ok hurl
  exact ⟨⟨url, hparse, hsecure, rfl⟩, withoutTrailingSlashes_getLast? _, required_ok.mp hkey,
    positiveInt_reads (by decide) hpoll, positiveInt_reads (by decide) hpage,
    positiveInt_reads (by decide) htimeout, numberSet_written hchains, stringSet_written _⟩

/-- What the filters of a loaded connection let pass, said of the text of the two variables. -/
structure PassesText (env : ProcessEnv) (chain : ℕ) (facility : String) : Prop where
  chain : tokens ',' ((env "CHAIN_IDS").getD "").toList = [] ∨
    ∃ token ∈ tokens ',' ((env "CHAIN_IDS").getD "").toList,
      positiveInt (some token) 0 = .ok chain
  facility : tokens ',' ((env "FACILITIES").getD "").toList = [] ∨
    ∃ token ∈ tokens ',' ((env "FACILITIES").getD "").toList,
      toLowerCase token = toLowerCase facility

theorem FilterWritten.notMem_any {α : Type} [DecidableEq α] {text : String}
    {reads : String → α → Prop} {filter : Option (List α)} (h : FilterWritten text reads filter)
    (x : α) : filter.any (fun set => decide (x ∉ set)) = false ↔
      tokens ',' text.toList = [] ∨ ∃ token ∈ tokens ',' text.toList, reads token x := by
  cases filter with
  | none => exact iff_of_true rfl (.inl (h.any.mp rfl))
  | some set =>
    have hsome : tokens ',' text.toList ≠ [] := fun hnil => by
      cases h.any.mpr hnil
    simp [(h.set set rfl).2, hsome]

theorem excluded_iff {G : Effect.Signature} {options : GuardianCoordinatorOptions G}
    {config : CoordinatorConnectionConfig} (hconfig : Connected platform env config)
    (hchains : options.chainIds = config.chainIds)
    (hfacilities : options.facilities = config.facilities) (parsed : ParsedSigningBody) :
    excluded options parsed = false ↔ PassesText env parsed.chainId parsed.target.2 := by
  rw [excluded, Bool.or_eq_false_iff, hchains, hfacilities, hconfig.chainIds.notMem_any,
    hconfig.facilities.notMem_any]
  constructor
  · intro h
    refine ⟨h.1, h.2.imp_right fun hnamed => ?_⟩
    obtain ⟨token, htoken, hreads⟩ := hnamed
    exact ⟨token, htoken, hreads.symm⟩
  · intro h
    refine ⟨h.chain, h.facility.imp_right fun hnamed => ?_⟩
    obtain ⟨token, htoken, hreads⟩ := hnamed
    exact ⟨token, htoken, hreads.symm⟩

end Accepted

namespace Sample

def privateKey : String := "0x0000000000000000000000000000000000000000000000000000000000000001"

/-- One URL parses, and one private key has an address, which viem writes with its checksum. -/
def platform : Platform where
  isAddress := ADDRESS_RE
  parseUrl := fun value =>
    if value = "http://127.0.0.1:8080/" then
      .ok ⟨"http:", "127.0.0.1", "http://127.0.0.1:8080/"⟩
    else .error ⟨"Invalid URL"⟩
  privateKeyToAddress := fun key =>
    if key = privateKey then .ok "0x7E5F4552091A69125d5DfCb7b8C2659029395Bdf"
    else .error ⟨"invalid private key"⟩

def addressList : String := "1=0x00000000000000000000000000000000000000A1"

/-- Every required variable is set and the other ones are not, the facilities apart. -/
def env : ProcessEnv := fun key =>
  ([("COORDINATOR_BASE_URL", "http://127.0.0.1:8080/"), ("COORDINATOR_API_KEY", " key "),
    ("FACILITIES", " 0xAb,,"), ("GUARDIAN_SIGNER_KEY", privateKey),
    ("GUARDIAN_CHAIN_RPC_URLS", "1=https://rpc?a=b"), ("GUARDIAN_REQUEST_FACTORIES", addressList),
    ("GUARDIAN_REQUEST_OWNERS", addressList), ("GUARDIAN_REQUEST_PULLERS", addressList),
    ("GUARDIAN_REQUEST_CONSUMERS", addressList), ("GUARDIAN_ACCEPTED_FUNDS", addressList),
    ("GUARDIAN_FUND_OWNERS", addressList), ("GUARDIAN_PM_FACTORIES", addressList),
    ("GUARDIAN_PM_OWNERS", addressList)].find? fun e => e.1 = key).map Prod.snd

end Sample

/-- A connection that loads is secure and complete, and its filters let pass a row exactly when
the text of the two variables does. -/
theorem loaded_connection_is_written {platform : Platform} {env : ProcessEnv}
    {config : CoordinatorConnectionConfig} (h : loadCoordinatorConfig platform env = .ok config) :
    Connected platform env config ∧
      ∀ (G : Effect.Signature) (options : GuardianCoordinatorOptions G),
        options.chainIds = config.chainIds → options.facilities = config.facilities →
          ∀ parsed, excluded options parsed = false ↔
            PassesText env parsed.chainId parsed.target.2 :=
  ⟨loadCoordinatorConfig_connected h, fun _ _ hchains hfacilities parsed =>
    excluded_iff (loadCoordinatorConfig_connected h) hchains hfacilities parsed⟩

namespace Sample

def connected (config : CoordinatorConnectionConfig) : GuardianCoordinatorOptions noOps :=
  ⟨guardian, config.pageSize, config.chainIds, config.facilities⟩

def fundOf (facility : Address) : ParsedSigningBody :=
  .setFund ⟨7, facility, ⟨"1"⟩, facility, facility, 0⟩

end Sample

theorem loaded_connection_is_written_sample : ∃ config,
    loadCoordinatorConfig Sample.platform Sample.env = .ok config ∧
      Connected Sample.platform Sample.env config ∧
      excluded (Sample.connected config) (Sample.fundOf "0xaB") = false ∧
      excluded (Sample.connected config) (Sample.fundOf "0xCd") = true := by
  cases h : loadCoordinatorConfig Sample.platform Sample.env with
  | ok config =>
    obtain ⟨hconnected, hfilter⟩ := loaded_connection_is_written h
    have hpasses := hfilter _ (Sample.connected config) rfl rfl
    refine ⟨config, rfl, hconnected, (hpasses _).mpr ⟨.inl (by decide), .inr ?_⟩, ?_⟩
    · exact ⟨"0xAb", by decide, by decide⟩
    · refine Bool.eq_true_of_not_eq_false fun hpassed => ?_
      rcases ((hpasses _).mp hpassed).facility with hnone | ⟨token, htoken, hreads⟩
      · revert hnone
        decide
      · revert token
        decide
  | error e =>
    have hloads : (loadCoordinatorConfig Sample.platform Sample.env).isOk = true := by
      decide +kernel
    rw [h] at hloads
    cases hloads

end Guardian
