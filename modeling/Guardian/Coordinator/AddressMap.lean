import Guardian.Core.Checks
import Guardian.Core.Schemas
import Guardian.Lib.NumberText
import Guardian.Lib.OrderedMap
import Guardian.Lib.Split
import Mathlib.Data.List.Find

/-!
# Address lists of the configuration

`chainId=addr,addr;chainId=addr` read into a set of addresses for each chain, against what
was written. The two come apart when a chain is named twice or an item has a second `=`.
-/

namespace Guardian
open Double Text

def positiveInt (value : Option String) (fallback : ℕ) : Except Thrown ℕ :=
  let trimmed := trim (value.getD "").toList
  let raw := if trimmed.isEmpty then toString fallback else String.ofList trimmed
  let rejected : Except Thrown ℕ := .error ⟨s!"expected positive integer: {raw}"⟩
  match number raw with
  | .finite parsed => if parsed.den = 1 ∧ 0 < parsed then .ok parsed.num.toNat else rejected
  | _ => rejected

/-- `Set.add`. -/
def addToSet (addresses : List String) (address : String) : List String :=
  if address ∈ addresses then addresses else addresses ++ [address]

abbrev AddressMap := OrderedMap ℕ (List String)

section Parse
variable (isAddress : String → Bool) (name : String)

/-- An address passes `isAddress` only if it is ASCII. -/
def addAddresses (addresses : List String) : List (List Char) → Except Thrown (List String)
  | [] => .ok addresses
  | rawAddress :: rest =>
    let address := String.ofList (trim rawAddress)
    if address = "" then addAddresses addresses rest
    else if isAddress address then addAddresses (addToSet addresses (toLowerCase address)) rest
    else .error ⟨s!"{name} contains invalid address {address}"⟩

def addItem (map : AddressMap) (item : List Char) : Except Thrown AddressMap :=
  if (trim item).isEmpty then .ok map
  else do
    let pieces := item.splitOn '='
    let chainId ← positiveInt (pieces.head?.map fun cs => String.ofList (trim cs)) 0
    let addresses ← addAddresses isAddress name [] ((pieces[1]?.getD []).splitOn ',')
    if addresses.length = 0 then
      .error ⟨s!"{name} has no addresses for chain {(JsNumber.finite chainId).text}"⟩
    else .ok (map.set chainId addresses)

def parseAddressMap (value : String) : Except Thrown AddressMap := do
  let map ← (value.toList.splitOn ';').foldlM (addItem isAddress name) .empty
  if map.size = 0 then .error ⟨s!"{name} must not be empty"⟩ else .ok map

end Parse

def segments (value : String) : List (List Char) :=
  (value.toList.splitOn ';').filter fun item => !(trim item).isEmpty

def chainOf (segment : List Char) : Option ℕ :=
  (positiveInt (some (String.ofList (trim (segment.takeWhile (· ≠ '='))))) 0).toOption

def writtenTokens (segment : List Char) : List String := tokens ',' (after '=' segment)

def listed (segment : List Char) : List String := (writtenTokens segment).map toLowerCase

/-- The tokens up to a second `=`, which are all the parser looks at. -/
def readTokens (segment : List Char) : List String :=
  tokens ',' ((after '=' segment).takeWhile (· ≠ '='))

structure Accepted (isAddress : String → Bool) (segment : List Char) : Prop where
  chain : (chainOf segment).isSome
  nonempty : readTokens segment ≠ []
  address : ∀ token ∈ readTokens segment, isAddress token = true

/-- At least one segment, and each of them accepted. -/
structure WellFormed (isAddress : String → Bool) (value : String) : Prop where
  some : segments value ≠ []
  accepted : ∀ segment ∈ segments value, Accepted isAddress segment

/-- What is returned has every chain that was named, with every address listed for it. -/
def LosesNothing (isAddress : String → Bool) (name value : String) : Prop :=
  ∀ map, parseAddressMap isAddress name value = .ok map →
    (∀ segment ∈ segments value, ∃ chain addresses, chainOf segment = some chain ∧
      map.get? chain = some addresses ∧
        ∀ token ∈ writtenTokens segment, toLowerCase token ∈ addresses) ∧
    ∀ chain addresses, map.get? chain = some addresses → ∀ address, address ∈ addresses ↔
      ∃ segment ∈ segments value, chainOf segment = some chain ∧ address ∈ listed segment

section Spec
variable {isAddress : String → Bool} {name : String}

def setOf (addresses : List String) : List String := addresses.foldl addToSet []

theorem mem_foldl_addToSet {address : String} (addresses start : List String) :
    address ∈ addresses.foldl addToSet start ↔ address ∈ start ∨ address ∈ addresses := by
  induction addresses generalizing start with
  | nil => simp
  | cons a addresses ih =>
    rw [List.foldl_cons, ih, List.mem_cons, ← or_assoc]
    refine or_congr_left ?_
    unfold addToSet
    split
    · rename_i hmem
      exact ⟨.inl, fun h => h.elim id fun heq => heq ▸ hmem⟩
    · rw [List.mem_append, List.mem_singleton]

theorem mem_setOf {address : String} {addresses : List String} :
    address ∈ setOf addresses ↔ address ∈ addresses := by
  rw [setOf, mem_foldl_addToSet]
  simp

theorem setOf_eq_nil {addresses : List String} : setOf addresses = [] ↔ addresses = [] := by
  rw [List.eq_nil_iff_forall_not_mem, List.eq_nil_iff_forall_not_mem]
  simp only [mem_setOf]

theorem addAddresses_ok {start addresses : List String} (pieces : List (List Char)) :
    addAddresses isAddress name start pieces = .ok addresses ↔
      (∀ token ∈ (pieces.map fun piece => String.ofList (trim piece)).filter (· ≠ ""),
        isAddress token = true) ∧
      addresses = (((pieces.map fun piece => String.ofList (trim piece)).filter
        (· ≠ "")).map toLowerCase).foldl addToSet start := by
  induction pieces generalizing start with
  | nil =>
    rw [addAddresses, Except.ok.injEq, eq_comm]
    simp
  | cons piece pieces ih =>
    rw [addAddresses]
    by_cases hblank : String.ofList (trim piece) = ""
    · rw [if_pos hblank, ih]
      simp [hblank]
    · rw [if_neg hblank]
      by_cases haddress : isAddress (String.ofList (trim piece)) = true
      · rw [if_pos haddress, ih]
        simp [hblank, haddress]
      · rw [if_neg haddress]
        simp [hblank, haddress]

theorem addItem_ok {map map' : AddressMap} {item : List Char}
    (hitem : (trim item).isEmpty = false) :
    addItem isAddress name map item = .ok map' ↔ ∃ chain, chainOf item = some chain ∧
      readTokens item ≠ [] ∧ (∀ token ∈ readTokens item, isAddress token = true) ∧
        map' = map.set chain (setOf ((readTokens item).map toLowerCase)) := by
  have hread : ∀ addresses, addAddresses isAddress name []
      (((after '=' item).takeWhile (· ≠ '=')).splitOn ',') = .ok addresses ↔
        (∀ token ∈ readTokens item, isAddress token = true) ∧
          addresses = setOf ((readTokens item).map toLowerCase) := fun addresses =>
    addAddresses_ok _
  unfold addItem chainOf
  rw [hitem, if_neg Bool.false_ne_true]
  simp only [head_splitOn, second_splitOn, Option.map_some]
  cases positiveInt (some (String.ofList (trim (item.takeWhile (· ≠ '='))))) 0 with
  | error thrown =>
    refine iff_of_false (fun h => nomatch h) ?_
    rintro ⟨chain, hchain, _⟩
    cases hchain
  | ok chain =>
    cases hadded : addAddresses isAddress name []
        (((after '=' item).takeWhile (· ≠ '=')).splitOn ',') with
    | error thrown =>
      refine iff_of_false (fun h => nomatch h) ?_
      rintro ⟨_, _, _, haddress, _⟩
      have hok := (hread _).mpr ⟨haddress, rfl⟩
      rw [hadded] at hok
      cases hok
    | ok addresses =>
      obtain ⟨haddress, rfl⟩ := (hread addresses).mp hadded
      have hempty : (setOf ((readTokens item).map toLowerCase)).length = 0 ↔
          readTokens item = [] := by
        rw [List.length_eq_zero_iff, setOf_eq_nil, List.map_eq_nil_iff]
      show (if _ then _ else _) = _ ↔ _
      by_cases hnone : readTokens item = []
      · rw [if_pos (hempty.mpr hnone)]
        refine iff_of_false (fun h => nomatch h) ?_
        rintro ⟨_, _, hsome, _⟩
        exact hsome hnone
      · rw [if_neg fun h => hnone (hempty.mp h)]
        constructor
        · intro h
          exact ⟨chain, rfl, hnone, haddress, (Except.ok.inj h).symm⟩
        · rintro ⟨chain', hchain, _, _, rfl⟩
          cases hchain
          rfl

theorem addItem_blank {map : AddressMap} {item : List Char} (hitem : (trim item).isEmpty = true) :
    addItem isAddress name map item = .ok map := if_pos hitem

def entryOf (segment : List Char) : ℕ × List String :=
  ((chainOf segment).getD 0, setOf ((readTokens segment).map toLowerCase))

theorem foldlM_addItem (isAddress : String → Bool) (name : String) (items : List (List Char))
    (map map' : AddressMap) :
    items.foldlM (addItem isAddress name) map = .ok map' ↔
      (∀ segment ∈ items.filter fun item => !(trim item).isEmpty,
        Accepted isAddress segment) ∧
      map' = ((items.filter fun item => !(trim item).isEmpty).map entryOf).foldl
        (fun map entry => map.set entry.1 entry.2) map := by
  induction items generalizing map with
  | nil =>
    rw [List.foldlM_nil]
    constructor
    · intro h
      exact ⟨by simp, (Except.ok.inj h).symm⟩
    · rintro ⟨_, rfl⟩
      rfl
  | cons item items ih =>
    rw [List.foldlM_cons]
    cases hitem : (trim item).isEmpty with
    | true =>
      rw [addItem_blank hitem, List.filter_cons_of_neg (by rw [hitem]; decide)]
      exact ih map
    | false =>
      rw [List.filter_cons_of_pos (by rw [hitem]; decide), List.map_cons, List.foldl_cons,
        List.forall_mem_cons]
      cases hadded : addItem isAddress name map item with
      | error thrown =>
        refine iff_of_false (fun h => nomatch h) ?_
        rintro ⟨⟨haccepted, _⟩, _⟩
        obtain ⟨chain, hchain⟩ := Option.isSome_iff_exists.mp haccepted.chain
        have hok : addItem isAddress name map item = .ok _ := (addItem_ok hitem).mpr
          ⟨chain, hchain, haccepted.nonempty, haccepted.address, rfl⟩
        rw [hadded] at hok
        cases hok
      | ok next =>
        obtain ⟨chain, hchain, hsome, haddress, rfl⟩ := (addItem_ok hitem).mp hadded
        have hentry : entryOf item = (chain, setOf ((readTokens item).map toLowerCase)) := by
          rw [entryOf, hchain]
          rfl
        rw [hentry]
        refine (ih _).trans (and_congr_left fun _ => ?_)
        have haccepted : Accepted isAddress item :=
          ⟨Option.isSome_iff_exists.mpr ⟨chain, hchain⟩, hsome, haddress⟩
        exact (and_iff_right haccepted).symm

def lastNaming (value : String) (chain : ℕ) : Option (List Char) :=
  (segments value).reverse.find? fun segment => decide (chainOf segment = some chain)

theorem size_parsed (entries : List (ℕ × List String)) :
    (entries.foldl (fun map entry => map.set entry.1 entry.2) (.empty : AddressMap)).size = 0 ↔
      entries = [] := by
  constructor
  · intro hsize
    by_contra hne
    rw [← List.dropLast_append_getLast hne, List.foldl_append, List.foldl_cons,
      List.foldl_nil] at hsize
    have hget := OrderedMap.get?_set_self (entries.dropLast.foldl
      (fun map entry => map.set entry.1 entry.2) (.empty : AddressMap))
      (entries.getLast hne).1 (entries.getLast hne).2
    rw [OrderedMap.get?_eq_some, List.length_eq_zero_iff.mp hsize] at hget
    cases hget
  · rintro rfl
    rfl

theorem parseAddressMap_ok {value : String} {map : AddressMap} :
    parseAddressMap isAddress name value = .ok map ↔ WellFormed isAddress value ∧
      map = ((segments value).map entryOf).foldl (fun map entry => map.set entry.1 entry.2)
        .empty := by
  have hfold := foldlM_addItem isAddress name (value.toList.splitOn ';') .empty
  have hsegments : (value.toList.splitOn ';').filter (fun item => !(trim item).isEmpty) =
    segments value := rfl
  rw [hsegments] at hfold
  have hformed : WellFormed isAddress value ↔ segments value ≠ [] ∧
      ∀ segment ∈ segments value, Accepted isAddress segment :=
    ⟨fun h => ⟨h.some, h.accepted⟩, fun h => ⟨h.1, h.2⟩⟩
  rw [hformed, and_assoc]
  refine Iff.trans ?_ (and_congr_right fun _ => hfold map)
  rw [parseAddressMap]
  cases hparsed : (value.toList.splitOn ';').foldlM (addItem isAddress name) .empty with
  | error thrown =>
    exact iff_of_false (fun h => nomatch h) fun h => nomatch h.2
  | ok parsed =>
    obtain ⟨-, rfl⟩ := (hfold parsed).mp hparsed
    show (if _ then _ else _) = _ ↔ _
    have hsize := size_parsed ((segments value).map entryOf)
    rw [List.map_eq_nil_iff] at hsize
    by_cases hnone : segments value = []
    · rw [if_pos (hsize.mpr hnone)]
      exact iff_of_false (fun h => nomatch h) fun h => h.1 hnone
    · rw [if_neg fun h => hnone (hsize.mp h)]
      exact (and_iff_right hnone).symm

theorem get?_parsed {value : String} (h : WellFormed isAddress value) (chain : ℕ) :
    (((segments value).map entryOf).foldl (fun map entry => map.set entry.1 entry.2)
      (.empty : AddressMap)).get? chain =
      (lastNaming value chain).map fun segment => setOf ((readTokens segment).map toLowerCase) := by
  rw [OrderedMap.get?_foldl_set, OrderedMap.get?_empty, Option.or_none, ← List.map_reverse,
    List.find?_map, Option.map_map]
  refine congrArg (Option.map _) (List.find?_congr fun segment hsegment => ?_)
  obtain ⟨named, hnamed⟩ := Option.isSome_iff_exists.mp
    (h.accepted segment (List.mem_reverse.mp hsegment)).chain
  rw [Function.comp_apply, entryOf, hnamed, Option.getD_some]
  exact decide_eq_decide.mpr Option.some_inj.symm

end Spec

/-- Items without a second `=`, of which the last naming a chain lists all its addresses. -/
structure Complete (value : String) : Prop where
  single : ∀ segment ∈ segments value, '=' ∉ after '=' segment
  last : ∀ segment ∈ segments value, ∀ chain, chainOf segment = some chain →
    ∀ last, lastNaming value chain = some last → listed segment ⊆ listed last

theorem readTokens_eq {segment : List Char} (h : '=' ∉ after '=' segment) :
    readTokens segment = writtenTokens segment := by
  have hall : (after '=' segment).takeWhile (· ≠ '=') = after '=' segment :=
    List.takeWhile_eq_self_iff.mpr fun c hc => by
      have hne : c ≠ '=' := fun heq => h (heq ▸ hc)
      simpa using hne
  rw [readTokens, hall, writtenTokens]

theorem notMem_readTokens {segment : List Char} {token : String}
    (h : token ∈ readTokens segment) : '=' ∉ token.toList := fun hmem => by
  have hread := (exists_mem_tokens ',' (by decide) (by decide)
    ((after '=' segment).takeWhile (· ≠ '='))).mp ⟨token, h, hmem⟩
  simpa using List.mem_takeWhile_imp hread

theorem lastNaming_of_mem {value : String} {segment : List Char} {chain : ℕ}
    (hmem : segment ∈ segments value) (hchain : chainOf segment = some chain) :
    ∃ last, lastNaming value chain = some last := by
  refine Option.isSome_iff_exists.mp (List.find?_isSome.mpr ⟨segment, ?_, decide_eq_true hchain⟩)
  exact List.mem_reverse.mpr hmem

theorem of_lastNaming {value : String} {last : List Char} {chain : ℕ}
    (h : lastNaming value chain = some last) :
    last ∈ segments value ∧ chainOf last = some chain :=
  ⟨List.mem_reverse.mp (List.mem_of_find?_eq_some h), by simpa using List.find?_some h⟩

/-- The parser loses nothing exactly where it refuses the string or the string is complete. -/
theorem parseAddressMap_iff (isAddress : String → Bool) (name value : String) :
    LosesNothing isAddress name value ↔ (WellFormed isAddress value → Complete value) := by
  constructor
  · intro hkeeps hformed
    obtain ⟨hlisted, -⟩ := hkeeps _ (parseAddressMap_ok.mpr ⟨hformed, rfl⟩)
    -- What is written for a chain was read from the last segment that names it.
    have hread : ∀ segment ∈ segments value, ∀ token ∈ writtenTokens segment, ∀ chain,
        chainOf segment = some chain → ∀ last, lastNaming value chain = some last →
          ∃ token' ∈ readTokens last, toLowerCase token' = toLowerCase token := by
      intro segment hsegment token htoken chain hchain last hlast
      obtain ⟨chain', addresses, hchain', hget, hmem⟩ := hlisted segment hsegment
      obtain rfl := Option.some.inj (hchain.symm.trans hchain')
      rw [get?_parsed hformed, hlast] at hget
      have htaken := hmem token htoken
      rw [← Option.some.inj hget, mem_setOf, List.mem_map] at htaken
      exact htaken
    have hsingle : ∀ segment ∈ segments value, '=' ∉ after '=' segment := by
      intro segment hsegment hsecond
      obtain ⟨token, htoken, hin⟩ :=
        (exists_mem_tokens ',' (by decide) (by decide) _).mpr hsecond
      obtain ⟨chain, hchain⟩ :=
        Option.isSome_iff_exists.mp (hformed.accepted segment hsegment).chain
      obtain ⟨last, hlast⟩ := lastNaming_of_mem hsegment hchain
      obtain ⟨token', htoken', hsame⟩ := hread segment hsegment token htoken chain hchain last hlast
      have hlower : '=' ∈ (toLowerCase token').toList := by
        rw [hsame]
        exact (mem_toLowerCase (by decide)).mpr hin
      exact notMem_readTokens htoken' ((mem_toLowerCase (by decide)).mp hlower)
    refine ⟨hsingle, fun segment hsegment chain hchain last hlast address haddress => ?_⟩
    obtain ⟨token, htoken, rfl⟩ := List.mem_map.mp haddress
    obtain ⟨token', htoken', hsame⟩ := hread segment hsegment token htoken chain hchain last hlast
    rw [readTokens_eq (hsingle last (of_lastNaming hlast).1)] at htoken'
    exact List.mem_map.mpr ⟨token', htoken', hsame⟩
  · intro hcomplete map hparsed
    obtain ⟨hformed, rfl⟩ := parseAddressMap_ok.mp hparsed
    have hkept := hcomplete hformed
    have hget : ∀ {chain last}, lastNaming value chain = some last →
        (((segments value).map entryOf).foldl (fun map entry => map.set entry.1 entry.2)
          (.empty : AddressMap)).get? chain = some (setOf (listed last)) := by
      intro chain last hlast
      rw [get?_parsed hformed, hlast, Option.map_some,
        readTokens_eq (hkept.single last (of_lastNaming hlast).1)]
      rfl
    refine ⟨fun segment hsegment => ?_, fun chain addresses hfound address => ?_⟩
    · obtain ⟨chain, hchain⟩ :=
        Option.isSome_iff_exists.mp (hformed.accepted segment hsegment).chain
      obtain ⟨last, hlast⟩ := lastNaming_of_mem hsegment hchain
      refine ⟨chain, _, hchain, hget hlast, fun token htoken => mem_setOf.mpr ?_⟩
      exact hkept.last segment hsegment chain hchain last hlast (List.mem_map_of_mem htoken)
    · cases hlast : lastNaming value chain with
      | none =>
        rw [get?_parsed hformed, hlast] at hfound
        cases hfound
      | some last =>
        rw [hget hlast] at hfound
        rw [← Option.some.inj hfound, mem_setOf]
        obtain ⟨hmem, hchain⟩ := of_lastNaming hlast
        constructor
        · intro haddress
          exact ⟨last, hmem, hchain, haddress⟩
        · rintro ⟨segment, hsegment, hsame, haddress⟩
          exact hkept.last segment hsegment chain hsame last hlast haddress

section Lost

theorem positiveInt_digits (cs : List Char) (hdigits : ∀ c ∈ cs, isDigit c = true)
    (hpos : 0 < decimalValue cs) (hle : decimalValue cs ≤ 2 ^ 53) (fallback : ℕ) :
    positiveInt (some (String.ofList cs)) fallback = .ok (decimalValue cs) := by
  have hne : cs ≠ [] := by
    rintro rfl
    exact absurd hpos (by decide)
  have hstring : String.ofList cs ≠ "" := fun hempty => hne (by
    rw [← String.toList_ofList (l := cs), hempty]
    rfl)
  have hnumber := number_digits hstring (by rwa [String.toList_ofList])
  have hround : nearest (decimalValue cs) < 2 ^ 1024 := by
    rw [nearest_natCast hle]
    calc (decimalValue cs : ℚ) ≤ 2 ^ 53 := by exact_mod_cast hle
      _ < 2 ^ 1024 := pow_lt_pow_right₀ (by norm_num) (by norm_num)
  rw [String.toList_ofList, ofRat, if_pos hround, nearest_natCast hle] at hnumber
  unfold positiveInt
  dsimp only
  rw [Option.getD_some, String.toList_ofList, trim_digits hdigits,
    if_neg (by rwa [List.isEmpty_iff]), hnumber]
  exact if_pos ⟨rfl, by exact_mod_cast hpos⟩

def addressOf (c : Char) : List Char := '0' :: 'x' :: List.replicate 40 c

def chainOne (rest : List Char) : List Char := '1' :: '=' :: rest

theorem chainOf_chainOne (rest : List Char) : chainOf (chainOne rest) = some 1 := by
  have hone := positiveInt_digits ['1'] (List.all_eq_true.mp (by decide)) (by decide)
    (by decide) 0
  exact congrArg Except.toOption hone

theorem tokens_single {cs : List Char} (hcomma : ',' ∉ cs) (htrim : trim cs = cs) (hne : cs ≠ []) :
    tokens ',' cs = [String.ofList cs] := by
  have hstring : String.ofList cs ≠ "" := fun hempty => hne (by
    rw [← String.toList_ofList (l := cs), hempty]
    rfl)
  rw [tokens, List.splitOn_eq_singleton hcomma, List.map_singleton, htrim]
  simp [hstring]

theorem mem_writtenTokens {rest : List Char} (hcomma : ',' ∉ rest) (htrim : trim rest = rest)
    (hne : rest ≠ []) : String.ofList rest ∈ writtenTokens (chainOne rest) := by
  have hsingle : writtenTokens (chainOne rest) = [String.ofList rest] :=
    tokens_single hcomma htrim hne
  rw [hsingle]
  exact .head _

theorem loses_of_last {value : String} (segment last : List Char) (token : String)
    {isAddress : String → Bool} {name : String} (hformed : WellFormed isAddress value)
    (hsegment : segment ∈ segments value) (htoken : token ∈ writtenTokens segment)
    (hchain : chainOf segment = some 1) (hlast : lastNaming value 1 = some last)
    (hmissing : toLowerCase token ∉ (readTokens last).map toLowerCase) :
    ¬LosesNothing isAddress name value := fun hkeeps => by
  obtain ⟨hlisted, -⟩ := hkeeps _ (parseAddressMap_ok.mpr ⟨hformed, rfl⟩)
  obtain ⟨chain, addresses, hchain', hget, hmem⟩ := hlisted segment hsegment
  obtain rfl := Option.some.inj (hchain.symm.trans hchain')
  rw [get?_parsed hformed, hlast, Option.map_some] at hget
  have htaken := hmem token htoken
  rw [← Option.some.inj hget, mem_setOf] at htaken
  exact hmissing htaken

def repeated : String :=
  String.ofList (chainOne (addressOf 'a') ++ ';' :: chainOne (addressOf 'b'))

def doubled : String := String.ofList (chainOne (addressOf 'a' ++ '=' :: addressOf 'b'))

theorem segments_repeated :
    segments repeated = [chainOne (addressOf 'a'), chainOne (addressOf 'b')] := by
  rw [segments, repeated, String.toList_ofList,
    List.splitOn_append_cons_self_of_not_mem (by decide), List.splitOn_eq_singleton (by decide)]
  decide

theorem segments_doubled :
    segments doubled = [chainOne (addressOf 'a' ++ '=' :: addressOf 'b')] := by
  rw [segments, doubled, String.toList_ofList, List.splitOn_eq_singleton (by decide)]
  decide

theorem readTokens_a (rest : List Char) (h : (addressOf 'a' ++ rest).takeWhile (· ≠ '=') =
    addressOf 'a') : readTokens (chainOne (addressOf 'a' ++ rest)) =
      [String.ofList (addressOf 'a')] := by
  have hafter : after '=' (chainOne (addressOf 'a' ++ rest)) = addressOf 'a' ++ rest := rfl
  rw [readTokens, hafter, h]
  exact tokens_single (by decide) (by decide) (by decide)

theorem readTokens_b :
    readTokens (chainOne (addressOf 'b')) = [String.ofList (addressOf 'b')] :=
  tokens_single (by decide) (by decide) (by decide)

theorem accepted_single {segment : List Char} {c : Char} (hchain : chainOf segment = some 1)
    (hread : readTokens segment = [String.ofList (addressOf c)])
    (haddress : ADDRESS_RE (String.ofList (addressOf c)) = true) : Accepted ADDRESS_RE segment := by
  refine ⟨by rw [hchain]; rfl, by rw [hread]; exact List.cons_ne_nil _ _, fun token htoken => ?_⟩
  rw [hread] at htoken
  rw [List.mem_singleton.mp htoken]
  exact haddress

/-- A chain named twice keeps the addresses of its last segment only, and what follows a second
`=` is not read. -/
theorem address_lost : ¬LosesNothing ADDRESS_RE "GUARDIAN_ACCEPTED_OWNERS" repeated ∧
    ¬LosesNothing ADDRESS_RE "GUARDIAN_ACCEPTED_OWNERS" doubled := by
  have hfirst := readTokens_a [] (by decide)
  have hdouble := readTokens_a ('=' :: addressOf 'b') (by decide)
  have haccepted := accepted_single (chainOf_chainOne _) hfirst (by decide)
  constructor
  · refine loses_of_last (chainOne (addressOf 'a')) (chainOne (addressOf 'b'))
      (String.ofList (addressOf 'a')) ⟨?_, fun segment hsegment => ?_⟩ ?_ ?_
      (chainOf_chainOne _) ?_ ?_
    · rw [segments_repeated]
      exact List.cons_ne_nil _ _
    · rw [segments_repeated, List.mem_pair] at hsegment
      rcases hsegment with rfl | rfl
      · exact haccepted
      · exact accepted_single (chainOf_chainOne _) readTokens_b (by decide)
    · rw [segments_repeated]
      exact .head _
    · exact mem_writtenTokens (by decide) (by decide) (by decide)
    · rw [lastNaming, segments_repeated]
      exact List.find?_cons_of_pos (decide_eq_true (chainOf_chainOne _))
    · rw [readTokens_b]
      decide
  · refine loses_of_last
      (chainOne (addressOf 'a' ++ '=' :: addressOf 'b'))
      (chainOne (addressOf 'a' ++ '=' :: addressOf 'b'))
      (String.ofList (addressOf 'a' ++ '=' :: addressOf 'b'))
      ⟨?_, fun segment hsegment => ?_⟩ ?_ ?_ (chainOf_chainOne _) ?_ ?_
    · rw [segments_doubled]
      exact List.cons_ne_nil _ _
    · rw [segments_doubled, List.mem_singleton] at hsegment
      rw [hsegment]
      exact accepted_single (chainOf_chainOne _) hdouble (by decide)
    · rw [segments_doubled]
      exact .head _
    · exact mem_writtenTokens (by decide) (by decide) (by decide)
    · rw [lastNaming, segments_doubled]
      exact List.find?_cons_of_pos (decide_eq_true (chainOf_chainOne _))
    · rw [hdouble]
      decide

end Lost
end Guardian
