import Guardian.Coordinator.SubmissionGate

/-!
# The filters of a poll

The options name chains and facilities twice: as the queries of a poll, and as the test of a
row. An empty set means every row to the first and no row to the second.
-/

namespace Guardian
open Effect Text

section Filters
variable {G : Signature} {options : GuardianCoordinatorOptions G}

def PollFilter.lists (filter : PollFilter) (request : SigningRequest) : Bool :=
  filter.chainId.all (fun chainId : ℕ => decide (request.chainId = chainId)) &&
    filter.facility.all fun facility =>
      decide (toLowerCase request.facility = toLowerCase facility)

structure RowOf (request : SigningRequest) (parsed : ParsedSigningBody) : Prop where
  parses : parseSigningBody request = some parsed
  chainId : request.chainId = parsed.chainId
  target : toLowerCase request.facility = toLowerCase parsed.target.2

structure FilterSets (options : GuardianCoordinatorOptions G) : Prop where
  chainIds : ∀ chainIds, options.chainIds = some chainIds →
    chainIds.Nodup ∧ ∀ chainId ∈ chainIds, 0 < chainId ∧ chainId ≤ MAX_SAFE_INTEGER
  facilities : ∀ facilities, options.facilities = some facilities →
    facilities.Nodup ∧ ∀ facility ∈ facilities,
      ADDRESS_RE facility = true ∧ toLowerCase facility = facility

/-- The row test lets pass what some query lists, and no two queries list it. -/
def FiltersAgree (options : GuardianCoordinatorOptions G) : Prop :=
  ∀ request parsed, RowOf request parsed →
    (excluded options parsed = false ↔ ∃ filter ∈ pollFilters options, filter.lists request) ∧
    (excluded options parsed = false →
      (pollFilters options).countP (fun filter => filter.lists request) = 1)

def orAny {α : Type} : Option (List α) → List (Option α)
  | none => [none]
  | some [] => [none]
  | some xs => xs.map some

theorem pollFilters_eq (options : GuardianCoordinatorOptions G) : pollFilters options =
    (orAny options.chainIds).flatMap fun chainId =>
      (orAny options.facilities).map fun facility => ⟨chainId, facility⟩ := rfl

theorem countP_product {α β γ : Type} (f : α → β → γ) (p : α → Bool) (q : β → Bool)
    (as : List α) (bs : List β) (r : γ → Bool) (hr : ∀ a b, r (f a b) = (p a && q b)) :
    (as.flatMap fun a => bs.map (f a)).countP r = as.countP p * bs.countP q := by
  induction as with
  | nil => simp
  | cons a as ih =>
    have hrow : (bs.map (f a)).countP r = if p a then bs.countP q else 0 := by
      rw [List.countP_map]
      cases hp : p a <;> simp [Function.comp_def, hr, hp]
    rw [List.flatMap_cons, List.countP_append, ih, hrow, List.countP_cons]
    cases p a <;> simp [Nat.add_mul, Nat.add_comm]

theorem countP_orAny {α : Type} [DecidableEq α] {set : Option (List α)} {x : α} {p : α → Bool}
    (hp : ∀ xs, set = some xs → ∀ y ∈ xs, p y = decide (y = x))
    (hnodup : ∀ xs, set = some xs → xs.Nodup) (hne : set ≠ some []) :
    (orAny set).countP (fun y => y.all p) =
      if set.any (fun xs => decide (x ∉ xs)) = true then 0 else 1 := by
  match set, hne with
  | none, _ => rfl
  | some (y :: ys), _ =>
    have hcount : (y :: ys).countP p = (y :: ys).count x := by
      refine List.countP_congr fun z hz => ?_
      simp [hp _ rfl z hz]
    show ((y :: ys).map some).countP (fun y => y.all p) = _
    rw [List.countP_map]
    show (y :: ys).countP p = _
    rw [hcount]
    by_cases hx : x ∈ y :: ys
    · rw [List.count_eq_one_of_mem (hnodup _ rfl) hx, Option.any_some]
      simp only [hx, not_true_eq_false, decide_false, Bool.false_eq_true, if_false]
    · rw [List.count_eq_zero_of_not_mem hx, Option.any_some]
      simp only [hx, not_false_eq_true, decide_true, if_true]

theorem countP_pollFilters (hsets : FilterSets options) (hchainIds : options.chainIds ≠ some [])
    (hfacilities : options.facilities ≠ some []) {request : SigningRequest}
    {parsed : ParsedSigningBody} (hrow : RowOf request parsed) :
    (pollFilters options).countP (fun filter => filter.lists request) =
      if excluded options parsed = true then 0 else 1 := by
  have hchain := countP_orAny (x := parsed.chainId)
    (p := fun chainId : ℕ => decide (request.chainId = chainId))
    (fun xs hxs y _ => by
      rw [decide_eq_decide, hrow.chainId, Nat.cast_inj]
      exact eq_comm)
    (fun xs hxs => (hsets.chainIds xs hxs).1) hchainIds
  have hfacility := countP_orAny (x := toLowerCase parsed.target.2)
    (p := fun facility => decide (toLowerCase request.facility = toLowerCase facility))
    (fun xs hxs y hy => by
      rw [decide_eq_decide, hrow.target, ((hsets.facilities xs hxs).2 y hy).2]
      exact eq_comm)
    (fun xs hxs => (hsets.facilities xs hxs).1) hfacilities
  have hproduct := countP_product PollFilter.mk
    (fun c => c.all fun chainId : ℕ => decide (request.chainId = chainId))
    (fun f => f.all fun facility => decide (toLowerCase request.facility = toLowerCase facility))
    (orAny options.chainIds) (orAny options.facilities) (fun filter => filter.lists request)
    fun _ _ => rfl
  rw [pollFilters_eq, hproduct, hchain, hfacility]
  unfold excluded
  generalize options.chainIds.any _ = outside
  generalize options.facilities.any _ = outside'
  cases outside <;> cases outside' <;> rfl

theorem filtersAgree_of_nonempty (hsets : FilterSets options)
    (hchainIds : options.chainIds ≠ some []) (hfacilities : options.facilities ≠ some []) :
    FiltersAgree options := by
  intro request parsed hrow
  have hcount := countP_pollFilters hsets hchainIds hfacilities hrow
  have hlisted : (∃ filter ∈ pollFilters options, filter.lists request) ↔
      0 < (pollFilters options).countP (fun filter => filter.lists request) :=
    List.countP_pos_iff.symm
  rw [hlisted, hcount]
  cases excluded options parsed <;> simp

def rowFor (chainId : ℕ) (facility : Address) : SigningRequest :=
  ⟨"r1", .setRequest, chainId, facility, "", .obj [("chainId", .num chainId),
    ("facility", .str facility), ("intent", .obj [("id", .str "7")]),
    ("requestContract", .str "0x00000000000000000000000000000000000000c3"),
    ("deadline", .num 1050)], none⟩

def bodyFor (chainId : ℕ) (facility : Address) : IntentRequestBindingBody :=
  ⟨chainId, toLowerCase facility, ⟨"7"⟩, "0x00000000000000000000000000000000000000c3", 1050⟩

theorem rowOf_rowFor {chainId : ℕ} {facility : Address} (hpos : 0 < chainId)
    (hsafe : chainId ≤ MAX_SAFE_INTEGER) (haddress : ADDRESS_RE facility = true) :
    RowOf (rowFor chainId facility) (.setRequest (bodyFor chainId facility)) where
  parses := by
    have hchain : zChainId (.num chainId) = some chainId := by
      simp [zChainId, Json.nat?, Json.integer?, Json.num?, hpos, hsafe]
    have hfacility : zAddress (.str facility) = some facility :=
      Json.stringWhere?_eq_some.mpr ⟨rfl, haddress⟩
    have hintent : IntentRef.accept (.obj [("id", .str "7")]) = some ⟨"7"⟩ := by decide +kernel
    have hcontract : zAddress (.str "0x00000000000000000000000000000000000000c3") =
        some "0x00000000000000000000000000000000000000c3" := by decide +kernel
    have hdeadline : zDeadlineSeconds (.num 1050) = some 1050 := by decide +kernel
    have hlower : toLowerCase "0x00000000000000000000000000000000000000c3" =
        "0x00000000000000000000000000000000000000c3" := by decide +kernel
    have haccept : IntentRequestBindingBody.accept (rowFor chainId facility).body =
        some ⟨chainId, facility, ⟨"7"⟩, "0x00000000000000000000000000000000000000c3", 1050⟩ := by
      simp [IntentRequestBindingBody.accept, rowFor, Json.isStrictObject, Json.isObject,
        Json.keys, Json.get?, List.lookup_cons, hchain, hfacility, hintent, hcontract, hdeadline]
    simp only [parseSigningBody, zIntentRequestBindingBody, haccept, Option.map_some,
      IntentRequestBindingBody.lowered, hlower]
    rfl
  chainId := rfl
  target := by
    show toLowerCase facility = toLowerCase (toLowerCase facility)
    rw [toLowerCase_idem]

theorem exists_orAny {α : Type} (set : Option (List α)) :
    ∃ y ∈ orAny set, ∀ x, y = some x → ∃ xs, set = some xs ∧ x ∈ xs := by
  match set with
  | none => exact ⟨none, .head _, fun x hx => by cases hx⟩
  | some [] => exact ⟨none, .head _, fun x hx => by cases hx⟩
  | some (x :: xs) =>
    refine ⟨some x, .head _, fun y hy => ?_⟩
    cases hy
    exact ⟨x :: xs, rfl, .head _⟩

theorem disagree_of_empty (hsets : FilterSets options)
    (hempty : options.chainIds = some [] ∨ options.facilities = some []) :
    ¬FiltersAgree options := by
  obtain ⟨c, hc, hchain⟩ := exists_orAny options.chainIds
  obtain ⟨f, hf, hfacility⟩ := exists_orAny options.facilities
  have hchainId : 0 < c.getD 1 ∧ c.getD 1 ≤ MAX_SAFE_INTEGER := by
    cases c with
    | none => decide
    | some chainId =>
      obtain ⟨xs, hxs, hmem⟩ := hchain chainId rfl
      exact (hsets.chainIds xs hxs).2 chainId hmem
  have haddress : ADDRESS_RE (f.getD "0x00000000000000000000000000000000000000c3") = true := by
    cases f with
    | none => decide +kernel
    | some facility =>
      obtain ⟨xs, hxs, hmem⟩ := hfacility facility rfl
      exact ((hsets.facilities xs hxs).2 facility hmem).1
  have hrow := rowOf_rowFor hchainId.1 hchainId.2 haddress
  intro hagree
  have hlisted : ∃ filter ∈ pollFilters options, filter.lists
      (rowFor (c.getD 1) (f.getD "0x00000000000000000000000000000000000000c3")) := by
    refine ⟨⟨c, f⟩, ?_, ?_⟩
    · rw [pollFilters_eq]
      exact List.mem_flatMap.mpr ⟨c, hc, List.mem_map_of_mem hf⟩
    · cases c <;> cases f <;> simp [PollFilter.lists, rowFor]
  have hpass := (hagree _ _ hrow).1.mpr hlisted
  unfold excluded at hpass
  rcases hempty with hnone | hnone
  · simp [hnone] at hpass
  · simp [hnone] at hpass

end Filters

namespace Sample

def noChains : GuardianCoordinatorOptions noOps := ⟨guardian, 100, some [], none⟩

end Sample

/-- The poll asks for every row, and the row test drops each of them. -/
theorem empty_set_disagrees : ¬FiltersAgree Sample.noChains :=
  disagree_of_empty ⟨fun _ h => by cases h; exact ⟨.nil, fun _ h => by cases h⟩,
    fun _ h => by cases h⟩ (.inl rfl)

theorem filters_agree_iff {G : Signature} (options : GuardianCoordinatorOptions G)
    (hsets : FilterSets options) :
    FiltersAgree options ↔ options.chainIds ≠ some [] ∧ options.facilities ≠ some [] := by
  constructor
  · intro hagree
    constructor
    · exact fun hempty => disagree_of_empty hsets (.inl hempty) hagree
    · exact fun hempty => disagree_of_empty hsets (.inr hempty) hagree
  · intro hnonempty
    exact filtersAgree_of_nonempty hsets hnonempty.1 hnonempty.2

theorem filters_agree_iff_one_chain : FiltersAgree Sample.coordinatorOptions :=
  (filters_agree_iff Sample.coordinatorOptions ⟨fun _ h => by
    cases h
    exact ⟨by decide, by decide⟩, fun _ h => by cases h⟩).mpr ⟨by decide, by decide⟩

end Guardian
