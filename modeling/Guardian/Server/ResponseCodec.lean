import Guardian.Coordinator.SubmittedSignatures

/-!
# Responses, written and read

A response document is read back as the response it was written from, its hex fields in lower
case, and nothing else is ever read: reading what was read changes nothing.
-/

namespace Guardian
open Text

structure CheckEntry.Wire (entry : CheckEntry) : Prop where
  description : entry.description ≠ ""
  reason : entry.reason ≠ some ""

theorem zNonEmpty_str {s t : String} : zNonEmpty (.str s) = some t ↔ s = t ∧ t ≠ "" := by
  rw [zNonEmpty, Json.stringWhere?_eq_some, decide_eq_true_eq, Json.str.injEq]

theorem zCheckEntry_toJson {entry read : CheckEntry} :
    zCheckEntry entry.toJson = some read ↔ entry.Wire ∧ read = entry := by
  obtain ⟨description, passed, skipped, reason⟩ := entry
  cases reason with
  | none =>
    change (zNonEmpty (.str description)).bind
      (fun d => some (CheckEntry.mk d passed skipped none)) = _ ↔ _
    rw [Option.bind_eq_some_iff]
    constructor
    · intro h
      obtain ⟨d, hd, heq⟩ := h
      obtain ⟨rfl, hne⟩ := zNonEmpty_str.mp hd
      exact ⟨⟨hne, by simp⟩, (Option.some.inj heq).symm⟩
    · intro h
      exact ⟨description, zNonEmpty_str.mpr ⟨rfl, h.1.description⟩, by rw [h.2]⟩
  | some reason =>
    change (zNonEmpty (.str description)).bind (fun d =>
      ((zNonEmpty (.str reason)).map some).bind fun r =>
        some (CheckEntry.mk d passed skipped r)) = _ ↔ _
    rw [Option.bind_eq_some_iff]
    constructor
    · intro h
      obtain ⟨d, hd, h⟩ := h
      obtain ⟨r, hr, heq⟩ := Option.bind_eq_some_iff.mp h
      obtain ⟨text, htext, rfl⟩ := Option.map_eq_some_iff.mp hr
      obtain ⟨rfl, hne⟩ := zNonEmpty_str.mp hd
      obtain ⟨rfl, hfilled⟩ := zNonEmpty_str.mp htext
      exact ⟨⟨hne, fun hempty => hfilled (Option.some.inj hempty)⟩, (Option.some.inj heq).symm⟩
    · intro h
      have hreason : zNonEmpty (.str reason) = some reason :=
        zNonEmpty_str.mpr ⟨rfl, fun hempty => h.1.reason (congrArg some hempty)⟩
      refine ⟨description, zNonEmpty_str.mpr ⟨rfl, h.1.description⟩, ?_⟩
      rw [hreason, h.2]
      rfl

theorem zCheckEntry_wire {j : Json} {entry : CheckEntry} (h : zCheckEntry j = some entry) :
    entry.Wire := by
  simp only [zCheckEntry, Option.bind_eq_bind, Option.bind_eq_some_iff] at h
  obtain ⟨_, -, description, ⟨_, -, hdescription⟩, _, -, _, -, reason, hreason, heq⟩ := h
  cases heq
  refine ⟨?_, fun hempty => ?_⟩
  · exact of_decide_eq_true (Json.stringWhere?_eq_some.mp hdescription).2
  · cases hfield : j.get? "reason" with
    | none =>
      rw [hfield, zOptional] at hreason
      rw [← Option.some.inj hreason] at hempty
      cases hempty
    | some field =>
      rw [hfield, zOptional] at hreason
      obtain ⟨text, htext, rfl⟩ := Option.map_eq_some_iff.mp hreason
      have hne := of_decide_eq_true (Json.stringWhere?_eq_some.mp htext).2
      exact hne (Option.some.inj hempty)

theorem zChecks_toJson {entries read : List CheckEntry} :
    zChecks (.arr (entries.map CheckEntry.toJson)) = some read ↔
      (∀ entry ∈ entries, entry.Wire) ∧ read = entries := by
  change (entries.map CheckEntry.toJson).mapM zCheckEntry = some read ↔ _
  induction entries generalizing read with
  | nil => simp [eq_comm]
  | cons entry entries ih =>
    rw [List.map_cons, List.mapM_cons]
    constructor
    · intro h
      obtain ⟨e, he, hrest⟩ := Option.bind_eq_some_iff.mp h
      obtain ⟨es, hes, heq⟩ := Option.bind_eq_some_iff.mp hrest
      obtain ⟨hwire, rfl⟩ := zCheckEntry_toJson.mp he
      obtain ⟨hwires, rfl⟩ := ih.mp hes
      exact ⟨List.forall_mem_cons.mpr ⟨hwire, hwires⟩, (Option.some.inj heq).symm⟩
    · intro h
      obtain ⟨hwires, rfl⟩ := h
      obtain ⟨hwire, hwires⟩ := List.forall_mem_cons.mp hwires
      rw [zCheckEntry_toJson.mpr ⟨hwire, rfl⟩, ih.mpr ⟨hwires, rfl⟩]
      rfl

theorem zChecks_wire {j : Json} {entries : List CheckEntry} (h : zChecks j = some entries) :
    ∀ entry ∈ entries, entry.Wire := by
  obtain ⟨items, -, hitems⟩ := Option.bind_eq_some_iff.mp h
  clear h
  induction items generalizing entries with
  | nil =>
    obtain rfl := Option.some.inj hitems
    intro entry hentry
    cases hentry
  | cons item items ih =>
    rw [List.mapM_cons] at hitems
    obtain ⟨entry, hentry, hrest⟩ := Option.bind_eq_some_iff.mp hitems
    obtain ⟨entries', hentries', heq⟩ := Option.bind_eq_some_iff.mp hrest
    obtain rfl := Option.some.inj heq
    intro e he
    rcases List.mem_cons.mp he with rfl | he
    · exact zCheckEntry_wire hentry
    · exact ih hentries' e he

theorem isHexDigit_toLower_ascii :
    ∀ n < 128, isHexDigit (Char.ofNat n) = true → isHexDigit (Char.ofNat n).toLower = true := by
  decide +kernel

theorem isHex_toLowerCase {n : ℕ} {s : String} (h : isHex n s = true) :
    isHex n (toLowerCase s) = true := by
  obtain ⟨cs, hchars, hlength, hdigits⟩ := isHex_iff.mp h
  refine isHex_iff.mpr ⟨cs.map Char.toLower, ?_, ?_, ?_⟩
  · rw [toList_toLowerCase, hchars, List.map_cons, List.map_cons]
    rfl
  · rw [List.length_map, hlength]
  · intro c hc
    obtain ⟨d, hd, rfl⟩ := List.mem_map.mp hc
    have hdigit := isHexDigit_toLower_ascii d.toNat (isHexDigit_ascii (hdigits d hd))
    rw [Char.ofNat_toNat] at hdigit
    exact hdigit (hdigits d hd)

def SigningSuccess.lowered (success : SigningSuccess) : SigningSuccess where
  guardian := toLowerCase success.guardian
  signature := toLowerCase success.signature
  payloadHash := toLowerCase success.payloadHash
  signedAt := success.signedAt
  checks := success.checks

structure SigningSuccess.Wire (success : SigningSuccess) : Prop where
  guardian : isHex 40 (toLowerCase success.guardian) = true
  signature : isHex 130 (toLowerCase success.signature) = true
  payloadHash : isHex 64 (toLowerCase success.payloadHash) = true
  signedAt : RFC3339_UTC_RE success.signedAt = true
  checks : ∀ entry ∈ success.checks, entry.Wire

theorem zHexResponse_eq_some {n : ℕ} {j : Json} {t : String} : zHexResponse n j = some t ↔
    ∃ s, j = .str s ∧ t = toLowerCase s ∧ isHex n t = true := by
  rw [zHexResponse]
  cases j with
  | str s =>
    show (if isHex n (toLowerCase s) = true then some (toLowerCase s) else none) = some t ↔ _
    constructor
    · intro h
      split at h
      · rename_i hhex
        obtain rfl := Option.some.inj h
        exact ⟨s, rfl, rfl, hhex⟩
      · cases h
    · intro h
      obtain ⟨s', hs, rfl, hhex⟩ := h
      cases hs
      rw [if_pos hhex]
  | _ =>
    refine iff_of_false (fun h => by cases h) fun h => ?_
    obtain ⟨s, hs, -⟩ := h
    cases hs

theorem zSigningSuccessFields_wire {j : Json} {success : SigningSuccess}
    (h : zSigningSuccessFields j = some success) :
    success.Wire ∧ success.lowered = success := by
  simp only [zSigningSuccessFields, Option.bind_eq_bind, Option.bind_eq_some_iff] at h
  obtain ⟨guardian, ⟨_, -, hguardian⟩, signature, ⟨_, -, hsignature⟩, payloadHash, ⟨_, -, hhash⟩,
    signedAt, ⟨_, -, hsignedAt⟩, checks, ⟨_, -, hchecks⟩, heq⟩ := h
  cases heq
  obtain ⟨g, -, rfl, hguardian⟩ := zHexResponse_eq_some.mp hguardian
  obtain ⟨s, -, rfl, hsignature⟩ := zHexResponse_eq_some.mp hsignature
  obtain ⟨p, -, rfl, hhash⟩ := zHexResponse_eq_some.mp hhash
  refine ⟨⟨?_, ?_, ?_, (Json.stringWhere?_eq_some.mp hsignedAt).2, zChecks_wire hchecks⟩, ?_⟩
  · rw [toLowerCase_idem]
    exact hguardian
  · rw [toLowerCase_idem]
    exact hsignature
  · rw [toLowerCase_idem]
    exact hhash
  · simp [SigningSuccess.lowered]

theorem zHexResponse_text {n : ℕ} {s t : String} :
    zHexResponse n (.str s) = some t ↔ isHex n (toLowerCase s) = true ∧ t = toLowerCase s := by
  rw [zHexResponse_eq_some]
  constructor
  · intro h
    obtain ⟨s', hs, rfl, hhex⟩ := h
    cases hs
    exact ⟨hhex, rfl⟩
  · intro h
    obtain ⟨hhex, rfl⟩ := h
    exact ⟨s, rfl, rfl, hhex⟩

theorem zSigningSuccessFields_fields {success read : SigningSuccess} (rest : List (String × Json)) :
    zSigningSuccessFields (.obj (success.fields ++ rest)) = some read ↔
      success.Wire ∧ read = success.lowered := by
  change (zHexResponse 40 (.str success.guardian)).bind (fun guardian =>
    (zHexResponse 130 (.str success.signature)).bind fun signature =>
    (zHexResponse 64 (.str success.payloadHash)).bind fun payloadHash =>
    (zRfc3339Utc (.str success.signedAt)).bind fun signedAt =>
    (zChecks (.arr (success.checks.map CheckEntry.toJson))).bind fun checks =>
      some (SigningSuccess.mk guardian signature payloadHash signedAt checks)) = _ ↔ _
  simp only [Option.bind_eq_some_iff, zHexResponse_text, zChecks_toJson, zRfc3339Utc,
    Json.stringWhere?_eq_some]
  constructor
  · intro h
    obtain ⟨_, ⟨hguardian, rfl⟩, _, ⟨hsignature, rfl⟩, _, ⟨hhash, rfl⟩, _, ⟨hsignedAt, hrfc⟩, _,
      ⟨hchecks, rfl⟩, heq⟩ := h
    cases hsignedAt
    exact ⟨⟨hguardian, hsignature, hhash, hrfc, hchecks⟩, (Option.some.inj heq).symm⟩
  · intro h
    obtain ⟨hwire, rfl⟩ := h
    exact ⟨_, ⟨hwire.guardian, rfl⟩, _, ⟨hwire.signature, rfl⟩, _, ⟨hwire.payloadHash, rfl⟩, _,
      ⟨rfl, hwire.signedAt⟩, _, ⟨hwire.checks, rfl⟩, rfl⟩

theorem zSigningSuccess_toJson {success read : SigningSuccess} :
    zSigningSuccess success.toJson = some read ↔ success.Wire ∧ read = success.lowered :=
  zSigningSuccessFields_fields []

theorem zSigningSuccess_idem {j : Json} {success : SigningSuccess}
    (h : zSigningSuccess j = some success) : zSigningSuccess success.toJson = some success := by
  obtain ⟨_, -, hfields⟩ := Option.bind_eq_some_iff.mp h
  obtain ⟨hwire, hlowered⟩ := zSigningSuccessFields_wire hfields
  exact zSigningSuccess_toJson.mpr ⟨hwire, hlowered.symm⟩

structure RequestWhitelistingResponse.Wire (response : RequestWhitelistingResponse) : Prop where
  success : response.toSigningSuccess.Wire
  address : isHex 40 (toLowerCase response.address) = true
  nonce : zUintStringBelowMax response.nonce = true

def RequestWhitelistingResponse.lowered (response : RequestWhitelistingResponse) :
    RequestWhitelistingResponse :=
  ⟨response.toSigningSuccess.lowered, toLowerCase response.address, response.nonce⟩

theorem zRequestWhitelistingResponse_toJson {response read : RequestWhitelistingResponse} :
    zRequestWhitelistingResponse response.toJson = some read ↔
      response.Wire ∧ read = response.lowered := by
  change (zSigningSuccessFields (.obj (response.fields ++ [("address", .str response.address),
    ("nonce", .str response.nonce)]))).bind (fun success =>
      (zHexResponse 40 (.str response.address)).bind fun address =>
      (Json.stringWhere? zUintStringBelowMax (.str response.nonce)).bind fun nonce =>
        some (RequestWhitelistingResponse.mk success address nonce)) = _ ↔ _
  simp only [Option.bind_eq_some_iff, zSigningSuccessFields_fields, zHexResponse_text,
    Json.stringWhere?_eq_some]
  constructor
  · intro h
    obtain ⟨_, ⟨hsuccess, rfl⟩, _, ⟨haddress, rfl⟩, _, ⟨hnonce, hbelow⟩, heq⟩ := h
    cases hnonce
    exact ⟨⟨hsuccess, haddress, hbelow⟩, (Option.some.inj heq).symm⟩
  · intro h
    obtain ⟨hwire, rfl⟩ := h
    exact ⟨_, ⟨hwire.success, rfl⟩, _, ⟨hwire.address, rfl⟩, _, ⟨rfl, hwire.nonce⟩, rfl⟩

theorem zRequestWhitelistingResponse_idem {j : Json} {response : RequestWhitelistingResponse}
    (h : zRequestWhitelistingResponse j = some response) :
    zRequestWhitelistingResponse response.toJson = some response := by
  simp only [zRequestWhitelistingResponse, Option.bind_eq_bind, Option.bind_eq_some_iff] at h
  obtain ⟨_, -, success, hsuccess, address, ⟨_, -, haddress⟩, nonce, ⟨_, -, hnonce⟩, heq⟩ := h
  cases heq
  obtain ⟨hwire, hlowered⟩ := zSigningSuccessFields_wire hsuccess
  obtain ⟨a, -, rfl, haddress⟩ := zHexResponse_eq_some.mp haddress
  have haddress' : isHex 40 (toLowerCase (toLowerCase a)) = true := by
    rw [toLowerCase_idem]
    exact haddress
  refine zRequestWhitelistingResponse_toJson.mpr
    ⟨⟨hwire, haddress', (Json.stringWhere?_eq_some.mp hnonce).2⟩, ?_⟩
  simp [RequestWhitelistingResponse.lowered, hlowered]

end Guardian
