import Guardian.Lib.NumberText
import Guardian.Server.Errors
import Guardian.Server.Hmac

/-!
# Body capture

The chunks of a request body are counted against a cap and joined, and the joined bytes are
both what is kept for the signature and what is decoded.
-/

namespace Guardian
open Double Text

def DEFAULT_MAX_BODY_BYTES : ℕ := 1048576

def payloadTooLarge (maxBodyBytes : ℕ) : ThrownValue :=
  .tagged (.payloadTooLarge s!"Request body exceeds the {maxBodyBytes}-byte limit.")

/-- The reader when the loop ends: what is kept, counted and left in the stream. -/
structure BodyReading where
  chunks : List Bytes
  received : ℕ
  unread : List Bytes
  cancelled : Bool

def readLoop (maxBodyBytes : ℕ) (chunks : List Bytes) (received : ℕ) : List Bytes → BodyReading
  | [] => ⟨chunks, received, [], false⟩
  | value :: stream =>
    let received := received + value.length
    if maxBodyBytes < received then ⟨chunks, received, stream, true⟩
    else readLoop maxBodyBytes (chunks ++ [value]) received stream

/-- `Uint8Array.set`, with a RangeError for what does not fit. -/
def setAt (out chunk : Bytes) (offset : ℕ) : Except ThrownValue Bytes :=
  if offset + chunk.length ≤ out.length then
    .ok (out.take offset ++ chunk ++ out.drop (offset + chunk.length))
  else .error .other

def copyChunks (out : Bytes) (offset : ℕ) : List Bytes → Except ThrownValue Bytes
  | [] => .ok out
  | chunk :: chunks => do
    let out ← setAt out chunk offset
    copyChunks out (offset + chunk.length) chunks

def BodyReading.join (reading : BodyReading) : Except ThrownValue Bytes :=
  match reading.chunks with
  | [chunk] => .ok chunk
  | chunks => copyChunks (List.replicate reading.received 0) 0 chunks

/-- A body of null has no stream. -/
def readBodyCapped (maxBodyBytes : ℕ) :
    Option (List Bytes) → Except ThrownValue Bytes × Option BodyReading
  | none => (.ok [], none)
  | some stream =>
    let reading := readLoop maxBodyBytes [] 0 stream
    (if reading.cancelled then .error (payloadTooLarge maxBodyBytes) else reading.join,
      some reading)

structure BodyRequest where
  method : String
  contentType : String
  contentLength : Option String
  stream : Option (List Bytes)

inductive ParsedBody where
  | json (value : Json)
  | text (s : String)

structure TextCodec where
  decode : Bytes → String
  parse : String → Except ThrownValue Json

/-- What the hook returns or throws, stores for the request and does to its stream. -/
structure ParseOutcome where
  body : Except ThrownValue (Option ParsedBody)
  stored : Option Bytes
  reading : Option BodyReading

def ParseOutcome.rawBody (outcome : ParseOutcome) : Bytes := outcome.stored.getD []

def checkMaxBodyBytes (maxBodyBytes : JsNumber) : Except Thrown ℕ :=
  let rejected : Except Thrown ℕ :=
    .error ⟨s!"guardian: maxBodyBytes must be a positive integer, got {maxBodyBytes.text}"⟩
  match maxBodyBytes with
  | .finite q => if q.den = 1 ∧ q ≤ 2 ^ 53 - 1 ∧ 0 < q then .ok q.num.toNat else rejected
  | _ => rejected

namespace BodyRequest
variable (request : BodyRequest)

def mediaType : String :=
  toLowerCase (String.ofList (trim (request.contentType.toList.takeWhile (· ≠ ';'))))

def isJson : Bool := decide (request.mediaType = "application/json")

def isText : Bool := "text/".toList.isPrefixOf request.mediaType.toList

def declaredTooLarge (maxBodyBytes : ℕ) : Bool :=
  match number (request.contentLength.getD "") with
  | .finite declared => decide ((maxBodyBytes : ℚ) < declared)
  | _ => false

end BodyRequest

def decodeBody (codec : TextCodec) (isJson : Bool) (bytes : Bytes) :
    Except ThrownValue ParsedBody :=
  if isJson then
    if bytes.length = 0 then .ok (.json (.obj []))
    else (codec.parse (codec.decode bytes)).map .json
  else .ok (.text (codec.decode bytes))

def onParse (codec : TextCodec) (maxBodyBytes : ℕ) (request : BodyRequest) : ParseOutcome :=
  if request.method = "GET" ∨ request.method = "HEAD" then ⟨.ok none, some [], none⟩
  else if !request.isJson && !request.isText then ⟨.ok none, none, none⟩
  else if request.declaredTooLarge maxBodyBytes then
    ⟨.error (payloadTooLarge maxBodyBytes), none, none⟩
  else
    match readBodyCapped maxBodyBytes request.stream with
    | (.error thrown, reading) => ⟨.error thrown, none, reading⟩
    | (.ok bytes, reading) =>
      ⟨(decodeBody codec request.isJson bytes).map some, some bytes, reading⟩

theorem copyChunks_eq (done : Bytes) (chunks : List Bytes) (blank : Bytes)
    (hroom : blank.length = chunks.flatten.length) :
    copyChunks (done ++ blank) done.length chunks = .ok (done ++ chunks.flatten) := by
  induction chunks generalizing done blank with
  | nil =>
    obtain rfl := List.length_eq_zero_iff.mp hroom
    rfl
  | cons chunk chunks ih =>
    rw [List.flatten_cons, List.length_append] at hroom
    have hset : setAt (done ++ blank) chunk done.length =
        .ok ((done ++ chunk) ++ blank.drop chunk.length) := by
      have hfits : done.length + chunk.length ≤ (done ++ blank).length := by
        rw [List.length_append]
        omega
      rw [setAt, if_pos hfits, List.take_left, List.drop_append, List.drop_eq_nil_of_le (by omega)]
      simp
    have hrest := ih (done ++ chunk) (blank.drop chunk.length) (by
      rw [List.length_drop]
      omega)
    rw [List.length_append] at hrest
    rw [copyChunks, hset]
    show copyChunks _ _ chunks = _
    rw [hrest, List.flatten_cons, List.append_assoc]

/-- The loop keeps a prefix of the stream that fits, and stops at the first chunk that
does not. -/
theorem readLoop_spec (maxBodyBytes : ℕ) (kept stream : List Bytes)
    (hkept : kept.flatten.length ≤ maxBodyBytes) :
    let reading := readLoop maxBodyBytes kept kept.flatten.length stream
    reading.chunks.flatten.length ≤ maxBodyBytes ∧
      (if reading.cancelled then
        maxBodyBytes < (kept ++ stream).flatten.length
      else reading.chunks = kept ++ stream ∧ reading.received = reading.chunks.flatten.length) := by
  induction stream generalizing kept with
  | nil => exact ⟨hkept, by rw [List.append_nil]; exact ⟨rfl, rfl⟩⟩
  | cons value stream ih =>
    intro reading
    by_cases hover : maxBodyBytes < kept.flatten.length + value.length
    · have hreading : reading = ⟨kept, kept.flatten.length + value.length, stream, true⟩ := by
        simp only [reading, readLoop, if_pos hover]
      rw [hreading]
      refine ⟨hkept, ?_⟩
      rw [if_pos rfl, List.flatten_append, List.flatten_cons, List.length_append,
        List.length_append]
      omega
    · have hlength : (kept ++ [value]).flatten.length = kept.flatten.length + value.length := by
        simp
      have hrest := ih (kept ++ [value]) (by omega)
      rw [hlength, List.append_assoc] at hrest
      have hreading : reading =
          readLoop maxBodyBytes (kept ++ [value]) (kept.flatten.length + value.length) stream := by
        simp only [reading, readLoop, if_neg hover]
      rw [hreading]
      exact hrest

theorem readBodyCapped_eq (maxBodyBytes : ℕ) (stream : List Bytes) :
    (readBodyCapped maxBodyBytes (some stream)).1 =
      if stream.flatten.length ≤ maxBodyBytes then .ok stream.flatten
      else .error (payloadTooLarge maxBodyBytes) := by
  have hspec := readLoop_spec maxBodyBytes [] stream (Nat.zero_le _)
  rw [readBodyCapped]
  change (if (readLoop maxBodyBytes [] 0 stream).cancelled then _ else _) = _
  dsimp only [List.flatten_nil, List.length_nil, List.nil_append] at hspec
  generalize readLoop maxBodyBytes [] 0 stream = reading at hspec ⊢
  obtain ⟨hfits, hrest⟩ := hspec
  cases hcancelled : reading.cancelled with
  | true =>
    rw [hcancelled, if_pos rfl] at hrest
    rw [if_pos rfl, if_neg (not_le.mpr hrest)]
  | false =>
    rw [hcancelled, if_neg Bool.false_ne_true] at hrest
    obtain ⟨hchunks, hreceived⟩ := hrest
    rw [hchunks] at hfits hreceived
    rw [if_neg Bool.false_ne_true, if_pos hfits, BodyReading.join, hchunks, hreceived]
    match stream with
    | [chunk] => simp
    | [] => rfl
    | chunk :: chunk' :: rest =>
      exact copyChunks_eq [] (chunk :: chunk' :: rest) _ (List.length_replicate ..)

namespace BodyRequest
variable {request : BodyRequest} {maxBodyBytes : ℕ}

def bytes (request : BodyRequest) : Bytes := (request.stream.getD []).flatten

def Captured (request : BodyRequest) : Prop :=
  ¬(request.method = "GET" ∨ request.method = "HEAD") ∧
    (request.isJson = true ∨ request.isText = true)

/-- A content length is a string of digits. -/
def declaredLength (request : BodyRequest) : Option ℕ :=
  request.contentLength.bind fun header =>
    if header ≠ "" ∧ header.toList.all isDigit then some (decimalValue header.toList) else none

theorem maxBodyBytes_range {n : JsNumber} (h : checkMaxBodyBytes n = .ok maxBodyBytes) :
    1 ≤ maxBodyBytes ∧ maxBodyBytes < 2 ^ 53 := by
  unfold checkMaxBodyBytes at h
  dsimp only at h
  split at h
  · rename_i q
    split at h
    · rename_i hsafe
      obtain ⟨hint, hle, hpos⟩ := hsafe
      cases h
      have hq : (q.num : ℚ) = q := Rat.coe_int_num_of_den_eq_one hint
      rw [← hq] at hle hpos
      have hle' : q.num ≤ 2 ^ 53 - 1 := by exact_mod_cast hle
      have hpos' : 0 < q.num := by exact_mod_cast hpos
      omega
    · cases h
  · cases h

theorem declaredTooLarge_iff (hmax : maxBodyBytes < 2 ^ 53) {declared : ℕ}
    (h : request.declaredLength = some declared) :
    request.declaredTooLarge maxBodyBytes = true ↔
      maxBodyBytes < declared ∧ (declared : ℚ) < 2 ^ 1024 - 2 ^ 970 := by
  obtain ⟨header, hheader, hdigits⟩ := Option.bind_eq_some_iff.mp h
  obtain ⟨⟨hne, hall⟩, hvalue⟩ := Option.ite_none_right_eq_some.mp hdigits
  obtain rfl := Option.some.inj hvalue
  rw [declaredTooLarge, hheader, Option.getD_some, number_digits hne (List.all_eq_true.mp hall),
    ofRat, ← nearest_lt_iff]
  generalize decimalValue header.toList = declared
  split
  · rename_i q hfinite
    split at hfinite
    · rename_i hround
      cases hfinite
      rw [decide_eq_true_iff, and_iff_left hround]
      rcases Nat.lt_or_ge (2 ^ 53) declared with hlarge | hsmall
      · have hle := le_nearest hlarge.le
        have hcast : (maxBodyBytes : ℚ) < 2 ^ 53 := by exact_mod_cast hmax
        exact iff_of_true (hcast.trans_le hle) (hmax.trans hlarge)
      · rw [nearest_natCast hsmall]
        exact Nat.cast_lt
    · cases hfinite
  · rename_i hinfinite
    split at hinfinite
    · exact absurd rfl (hinfinite _)
    · rename_i hround
      exact iff_of_false Bool.false_ne_true fun hboth => hround hboth.2

theorem onParse_captured (codec : TextCodec) (hcaptured : request.Captured) :
    onParse codec maxBodyBytes request =
      if request.declaredTooLarge maxBodyBytes then
        ⟨.error (payloadTooLarge maxBodyBytes), none, none⟩
      else
        match readBodyCapped maxBodyBytes request.stream with
        | (.error thrown, reading) => ⟨.error thrown, none, reading⟩
        | (.ok bytes, reading) =>
          ⟨(decodeBody codec request.isJson bytes).map some, some bytes, reading⟩ := by
  have hmedia : (!request.isJson && !request.isText) = false := by
    rcases hcaptured.2 with h | h <;> simp [h]
  rw [onParse, if_neg hcaptured.1, hmedia]
  rfl

theorem readBodyCapped_bytes (request : BodyRequest) (maxBodyBytes : ℕ) :
    (readBodyCapped maxBodyBytes request.stream).1 =
      if request.bytes.length ≤ maxBodyBytes then .ok request.bytes
      else .error (payloadTooLarge maxBodyBytes) := by
  unfold bytes
  cases request.stream with
  | none => exact (if_pos (Nat.zero_le _)).symm
  | some stream => exact readBodyCapped_eq maxBodyBytes stream

/-! What the hook does with a captured request, by the two checks. -/

section Cases
variable (codec : TextCodec) (hcaptured : request.Captured)
include hcaptured

theorem onParse_refused (hlarge : request.declaredTooLarge maxBodyBytes = true) :
    onParse codec maxBodyBytes request = ⟨.error (payloadTooLarge maxBodyBytes), none, none⟩ := by
  rw [onParse_captured codec hcaptured, if_pos hlarge]

theorem onParse_over (hlarge : ¬request.declaredTooLarge maxBodyBytes = true)
    (hover : ¬request.bytes.length ≤ maxBodyBytes) :
    onParse codec maxBodyBytes request = ⟨.error (payloadTooLarge maxBodyBytes), none,
      (readBodyCapped maxBodyBytes request.stream).2⟩ := by
  have hread := readBodyCapped_bytes request maxBodyBytes
  rw [if_neg hover] at hread
  rw [onParse_captured codec hcaptured, if_neg hlarge, ← Prod.mk.eta (p := readBodyCapped _ _),
    hread]

theorem onParse_fits (hlarge : ¬request.declaredTooLarge maxBodyBytes = true)
    (hfits : request.bytes.length ≤ maxBodyBytes) :
    onParse codec maxBodyBytes request =
      ⟨(decodeBody codec request.isJson request.bytes).map some, some request.bytes,
        (readBodyCapped maxBodyBytes request.stream).2⟩ := by
  have hread := readBodyCapped_bytes request maxBodyBytes
  rw [if_pos hfits] at hread
  rw [onParse_captured codec hcaptured, if_neg hlarge, ← Prod.mk.eta (p := readBodyCapped _ _),
    hread]

theorem captured_or_refused (maxBodyBytes : ℕ) :
    let outcome := onParse codec maxBodyBytes request
    outcome.body = .error (payloadTooLarge maxBodyBytes) ∧ outcome.stored = none ∨
      outcome.stored = some request.bytes ∧
        outcome.body = (decodeBody codec request.isJson request.bytes).map some := by
  intro outcome
  by_cases hlarge : request.declaredTooLarge maxBodyBytes = true
  · have houtcome : outcome = _ := onParse_refused codec hcaptured hlarge
    exact .inl ⟨by rw [houtcome], by rw [houtcome]⟩
  · by_cases hfits : request.bytes.length ≤ maxBodyBytes
    · have houtcome : outcome = _ := onParse_fits codec hcaptured hlarge hfits
      exact .inr ⟨by rw [houtcome], by rw [houtcome]⟩
    · have houtcome : outcome = _ := onParse_over codec hcaptured hlarge hfits
      exact .inl ⟨by rw [houtcome], by rw [houtcome]⟩

theorem onParse_congr {stream : Option (List Bytes)}
    (h : (stream.getD []).flatten = request.bytes) :
    (onParse codec maxBodyBytes { request with stream }).body =
        (onParse codec maxBodyBytes request).body ∧
      (onParse codec maxBodyBytes { request with stream }).stored =
        (onParse codec maxBodyBytes request).stored := by
  have hcaptured' : Captured { request with stream } := hcaptured
  have hbytes : bytes { request with stream } = request.bytes := h
  by_cases hlarge : request.declaredTooLarge maxBodyBytes = true
  · rw [onParse_refused codec hcaptured hlarge, onParse_refused codec hcaptured' hlarge]
    exact ⟨rfl, rfl⟩
  · by_cases hfits : request.bytes.length ≤ maxBodyBytes
    · rw [onParse_fits codec hcaptured hlarge hfits,
        onParse_fits codec hcaptured' hlarge (by rwa [hbytes]), hbytes]
      exact ⟨rfl, rfl⟩
    · rw [onParse_over codec hcaptured hlarge hfits,
        onParse_over codec hcaptured' hlarge (by rwa [hbytes])]
      exact ⟨rfl, rfl⟩

omit hcaptured in
theorem bytes_of_unread (h : (readBodyCapped maxBodyBytes request.stream).2 = none) :
    request.bytes = [] := by
  unfold bytes
  cases hstream : request.stream with
  | none => rfl
  | some stream =>
    rw [hstream] at h
    cases h

/-- A declared length over the cap is refused at once exactly below the point where it is no
longer a finite number. -/
theorem refused_iff {declared : ℕ} (hmax : maxBodyBytes < 2 ^ 53)
    (hdeclared : request.declaredLength = some declared) (hover : maxBodyBytes < declared) :
    (onParse codec maxBodyBytes request).body = .error (payloadTooLarge maxBodyBytes) ∧
        (onParse codec maxBodyBytes request).reading = none ↔
      (declared : ℚ) < 2 ^ 1024 - 2 ^ 970 := by
  have hfinite := declaredTooLarge_iff hmax hdeclared
  rw [and_iff_right hover] at hfinite
  rw [← hfinite]
  by_cases hlarge : request.declaredTooLarge maxBodyBytes = true
  · rw [onParse_refused codec hcaptured hlarge]
    exact iff_of_true ⟨rfl, rfl⟩ hlarge
  · refine iff_of_false (fun ⟨hbody, hreading⟩ => ?_) hlarge
    -- Only a request without a stream has nothing read, and its empty body is no error.
    by_cases hfits : request.bytes.length ≤ maxBodyBytes
    · rw [onParse_fits codec hcaptured hlarge hfits] at hbody hreading
      rw [bytes_of_unread hreading] at hbody
      unfold decodeBody at hbody
      split at hbody <;> cases hbody
    · rw [onParse_over codec hcaptured hlarge hfits] at hreading
      rw [bytes_of_unread hreading] at hfits
      exact hfits (Nat.zero_le _)

end Cases

end BodyRequest

/-- Capture depends on the bytes alone and is exact; a declared length over the cap is refused
at once as long as it is finite as a number. -/
theorem body_capture_iff (codec : TextCodec) (n : JsNumber) (maxBodyBytes : ℕ)
    (hmax : checkMaxBodyBytes n = .ok maxBodyBytes) (request : BodyRequest)
    (hcaptured : request.Captured) :
    let outcome := onParse codec maxBodyBytes request
    (∀ stream : List Bytes,
      (readBodyCapped maxBodyBytes (some stream)).1 =
        (if stream.flatten.length ≤ maxBodyBytes then .ok stream.flatten
        else .error (payloadTooLarge maxBodyBytes)) ∧
      ∀ reading ∈ (readBodyCapped maxBodyBytes (some stream)).2,
        reading.chunks.flatten.length ≤ maxBodyBytes) ∧
    (outcome.body = .error (payloadTooLarge maxBodyBytes) ∧ outcome.stored = none ∨
      outcome.rawBody = request.bytes ∧ outcome.stored = some outcome.rawBody ∧
        outcome.body = (decodeBody codec request.isJson outcome.rawBody).map some) ∧
    (∀ stream : Option (List Bytes), (stream.getD []).flatten = request.bytes →
      (onParse codec maxBodyBytes { request with stream }).body = outcome.body ∧
        (onParse codec maxBodyBytes { request with stream }).stored = outcome.stored) ∧
    ((∀ declared, request.declaredLength = some declared → maxBodyBytes < declared →
        outcome.body = .error (payloadTooLarge maxBodyBytes) ∧ outcome.reading = none) ↔
      ∀ declared, request.declaredLength = some declared → maxBodyBytes < declared →
        (declared : ℚ) < 2 ^ 1024 - 2 ^ 970) := by
  intro outcome
  refine ⟨fun stream => ⟨readBodyCapped_eq maxBodyBytes stream, fun reading hreading => ?_⟩, ?_,
    fun stream hstream => BodyRequest.onParse_congr codec hcaptured hstream, ?_⟩
  · cases hreading
    exact (readLoop_spec _ _ stream (Nat.zero_le _)).1
  · rcases BodyRequest.captured_or_refused codec hcaptured maxBodyBytes with
      hrefused | ⟨hstored, hbody⟩
    · exact .inl hrefused
    · have hraw : outcome.rawBody = request.bytes := by
        rw [ParseOutcome.rawBody, hstored, Option.getD_some]
      rw [hraw]
      exact .inr ⟨rfl, hstored, hbody⟩
  · have hrange := (BodyRequest.maxBodyBytes_range hmax).2
    exact forall_congr' fun declared => forall_congr' fun hdeclared => forall_congr' fun hover =>
      BodyRequest.refused_iff codec hcaptured hrange hdeclared hover

section Infinite

/-- Decoder and parser as they are on the two bytes of an empty object. -/
def asciiCodec : TextCodec :=
  ⟨fun bytes => String.ofList (bytes.map fun b => Char.ofNat b.toNat), fun _ => .ok (.obj [])⟩

def emptyObject (contentLength : List Char) : BodyRequest :=
  ⟨"POST", "application/json", some (String.ofList contentLength), some [[123, 125]]⟩

def boastful : BodyRequest := emptyObject ('1' :: List.replicate 309 '0')

theorem emptyObject_isJson (contentLength : List Char) :
    (emptyObject contentLength).isJson = true := by
  have hjson : (BodyRequest.mk "POST" "application/json" none none).isJson = true := by
    decide +kernel
  unfold BodyRequest.isJson BodyRequest.mediaType at *
  exact hjson

theorem emptyObject_captured (contentLength : List Char) :
    (emptyObject contentLength).Captured := by
  refine ⟨?_, .inl (emptyObject_isJson contentLength)⟩
  show ¬("POST" = "GET" ∨ "POST" = "HEAD")
  decide

theorem emptyObject_declares {contentLength : List Char} (hne : contentLength ≠ [])
    (h : contentLength.all isDigit = true) :
    (emptyObject contentLength).declaredLength = some (decimalValue contentLength) := by
  have hstring : String.ofList contentLength ≠ "" := fun hempty => hne (by
    rw [← String.toList_ofList (l := contentLength), hempty]
    rfl)
  rw [BodyRequest.declaredLength, emptyObject, Option.bind_some, String.toList_ofList,
    if_pos ⟨hstring, h⟩]

theorem boastful_declares : boastful.declaredLength = some (10 ^ 309) := by
  have hvalue : decimalValue ('1' :: List.replicate 309 '0') = 10 ^ 309 := by decide +kernel
  rw [← hvalue]
  exact emptyObject_declares (List.cons_ne_nil _ _) (by decide +kernel)

theorem infinite_declared : ¬((10 ^ 309 : ℕ) : ℚ) < 2 ^ 1024 - 2 ^ 970 := by
  have hnat : 2 ^ 1024 ≤ 10 ^ 309 := by decide +kernel
  have hcast : (2 : ℚ) ^ 1024 ≤ ((10 ^ 309 : ℕ) : ℚ) := by
    have hle : ((2 ^ 1024 : ℕ) : ℚ) ≤ ((10 ^ 309 : ℕ) : ℚ) := Nat.cast_le.mpr hnat
    rwa [Nat.cast_pow, Nat.cast_ofNat] at hle
  have hpos : (0 : ℚ) < 2 ^ 970 := pow_pos two_pos 970
  generalize (2 : ℚ) ^ 1024 = top, (2 : ℚ) ^ 970 = gap, ((10 ^ 309 : ℕ) : ℚ) = declared at *
  linarith

/-- A body that declares 10^309 bytes is read and parsed. -/
theorem boastful_read : boastful.declaredLength = some (10 ^ 309) ∧
    DEFAULT_MAX_BODY_BYTES < 10 ^ 309 ∧
    (onParse asciiCodec DEFAULT_MAX_BODY_BYTES boastful).body = .ok (some (.json (.obj []))) ∧
    (onParse asciiCodec DEFAULT_MAX_BODY_BYTES boastful).reading =
      some ⟨[[123, 125]], 2, [], false⟩ := by
  have hpassed : ¬boastful.declaredTooLarge DEFAULT_MAX_BODY_BYTES = true := fun hlarge =>
    infinite_declared ((BodyRequest.declaredTooLarge_iff (by decide) boastful_declares).mp hlarge).2
  have hparse : onParse asciiCodec DEFAULT_MAX_BODY_BYTES boastful = _ :=
    BodyRequest.onParse_fits asciiCodec (emptyObject_captured _) hpassed
      (by decide : boastful.bytes.length ≤ DEFAULT_MAX_BODY_BYTES)
  have hjson : boastful.isJson = true := emptyObject_isJson _
  rw [hparse, hjson]
  exact ⟨boastful_declares, by decide +kernel, rfl, rfl⟩

theorem oversized_refused :
    let outcome := onParse asciiCodec DEFAULT_MAX_BODY_BYTES (emptyObject "2000000".toList)
    outcome.body = .error (payloadTooLarge DEFAULT_MAX_BODY_BYTES) ∧ outcome.reading = none := by
  have hdeclared : (emptyObject "2000000".toList).declaredLength = some 2000000 :=
    emptyObject_declares (by decide) (by decide)
  have hfinite : ((2000000 : ℕ) : ℚ) < 2 ^ 1024 - 2 ^ 970 := by
    rw [← nearest_lt_iff, nearest_natCast (by norm_num)]
    calc ((2000000 : ℕ) : ℚ) < 2 ^ 53 := by norm_num
      _ < 2 ^ 1024 := pow_lt_pow_right₀ (by norm_num) (by norm_num)
  refine (body_capture_iff asciiCodec (.finite 1048576) DEFAULT_MAX_BODY_BYTES (by decide +kernel)
    _ (emptyObject_captured _)).2.2.2.mpr (fun declared h _ => ?_) 2000000 hdeclared (by decide)
  rw [hdeclared] at h
  rw [← Option.some.inj h]
  exact hfinite

end Infinite
end Guardian
