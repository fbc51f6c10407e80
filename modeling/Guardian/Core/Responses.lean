import Guardian.Core.Schemas
import Guardian.Core.SignRunners

/-!
# The response schemas

What a signing call may answer with. The hex primitives lower-case before they
test the pattern, so a parsed response is in lower case throughout.
-/

namespace Guardian
open Text

def zHexResponse (n : ℕ) (j : Json) : Option String :=
  (j.string?.map toLowerCase).bind fun s => if isHex n s = true then some s else none

def zAddressResponse : Json → Option Address := zHexResponse 40
def zHash32Response : Json → Option String := zHexResponse 64
def zSignatureResponse : Json → Option String := zHexResponse 130

/-- `\d{n}` followed by `rest`. -/
def digitsThen (n : ℕ) (rest : List Char → Bool) (cs : List Char) : Bool :=
  decide ((cs.take n).length = n) && (cs.take n).all isDigit && rest (cs.drop n)

def charThen (c : Char) (rest : List Char → Bool) : List Char → Bool
  | [] => false
  | d :: cs => decide (d = c) && rest cs

/-- `(\.\d+)?Z$`. -/
def fractionZ (cs : List Char) : Bool :=
  match cs with
  | '.' :: ds => !(ds.takeWhile isDigit).isEmpty && decide (ds.dropWhile isDigit = ['Z'])
  | _ => decide (cs = ['Z'])

/-- `^\d{4}-\d{2}-\d{2}T\d{2}:\d{2}:\d{2}(\.\d+)?Z$`. -/
def RFC3339_UTC_RE (s : String) : Bool :=
  digitsThen 4 (charThen '-' (digitsThen 2 (charThen '-' (digitsThen 2 (charThen 'T'
    (digitsThen 2 (charThen ':' (digitsThen 2 (charThen ':' (digitsThen 2 fractionZ))))))))))
    s.toList

example : RFC3339_UTC_RE "2024-02-28T23:59:59.999Z" = true := by decide
example : RFC3339_UTC_RE "2024-02-28T23:59:59.Z" = false := by decide

def zRfc3339Utc : Json → Option String := Json.stringWhere? RFC3339_UTC_RE

def zNonEmpty : Json → Option String := Json.stringWhere? fun s => decide (s ≠ "")

def zBoolean : Json → Option Bool
  | .bool b => some b
  | _ => none

/-- An absent key, or a value that `schema` accepts. -/
def zOptional {α : Type} (schema : Json → Option α) : Option Json → Option (Option α)
  | none => some none
  | some j => (schema j).map some

def zCheckEntry (j : Json) : Option CheckEntry := do
  guard (j.isStrictObject ["description", "passed", "skipped", "reason"])
  let description ← (j.get? "description").bind zNonEmpty
  let passed ← (j.get? "passed").bind zBoolean
  let skipped ← (j.get? "skipped").bind zBoolean
  let reason ← zOptional zNonEmpty (j.get? "reason")
  return ⟨description, passed, skipped, reason⟩

def zChecks (j : Json) : Option (List CheckEntry) :=
  j.array?.bind fun items => items.mapM zCheckEntry

def zSigningSuccessFields (j : Json) : Option SigningSuccess := do
  let guardian ← (j.get? "guardian").bind zAddressResponse
  let signature ← (j.get? "signature").bind zSignatureResponse
  let payloadHash ← (j.get? "payloadHash").bind zHash32Response
  let signedAt ← (j.get? "signedAt").bind zRfc3339Utc
  let checks ← (j.get? "checks").bind zChecks
  return ⟨guardian, signature, payloadHash, signedAt, checks⟩

def zSigningSuccess (j : Json) : Option SigningSuccess := do
  guard (j.isStrictObject ["guardian", "signature", "payloadHash", "signedAt", "checks"])
  zSigningSuccessFields j

def zRequestWhitelistingResponse (j : Json) : Option RequestWhitelistingResponse := do
  guard (j.isStrictObject
    ["guardian", "signature", "payloadHash", "signedAt", "checks", "address", "nonce"])
  let success ← zSigningSuccessFields j
  let address ← (j.get? "address").bind zAddressResponse
  let nonce ← (j.get? "nonce").bind (Json.stringWhere? zUintStringBelowMax)
  return ⟨success, address, nonce⟩

end Guardian
