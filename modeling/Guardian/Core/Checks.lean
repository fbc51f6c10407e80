import Guardian.Lib.Text

/-!
# Check entries and the errors that carry them

The `checks` array of every response, its three constructors, and the tagged
errors a check runner or a signing call may return. `CheckEntry` is the plain
wire record, so nothing in its type excludes a failed entry without a reason:
`WellFormed` is the schema's condition, proved of every array a runner returns.
-/

namespace Guardian

abbrev Address := String

structure CheckEntry where
  description : String
  passed : Bool
  skipped : Bool
  reason : Option String
  deriving DecidableEq, Repr

def passed (description : String) : CheckEntry := ⟨description, true, false, none⟩

def skipped (description : String) : CheckEntry := ⟨description, true, true, none⟩

def failed (description reason : String) : CheckEntry := ⟨description, false, false, some reason⟩

@[simp] theorem passed_passed (d : String) : (passed d).passed = true := rfl
@[simp] theorem skipped_passed (d : String) : (skipped d).passed = true := rfl
@[simp] theorem failed_passed (d r : String) : (failed d r).passed = false := rfl
@[simp] theorem passed_description (d : String) : (passed d).description = d := rfl
@[simp] theorem skipped_description (d : String) : (skipped d).description = d := rfl
@[simp] theorem failed_description (d r : String) : (failed d r).description = d := rfl

namespace CheckEntry

/-- The rules of the wire schema, with the two that its field docs state in words. -/
structure WellFormed (c : CheckEntry) : Prop where
  description : c.description ≠ ""
  skipped_passed : c.skipped = true → c.passed = true
  failed_reason : c.passed = false → ∃ r, c.reason = some r ∧ r ≠ ""

end CheckEntry

theorem passed_wellFormed {d : String} (h : d ≠ "") : (passed d).WellFormed :=
  ⟨h, fun _ => rfl, fun h => by simp at h⟩

theorem skipped_wellFormed {d : String} (h : d ≠ "") : (skipped d).WellFormed :=
  ⟨h, fun _ => rfl, fun h => by simp at h⟩

theorem failed_wellFormed {d r : String} (h : d ≠ "") (hr : r ≠ "") : (failed d r).WellFormed :=
  ⟨h, fun hs => by simp [failed] at hs, fun _ => ⟨r, rfl, hr⟩⟩

theorem ite_passed {p : Prop} [Decidable p] {d r : String} :
    (if p then passed d else failed d r).passed = decide p := by
  split <;> simp_all

theorem ite_wellFormed {p : Prop} [Decidable p] {d r : String} (h : d ≠ "") (hr : r ≠ "") :
    (if p then passed d else failed d r).WellFormed := by
  split
  · exact passed_wellFormed h
  · exact failed_wellFormed h hr

theorem append_ne_empty {s t : String} (h : s ≠ "") : s ++ t ≠ "" :=
  fun h' => h (String.append_eq_empty_iff.mp h').1

theorem append_ne_empty_right {s t : String} (h : t ≠ "") : s ++ t ≠ "" :=
  fun h' => h (String.append_eq_empty_iff.mp h').2

inductive SigningError where
  | validationFailed (message : String) (checks : List CheckEntry)
  | stateConflict (message : String) (checks : List CheckEntry)
  | notFound (message : String) (chainId : ℕ) (verifyingContract : Address)
  | upstreamUnavailable (message : String) (status : ℕ)
  | internalError (message : String)
  deriving DecidableEq, Repr

/-- What a check runner returns: the entries, or the error that rejects the request. -/
abbrev CheckResult := Except SigningError (List CheckEntry)

structure Thrown where
  message : String
  deriving DecidableEq, Repr

/-- How an awaited `Result` can fail: by value, or by a rejected promise. -/
inductive Failure where
  | err (error : SigningError)
  | thrown (error : Thrown)
  deriving DecidableEq, Repr

abbrev Settled (α : Type) := Except Failure α

def Settled.ofResult {α : Type} : Except SigningError α → Settled α
  | .ok a => .ok a
  | .error e => .error (.err e)

inductive ResultClass where
  | ok
  | validationFailed
  | stateConflict
  | notFound
  | upstreamUnavailable
  | internalError
  | thrown
  deriving DecidableEq, Repr

def Settled.resultClass {α : Type} : Settled α → ResultClass
  | .ok _ => .ok
  | .error (.err (.validationFailed ..)) => .validationFailed
  | .error (.err (.stateConflict ..)) => .stateConflict
  | .error (.err (.notFound ..)) => .notFound
  | .error (.err (.upstreamUnavailable ..)) => .upstreamUnavailable
  | .error (.err (.internalError _)) => .internalError
  | .error (.thrown _) => .thrown

def Settled.checks : Settled (List CheckEntry) → Option (List CheckEntry)
  | .ok checks => some checks
  | .error (.err (.validationFailed _ checks)) => some checks
  | .error (.err (.stateConflict _ checks)) => some checks
  | .error _ => none

inductive SignTypedDataError where
  | internalError (message : String)
  | upstreamUnavailable (message : String) (status : ℕ)
  | thrown (error : Thrown)
  deriving DecidableEq, Repr

def SignTypedDataError.failure : SignTypedDataError → Failure
  | .internalError message => .err (.internalError message)
  | .upstreamUnavailable message status => .err (.upstreamUnavailable message status)
  | .thrown error => .thrown error

end Guardian
