import Guardian.Core.Accepted
import Guardian.Defaults.IntentRequestBindingSound
import Guardian.Defaults.SignAfterChecks

/-!
# A swap has no leg order

The two orders of a swap are run against one client: the same factories answer for
the same assets, only in the other half of the multicall. The position-manager leg
is then the same leg, and so are the entries, the payload and the signature.
-/

namespace Guardian
open Effect Text Program

def IntentSwapBody.swapped (body : IntentSwapBody) : IntentSwapBody :=
  { body with legs := body.legs.reverse }

@[simp] theorem swapped_chainId (body : IntentSwapBody) : body.swapped.chainId = body.chainId := rfl
@[simp] theorem swapped_facility (body : IntentSwapBody) : body.swapped.facility = body.facility :=
  rfl
@[simp] theorem swapped_deadline (body : IntentSwapBody) : body.swapped.deadline = body.deadline :=
  rfl

/-- A deterministic client whose factories answer for themselves. -/
structure SwapClient where
  rpc : (op : Op) → op.Answer
  isPositionManager : ℕ → Address → Address → Slot Bool
  answers : ∀ chain calls, rpc (.isPositionManager chain calls) =
    .ok ⟨calls.map fun call => isPositionManager chain call.1 call.2, by simp⟩

theorem deterministicFailures_append (xs ys : List (Slot Bool)) :
    deterministicFailures (xs ++ ys) =
      (deterministicFailures xs).bind fun m => (deterministicFailures ys).map (m + ·) := by
  induction xs with
  | nil => simp [deterministicFailures]
  | cons slot xs ih =>
    cases slot with
    | success result => exact ih
    | failure e =>
      simp only [List.cons_append, deterministicFailures, ih]
      split
      · cases deterministicFailures xs with
        | none => rfl
        | some m => cases deterministicFailures ys <;> simp; omega
      · rfl

theorem deterministicFailures_comm (xs ys : List (Slot Bool)) :
    deterministicFailures (xs ++ ys) = deterministicFailures (ys ++ xs) := by
  rw [deterministicFailures_append, deterministicFailures_append]
  cases deterministicFailures xs <;> cases deterministicFailures ys <;> simp [Nat.add_comm]

def PmLeg.swapped : PmLeg → PmLeg
  | .legA => .legB
  | .legB => .legA
  | decision => decision

theorem resolvePmLeg_swapped {n : ℕ} {xs ys : List (Slot Bool)} (hx : xs.length = n)
    (hy : ys.length = n) :
    resolvePmLeg n (ys ++ xs) = (resolvePmLeg n (xs ++ ys)).swapped := by
  have hxs : (xs ++ ys).take n = xs ∧ (xs ++ ys).drop n = ys := by
    rw [← hx]
    exact ⟨List.take_left, List.drop_left⟩
  have hys : (ys ++ xs).take n = ys ∧ (ys ++ xs).drop n = xs := by
    rw [← hy]
    exact ⟨List.take_left, List.drop_left⟩
  unfold resolvePmLeg
  rw [deterministicFailures_comm ys xs, hxs.1, hxs.2, hys.1, hys.2]
  cases deterministicFailures (xs ++ ys) with
  | none => rfl
  | some failures =>
    cases hits xs <;> cases hits ys <;> simp only [reduceCtorEq, if_true, if_false] <;>
      try rfl
    by_cases hf : failures > 0 <;> simp [hf, PmLeg.swapped]

def SwapClient.slots (client : SwapClient) (chain : ℕ) (factories : List Address)
    (leg : SwapLeg) : List (Slot Bool) :=
  factories.map fun f => client.isPositionManager chain f leg.asset

section Runner
variable (client : SwapClient) (policy : IntentSwapPolicy) (ctx : SigningContext)
  (body : IntentSwapBody) (deadlineCheck : CheckEntry) (legA legB : SwapLeg)

def afterPmLeg : PmLeg → Settled (List CheckEntry)
  | .upstreamFailed => pmFactoryReadFailed
  | .rejected reason => .ofResult (pmLegFailed reason deadlineCheck)
  | .legA => (checkPmLeg policy ctx body.chainId deadlineCheck legA legB).eval client.rpc
  | .legB => (checkPmLeg policy ctx body.chainId deadlineCheck legB legA).eval client.rpc

theorem afterPmLeg_swapped (decision : PmLeg) :
    afterPmLeg client policy ctx body deadlineCheck legB legA decision.swapped =
      afterPmLeg client policy ctx body deadlineCheck legA legB decision := by
  cases decision <;> rfl

theorem resolveLegs_eval :
    (resolveLegs policy ctx body deadlineCheck legA legB).eval client.rpc =
      afterPmLeg client policy ctx body deadlineCheck legA legB
        (resolvePmLeg (policy.acceptedPmFactories.on body.chainId).length
          (client.slots ctx.chainId (policy.acceptedPmFactories.on body.chainId) legA ++
            client.slots ctx.chainId (policy.acceptedPmFactories.on body.chainId) legB)) := by
  unfold resolveLegs
  rw [eval_bind_def, eval_call, client.answers]
  have hslots : (pmCalls (policy.acceptedPmFactories.on body.chainId) legA legB).map
      (fun call => client.isPositionManager ctx.chainId call.1 call.2) =
      client.slots ctx.chainId (policy.acceptedPmFactories.on body.chainId) legA ++
        client.slots ctx.chainId (policy.acceptedPmFactories.on body.chainId) legB := by
    rw [pmCalls, List.map_append, List.map_map, List.map_map]
    rfl
  dsimp only [List.Vector.toList_mk]
  rw [hslots]
  cases resolvePmLeg _ _ <;> rfl

theorem runA3_legs (hlegs : body.legs = [legA, legB]) :
    runA3 policy ctx body =
      if policy.acceptedPmFactories.on body.chainId = [] then
        pure (.ofResult (pmLegFailed "no accepted PM factories configured for this chain"
          (checkDeadline ctx.nowUnixSeconds body.deadline policy.maxDeadlineSecondsAhead)))
      else resolveLegs policy ctx body
        (checkDeadline ctx.nowUnixSeconds body.deadline policy.maxDeadlineSecondsAhead)
        legA legB := by
  unfold runA3
  rw [hlegs]

theorem runA3_swapped (hlegs : body.legs = [legA, legB]) :
    (runA3 policy ctx body.swapped).eval client.rpc = (runA3 policy ctx body).eval client.rpc := by
  have hswapped : body.swapped.legs = [legB, legA] := by
    simp [IntentSwapBody.swapped, hlegs]
  rw [runA3_legs policy ctx _ _ _ hswapped, runA3_legs policy ctx _ _ _ hlegs]
  by_cases hempty : policy.acceptedPmFactories.on body.chainId = []
  · rw [if_pos hempty, if_pos (show policy.acceptedPmFactories.on body.swapped.chainId = [] from
      hempty)]
    rfl
  · have hlength : ∀ leg, (client.slots ctx.chainId
        (policy.acceptedPmFactories.on body.chainId) leg).length =
        (policy.acceptedPmFactories.on body.chainId).length := by
      simp [SwapClient.slots]
    have hdecision := resolvePmLeg_swapped (hlength legA) (hlength legB)
    rw [if_neg hempty, if_neg (show ¬policy.acceptedPmFactories.on body.swapped.chainId = [] from
      hempty), resolveLegs_eval, resolveLegs_eval, ← afterPmLeg_swapped client policy ctx body,
      ← hdecision]
    rfl

end Runner

theorem buildIntentSwapTypedData_swapped {body : IntentSwapBody} {a b : SwapLeg}
    (hlegs : body.legs = [a, b]) (ha : a.Decimal) (hb : b.Decimal)
    (hlowerA : toLowerCase a.asset = a.asset) (hlowerB : toLowerCase b.asset = b.asset)
    (domain : Eip712Domain) :
    buildIntentSwapTypedData domain body.swapped = buildIntentSwapTypedData domain body := by
  have hswapped : body.swapped.legs = [b, a] := by
    simp [IntentSwapBody.swapped, hlegs]
  simp only [buildIntentSwapTypedData, hswapped, hlegs, swapped_facility, swapped_deadline,
    canonicaliseSwapLegs_comm ha hb hlowerA hlowerB]

theorem zIntentSwapBody_legs {j : Json} {body : IntentSwapBody}
    (h : zIntentSwapBody j = some body) :
    ∃ a b, body.legs = [a, b] ∧ a.Decimal ∧ b.Decimal ∧ toLowerCase a.asset = a.asset ∧
      toLowerCase b.asset = b.asset := by
  obtain ⟨raw, hraw, rfl⟩ := Option.map_eq_some_iff.mp h
  obtain ⟨a, b, hlegs, ha, hb⟩ := IntentSwapBody.accept_legs hraw
  exact ⟨a.lowered, b.lowered, by simp [IntentSwapBody.lowered, hlegs], ha, hb,
    toLowerCase_idem _, toLowerCase_idem _⟩

def signedPayloads (tr : List SigningEvent) : List TypedData :=
  tr.filterMap fun e =>
    match e.op with
    | .signTypedData td => some td
    | _ => none

theorem signedPayloads_append (tr tr' : List SigningEvent) :
    signedPayloads (tr ++ tr') = signedPayloads tr ++ signedPayloads tr' :=
  List.filterMap_append

theorem signedPayloads_of_asksNoSignature {tr : List SigningEvent}
    (h : ∀ e ∈ tr, AsksNoSignature e.op) : signedPayloads tr = [] := by
  refine List.filterMap_eq_nil_iff.mpr fun e he => ?_
  have hop := h e he
  revert hop
  cases e.op <;> simp [AsksNoSignature]

theorem runSigner_congr {α : Type} {deps : SignDeps} {ctx : SigningContext}
    {checks checks' : Signing (Settled (List CheckEntry))} {chainId : ℕ}
    {verifyingContract : Address} {build : Eip712Domain → Except Thrown TypedData}
    {respond : SigningSuccess → α} {rpc : (op : Op) → op.Answer}
    (heval : checks'.eval rpc = checks.eval rpc)
    (hchecks : Checks False checks) (hchecks' : Checks False checks') :
    (runSigner deps ctx checks' chainId verifyingContract build respond).eval rpc =
        (runSigner deps ctx checks chainId verifyingContract build respond).eval rpc ∧
      signedPayloads
          ((runSigner deps ctx checks' chainId verifyingContract build respond).trace rpc) =
        signedPayloads
          ((runSigner deps ctx checks chainId verifyingContract build respond).trace rpc) := by
  unfold runSigner
  have hnone : ∀ {p : Signing (Settled (List CheckEntry))}, Checks False p →
      signedPayloads (p.trace rpc) = [] := fun {p} h =>
    signedPayloads_of_asksNoSignature (asksNoSignature_of_runs h (@executes_trace env _ rpc p))
  refine ⟨by rw [eval_bind_def, eval_bind_def, heval], ?_⟩
  rw [bind_def, bind_def, trace_bind, trace_bind, signedPayloads_append, signedPayloads_append,
    hnone hchecks, hnone hchecks', heval]

/-- Both orders of a swap get one answer, and one payload reaches the signer. -/
theorem signIntentSwap_swapped (client : SwapClient) (deps : SignDeps) (ctx : SigningContext)
    (policy : IntentSwapPolicy) (runner : CheckRunner IntentSwapBody)
    (hrunner : buildIntentSwapChecks policy = .ok runner) (j : Json) (body : IntentSwapBody)
    (hbody : zIntentSwapBody j = some body) :
    (makeSignIntentSwap deps runner ctx body.swapped).eval client.rpc =
        (makeSignIntentSwap deps runner ctx body).eval client.rpc ∧
      signedPayloads ((makeSignIntentSwap deps runner ctx body.swapped).trace client.rpc) =
        signedPayloads ((makeSignIntentSwap deps runner ctx body).trace client.rpc) := by
  obtain ⟨a, b, hlegs, ha, hb, hlowerA, hlowerB⟩ := zIntentSwapBody_legs hbody
  have hbuild : (fun domain => buildIntentSwapTypedData domain body.swapped) =
      fun domain => buildIntentSwapTypedData domain body :=
    funext (buildIntentSwapTypedData_swapped hlegs ha hb hlowerA hlowerB)
  have hchecks := intentSwapChecks_checks hrunner ctx
  have heval : (runner ctx body.swapped).eval client.rpc = (runner ctx body).eval client.rpc := by
    unfold buildIntentSwapChecks at hrunner
    split at hrunner
    · cases hrunner
    · cases hrunner
      exact runA3_swapped client policy ctx body a b hlegs
  unfold makeSignIntentSwap
  rw [hbuild, swapped_chainId, swapped_facility]
  exact runSigner_congr heval (hchecks body) (hchecks body.swapped)

namespace Sample

def facilityAddress : Address := "0x00000000000000000000000000000000000000fa"
def shareToken : Address := "0x00000000000000000000000000000000000000a1"
def debtToken : Address := "0x00000000000000000000000000000000000000d2"

def legJson (id asset amount : String) : Json :=
  .obj [("intent", .obj [("id", .str id)]), ("asset", .str asset), ("amount", .str amount)]

def swapJson : Json :=
  .obj [("chainId", .num 1), ("facility", .str facilityAddress),
    ("legs", .arr [legJson "9" shareToken "10", legJson "5" debtToken "20"]),
    ("deadline", .num 1050)]

def swapBody : IntentSwapBody :=
  ⟨1, facilityAddress, [⟨⟨"9"⟩, shareToken, "10"⟩, ⟨⟨"5"⟩, debtToken, "20"⟩], 1050⟩

def swapPolicy : IntentSwapPolicy :=
  ⟨100, fun _ => some ["0xfactory"], fun _ => some ["0xowner"], 1⟩

def swapClient : SwapClient where
  rpc
    | .isPositionManager _ calls =>
      .ok ⟨calls.map fun call => .success (call.2 == shareToken), by simp⟩
    | .positionManagerReads .. => .ok ⟨"0xowner", "0xcollateral", debtToken, 199, 99, 0, 0, 1⟩
    | .eip712Domain .. => .ok ⟨"Facility", "1"⟩
    | .signTypedData td => .ok ("signature of " ++ td.primaryType)
    | op => serve (fun _ => chain) op
  isPositionManager _ _ asset := .success (asset == shareToken)
  answers _ _ := rfl

end Sample

theorem signIntentSwap_swapped_signs : ∃ success,
    (makeSignIntentSwap Sample.signDeps (runA3 Sample.swapPolicy) Sample.signCtx
      Sample.swapBody).eval Sample.swapClient.rpc = .ok success ∧
    (makeSignIntentSwap Sample.signDeps (runA3 Sample.swapPolicy) Sample.signCtx
      Sample.swapBody.swapped).eval Sample.swapClient.rpc = .ok success := by
  have hsame := (signIntentSwap_swapped Sample.swapClient Sample.signDeps Sample.signCtx
    Sample.swapPolicy _ rfl Sample.swapJson Sample.swapBody (by decide +kernel)).1
  have hok : ((makeSignIntentSwap Sample.signDeps (runA3 Sample.swapPolicy) Sample.signCtx
      Sample.swapBody).eval Sample.swapClient.rpc).toOption.isSome := by decide +kernel
  revert hsame hok
  cases (makeSignIntentSwap Sample.signDeps (runA3 Sample.swapPolicy) Sample.signCtx
    Sample.swapBody).eval Sample.swapClient.rpc with
  | error f => exact fun _ hok => by cases hok
  | ok success => exact fun hsame _ => ⟨success, rfl, hsame⟩

end Guardian
