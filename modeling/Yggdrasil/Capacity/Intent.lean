import Yggdrasil.Capacity.Planner
import Yggdrasil.Lib.Run

/-!
# Capacity intents

The durable record of a capacity dimension, and the seven operations that change it. Each is one
transaction under the lock of the scope (`perform`); what it takes from the rest of the database,
the clock and the guards of other subsystems is its environment (`Env`), and is arbitrary at every
call. A call may also be refused or lost (`Step`).
-/

namespace Yggdrasil.Capacity

open Check

/-! ## The record -/

/-- The phases of a generation. `other` is any text that is none of them. -/
inductive Phase
  | hold
  | proposed
  | preparing
  | prepared
  | canary
  | draining
  | drained
  | promoted
  | reconciled
  | reconciledPartial
  | reconciledFailedFloor
  | aborted
  | envelopeApplied
  | nativeCompleted
  | disposedFailedInstalled
  | disposedFailedServing
  | other (name : String)
  deriving DecidableEq

/-- The texts of the phases. -/
def Phase.text : Phase → String
  | hold => "hold"
  | proposed => "proposed"
  | preparing => "preparing"
  | prepared => "prepared"
  | canary => "canary"
  | draining => "draining"
  | drained => "drained"
  | promoted => "promoted"
  | reconciled => "reconciled"
  | reconciledPartial => "reconciled_partial"
  | reconciledFailedFloor => "reconciled_failed_floor"
  | aborted => "aborted"
  | envelopeApplied => "envelope_applied"
  | nativeCompleted => "native_completed"
  | disposedFailedInstalled => "disposed_failed_installed"
  | disposedFailedServing => "disposed_failed_serving"
  | other name => name

/-- The owner of the terminal reconciliation of a failed expansion; `rest` is only compared. -/
structure CapacityFailedExpansionTerminalReconcile where
  runID : String
  executorID : String
  rest : String
  deriving DecidableEq

/-- One durable generation per logical domain and dimension. -/
structure CapacityIntent where
  failedUnwitnessedExpansionCleanupID : String := ""
  failedExpansionTerminalReconcile : Option CapacityFailedExpansionTerminalReconcile := none
  ns : String
  policyName : String
  policyID : String
  policyChecksum : String
  environment : String
  domain : String
  dimension : String
  generation : ℤ
  fencingToken : ℤ
  phase : Phase
  leaseOwner : String := ""
  leaseExecutorID : String := ""
  leaseExpiresAt : Option ℤ := none
  recoveryOnly : Bool := false
  floorDegraded : Bool := false
  baselineSnapshot : CapacitySnapshot := ⟨"", "", "", "", "", "", "", 0, 0⟩
  decision : CapacityDecision
  assessment : CapacityAssessment
  updatedAt : ℤ

/-- A receipt of the policy's protected workflow. -/
structure CapacityTransitionProof where
  assessment : CapacityAssessment
  observedAt : ℤ
  receiptRef : String
  healthy : Bool
  inflight : Option ℤ
  mutationInflight : Option ℤ := none
  providerFencingToken : ℤ := 0
  noMutationVerified : Bool := false
  mutationAuthorityKind : String := ""
  membershipComplete : Bool := false
  deriving DecidableEq

/-- A policy as it is stored; `spec` is what its text decodes to. -/
structure Manifest where
  kind : String
  id : String
  ns : String
  name : String
  checksum : String
  spec : Option CapacityPolicySpec
  deriving DecidableEq

/-- What a caller's store is configured with. -/
structure CapacityStore where
  executionEnabled : Bool
  executorID : String
  workflowID : String
  originalRunID : String
  failedExpansionOwner : Bool
  failedExpansionTerminalReconcile : Option CapacityFailedExpansionTerminalReconcile
  deriving DecidableEq

/-- How an operation on the intent is refused. -/
inductive CapacityError
  | conflict (detail : String)
  | lease
  | disabled
  | authorization
  | invalid (text : String)

/-- What the mutation ledger of the scope says when a generation is closed. -/
structure Ledger where
  unresolved : ℕ
  live : ℤ
  fresh : ℤ
  matchingProfile : ℤ
  ensured : ℕ
  mutations : ℕ
  deriving DecidableEq

/-- What a transaction finds around the record: the time, a new owner, the policy, the workflow, the
    ledger, and the objections of other guards before and after. -/
structure Env where
  now : ℤ
  newOwner : String
  stored : Option (String × Bool)
  workflowActive : Option Bool
  ledger : Ledger
  refusesBefore : Option String
  refusesAfter : Option String
  deriving DecidableEq

/-- The largest integer that a float64 has exactly. -/
def maxCapacityGeneration : ℤ := 9007199254740991

/-- The phases that block a new proposal. -/
def pendingCapacityPhase : Phase → Bool
  | .disposedFailedServing | .disposedFailedInstalled | .envelopeApplied | .nativeCompleted
  | .hold | .promoted | .reconciled | .reconciledPartial | .reconciledFailedFloor
  | .aborted => false
  | _ => true

/-- The phases that need the ledger to be settled. -/
def terminalCapacityPhase : Phase → Bool
  | .promoted | .reconciled | .reconciledPartial | .reconciledFailedFloor | .aborted => true
  | _ => false

/-- The phases that follow each other. -/
def capacityTransitionAllowed : Phase → Phase → Bool
  | .preparing, .prepared | .prepared, .canary | .canary, .promoted | .draining, .drained
  | .drained, .promoted => true
  | _, _ => false

/-- The snapshots are of the same resource. -/
def sameCapacityResourceIdentity (a b : CapacitySnapshot) : Bool :=
  a.targetIdentity == b.targetIdentity && a.resourceUID == b.resourceUID &&
    a.workloadUID == b.workloadUID && a.owner == b.owner

/-- They are also of the same version of its workload. -/
def sameCapacityResources (a b : CapacitySnapshot) : Bool :=
  sameCapacityResourceIdentity a b && a.workloadResourceVersion == b.workloadResourceVersion

/-- The intent takes units away. -/
def capacityIntentReduction (intent : CapacityIntent) : Bool :=
  intent.decision.action == .drain || intent.decision.units < intent.baselineSnapshot.units

/-- The id of an executor, which is not the nil one. -/
def validCapacityExecutor (ext : External) (id : String) : Bool :=
  (ext.parseUUID id).any (· != nilUUID)

/-- The profile of a decision can still be planned with. -/
def capacityProfileCurrent (p : CapacityPolicySpec) (d : CapacityDecision) (now : ℤ) : Bool :=
  p.profiles.any fun profile => profile.name == d.profile && profile.minUnits ≤ d.units &&
    d.units ≤ profile.maxUnits && profilePlanningCurrent p profile now

/-- The baseline is a complete snapshot of the resource that was assessed. -/
def validCapacityBaseline (p : CapacityPolicySpec) (intent : CapacityIntent) : Bool :=
  let baseline := intent.baselineSnapshot
  baseline.observedAt != 0 && baseline.workloadResourceVersion != "" &&
    baseline.resourceVersion != "" && baseline.resourceUID != "" && baseline.workloadUID != "" &&
    baseline.targetIdentity == p.targetIdentity && baseline.owner == p.owner &&
    0 ≤ baseline.units && baseline.units ≤ p.ceiling &&
    sameCapacityResourceIdentity baseline intent.assessment.snapshot &&
    knownProfile p baseline.profile

/-- An error of the planner's checks, as an error of the store. -/
def checked {α : Type} : Except String α → Except CapacityError α
  | .ok x => .ok x
  | .error text => .error (.invalid text)

@[simp]
theorem checked_eq_ok {α : Type} {e : Except String α} {x : α} : checked e = .ok x ↔ e = .ok x := by
  cases e <;> simp [checked]

/-! ## Lease checks -/

section Operations

variable (ext : External) (store : CapacityStore) (policy : Manifest) (p : CapacityPolicySpec)
  (env : Env)

/-- The lease of a normal generation. -/
def checkLease (now : ℤ) (old : Option CapacityIntent) (generation fence : ℤ) (owner : String) :
    Except CapacityError CapacityIntent :=
  match old with
  | none =>
    if store.executionEnabled && p.executionEnabled then .error (.conflict "")
    else .error .disabled
  | some old => do
    require (match old.failedExpansionTerminalReconcile with
      | none => true
      | some mark => store.failedExpansionTerminalReconcile == some mark &&
          mark.runID == store.originalRunID && mark.executorID == store.executorID)
      (.conflict "")
    require (store.executionEnabled && p.executionEnabled) .disabled
    require (old.failedUnwitnessedExpansionCleanupID == "" || store.failedExpansionOwner)
      (.conflict "")
    require (old.generation == generation && old.fencingToken == fence &&
      old.policyID == policy.id && old.policyChecksum == policy.checksum && !old.recoveryOnly &&
      pendingCapacityPhase old.phase) (.conflict "")
    require (validCapacityExecutor ext store.executorID &&
      old.leaseExecutorID == store.executorID && owner != "" && old.leaseOwner == owner &&
      old.leaseExpiresAt.any (now < ·)) .lease
    .ok old

/-- The lease of a generation that is only being recovered. -/
def checkRecoveryLease (now : ℤ) (old : Option CapacityIntent) (generation fence : ℤ)
    (owner : String) : Except CapacityError CapacityIntent :=
  match old with
  | none => .error (.conflict "")
  | some old => do
    require (old.policyID == policy.id && old.policyChecksum == policy.checksum &&
      old.generation == generation && old.fencingToken == fence && old.recoveryOnly &&
      old.phase != .proposed && pendingCapacityPhase old.phase) (.conflict "")
    require (validCapacityExecutor ext store.executorID &&
      old.leaseExecutorID == store.executorID && owner != "" && old.leaseOwner == owner &&
      old.leaseExpiresAt.any (now < ·)) .lease
    .ok old

/-- When a lease taken now expires. -/
def leaseEnd : ℤ := env.now + seconds Machine.wrap p.leaseSeconds

/-! ## Operations -/

/-- The clock a new assessment continues: the recorded one, and otherwise only the last action. -/
def assessClock (old : Option CapacityIntent) (assessment : CapacityAssessment) :
    CapacityClockState :=
  match old with
  | none => {}
  | some old =>
    if old.policyChecksum == policy.checksum &&
        sameCapacityResourceIdentity old.assessment.snapshot assessment.snapshot then
      old.decision.clock
    else { lastActionAt := old.decision.clock.lastActionAt }

variable (old : CapacityIntent)

/-- The record proposes the same change for the same policy. -/
def sameProposal (d : CapacityDecision) : Bool :=
  old.phase == .proposed && old.policyID == policy.id && old.policyChecksum == policy.checksum &&
    old.decision.action == d.action && old.decision.profile == d.profile &&
    old.decision.units == d.units

/-- The generation and the phase of a decision; a repeated proposal keeps the generation. -/
def proposal (old : Option CapacityIntent) (d : CapacityDecision) :
    Except CapacityError (ℤ × Phase) :=
  let generation := old.elim 0 (·.generation)
  if d.action = .hold then .ok (generation, .hold)
  else if old.any (sameProposal policy · d) then .ok (generation, .proposed)
  else if maxCapacityGeneration ≤ generation then .error (.conflict "")
  else .ok (generation + 1, .proposed)

/-- Persists a proposal, or a hold. An outstanding generation is never overwritten. -/
def assessIntent (assessment : CapacityAssessment) (old : Option CapacityIntent) :
    Except CapacityError CapacityIntent :=
  match old.filter (fun old => old.failedUnwitnessedExpansionCleanupID != "") with
  | some old => .ok old
  | none =>
    match old.filter (fun old => pendingCapacityPhase old.phase && old.phase != .proposed) with
    | some old =>
      if old.policyID != policy.id || old.policyChecksum != policy.checksum then
        .error (.conflict "pending generation belongs to another policy revision")
      else .ok old
    | none => do
      let d ← checked (assess ext Machine.wrap p assessment (assessClock policy old assessment)
        env.now)
      let decision :=
        { d with executionPermitted := d.executionPermitted && store.executionEnabled }
      let (generation, phase) ← proposal policy old decision
      .ok { ns := policy.ns, policyName := policy.name, policyID := policy.id,
            policyChecksum := policy.checksum, environment := p.environment, domain := p.domain,
            dimension := p.dimension, generation, fencingToken := old.elim 0 (·.fencingToken),
            phase, decision, assessment, updatedAt := env.now }

/-- The evidence a claim needs: a floor repair needs none of demand. -/
def claimEvidence (reason : Reason) (assessment : CapacityAssessment) :
    Except CapacityError Unit :=
  if reason = .protectedFloorRecovery then .ok ()
  else checked (validateAssessment ext Machine.wrap p assessment env.now)

/-- The record after a claim. -/
def claimed (assessment : CapacityAssessment) : CapacityIntent :=
  { old with
    assessment
    decision := { old.decision with
      executionPermitted := capacityProfileCurrent p old.decision env.now }
    fencingToken := old.fencingToken + 1
    leaseOwner := env.newOwner
    leaseExecutorID := store.executorID
    leaseExpiresAt := some (leaseEnd p env)
    updatedAt := env.now
    baselineSnapshot := assessment.snapshot
    phase := if old.decision.action = .drain then .draining else .preparing }

/-- Takes the first lease of a proposal, which must still be what the planner decides. -/
def claimIntent (generation : ℤ) (assessment : CapacityAssessment)
    (old : Option CapacityIntent) : Except CapacityError CapacityIntent := do
  require (store.executionEnabled && p.executionEnabled) .disabled
  require (validCapacityExecutor ext store.executorID) .lease
  match old with
  | none => .error (.conflict "")
  | some old => do
    require (old.generation == generation && old.policyID == policy.id &&
      old.policyChecksum == policy.checksum && !old.recoveryOnly &&
      pendingCapacityPhase old.phase) (.conflict "")
    require (!old.leaseExpiresAt.any (env.now < ·)) .lease
    require (old.phase == .proposed) (.conflict "started generation requires recovery-only fencing")
    checked (validateSnapshot Machine.wrap p assessment env.now)
    require (sameCapacityResourceIdentity old.assessment.snapshot assessment.snapshot)
      (.conflict "")
    require (sameCapacityResources old.assessment.snapshot assessment.snapshot) (.conflict "")
    claimEvidence ext p env old.decision.reason assessment
    let d ← checked (assess ext Machine.wrap p assessment old.decision.clock env.now)
    require (d.action == old.decision.action && d.units == old.decision.units &&
      d.profile == old.decision.profile) (.conflict "proposal no longer matches current pressure")
    require (old.fencingToken < maxCapacityGeneration) (.conflict "")
    .ok (claimed store p env old assessment)

/-- The holder of a lease extends it, while the profile is current. -/
def renewIntent (generation fence : ℤ) (owner : String) (old : Option CapacityIntent) :
    Except CapacityError CapacityIntent := do
  let old ← checkLease ext store policy p env.now old generation fence owner
  require (old.failedUnwitnessedExpansionCleanupID == "" &&
    old.failedExpansionTerminalReconcile.isNone) (.conflict "")
  .ok { old with
    decision := { old.decision with
      executionPermitted := capacityProfileCurrent p old.decision env.now }
    leaseExpiresAt := some (leaseEnd p env)
    updatedAt := env.now }

variable (proof : CapacityTransitionProof)

/-- The receipt is present, fresh and healthy, and counts the work in flight. -/
def receiptHealthy : Bool :=
  proof.receiptRef != "" && proof.receiptRef.utf8ByteSize ≤ 512 &&
    fresh Machine.wrap proof.observedAt env.now p.maxEvidenceAgeSeconds && proof.healthy &&
    proof.inflight.any (0 ≤ ·)

/-- The record after an advance: a promotion ends the lease and records the action. -/
def advanced (phase : Phase) (proof : CapacityTransitionProof) : CapacityIntent :=
  let next := { old with
    decision := { old.decision with
      executionPermitted := capacityProfileCurrent p old.decision env.now }
    phase
    assessment := proof.assessment
    updatedAt := env.now }
  if phase = .promoted then
    { next with
      leaseOwner := ""
      leaseExecutorID := ""
      leaseExpiresAt := none
      decision := { next.decision with
        clock := { next.decision.clock.reset with lastActionAt := env.now } } }
  else next

/-- Moves a leased generation to its next phase on the proof of its workflow. -/
def advanceIntent (generation fence : ℤ) (owner : String) (phase : Phase)
    (proof : CapacityTransitionProof) (old : Option CapacityIntent) :
    Except CapacityError CapacityIntent := do
  let old ← checkLease ext store policy p env.now old generation fence owner
  require (capacityTransitionAllowed old.phase phase)
    (.conflict ("phase transition " ++ old.phase.text ++ " to " ++ phase.text))
  require (!(phase == .prepared || phase == .canary) ||
    capacityProfileCurrent p old.decision env.now)
    (.invalid "capacity profile quote or validation expired; recovery/readback required")
  require (receiptHealthy p env proof)
    (.invalid "capacity transition requires a fresh, healthy workflow receipt")
  checked (validateAssessment ext Machine.wrap p proof.assessment env.now)
  require (sameCapacityResourceIdentity old.assessment.snapshot proof.assessment.snapshot)
    (.conflict "resource replacement requires a separately authorized migration")
  require (!(phase == .drained || (phase == .promoted && capacityIntentReduction old)) ||
    proof.inflight == some 0) (.invalid "capacity drain still has inflight work")
  require (phase != .promoted || (proof.assessment.snapshot.units == old.decision.units &&
    proof.assessment.snapshot.profile == old.decision.profile))
    (.invalid "capacity promotion does not match observed target state")
  .ok (advanced p env old phase proof)

/-- Takes a new lease of a started generation whose lease ran out, for recovery only. -/
def recoverIntent (generation : ℤ) (assessment : CapacityAssessment)
    (old : Option CapacityIntent) : Except CapacityError CapacityIntent :=
  match old with
  | none => .error (.conflict "")
  | some old => do
    require (old.failedUnwitnessedExpansionCleanupID == "" &&
      old.failedExpansionTerminalReconcile.isNone) (.conflict "")
    require (validCapacityExecutor ext store.executorID && old.policyID == policy.id &&
      old.policyChecksum == policy.checksum && old.generation == generation &&
      old.phase != .proposed && pendingCapacityPhase old.phase) (.conflict "")
    require (!old.leaseExpiresAt.any (env.now < ·)) .lease
    checked (validateSnapshot Machine.wrap p assessment env.now)
    require (validCapacityBaseline p old &&
      sameCapacityResourceIdentity old.baselineSnapshot assessment.snapshot)
      (.conflict "original resource identity/baseline is unavailable")
    require (old.fencingToken < maxCapacityGeneration) (.conflict "")
    .ok { old with
      recoveryOnly := true
      decision := { old.decision with executionPermitted := false }
      assessment
      updatedAt := env.now
      fencingToken := old.fencingToken + 1
      leaseOwner := env.newOwner
      leaseExecutorID := store.executorID
      leaseExpiresAt := some (leaseEnd p env) }

/-- The holder of a recovery lease extends it. -/
def renewRecoveryIntent (generation fence : ℤ) (owner : String) (old : Option CapacityIntent) :
    Except CapacityError CapacityIntent := do
  let old ← checkRecoveryLease ext store policy env.now old generation fence owner
  .ok { old with
    decision := { old.decision with executionPermitted := false }
    leaseExpiresAt := some (leaseEnd p env)
    updatedAt := env.now }

/-- Whether a partial recovery stays inside the original change of the same profile. -/
def partialOutcome : Bool :=
  let units := proof.assessment.snapshot.units
  let wanted := old.decision.units
  proof.mutationAuthorityKind == "core_mutation_grants" && proof.membershipComplete &&
    !proof.noMutationVerified && old.baselineSnapshot.profile == old.decision.profile &&
    proof.assessment.snapshot.profile == old.decision.profile && p.floor ≤ units &&
    units ≤ p.ceiling && min old.baselineSnapshot.units wanted ≤ units &&
    units ≤ max old.baselineSnapshot.units wanted && units != wanted

/-- Whether a failed floor repair left the baseline below the floor unchanged. -/
def failedFloorOutcome : Bool :=
  proof.mutationAuthorityKind == "core_mutation_grants" && proof.membershipComplete &&
    !proof.noMutationVerified && old.decision.reason == .protectedFloorRecovery &&
    !capacityIntentReduction old && old.baselineSnapshot.units < p.floor &&
    old.baselineSnapshot.profile == old.decision.profile &&
    proof.assessment.snapshot.profile == old.baselineSnapshot.profile &&
    proof.assessment.snapshot.units == old.baselineSnapshot.units

/-- The profile and the units the outcome must have been observed with. -/
def reconcileTarget (outcome : Phase) (proof : CapacityTransitionProof) : Except CapacityError
    (String × ℤ) :=
  match outcome with
  | .reconciledPartial => do
    require (partialOutcome p old proof) (.invalid
      "partial recovery requires complete owned membership inside the original same-profile change and protected envelope")
    .ok (old.decision.profile, proof.assessment.snapshot.units)
  | .reconciledFailedFloor => do
    require (failedFloorOutcome p old proof) (.invalid
      "failed floor recovery requires complete unchanged healthy baseline below the protected floor")
    .ok (old.baselineSnapshot.profile, old.baselineSnapshot.units)
  | .aborted => do
    require proof.noMutationVerified
      (.invalid "capacity abort requires explicit no_mutation_verified provider proof")
    .ok (old.baselineSnapshot.profile, old.baselineSnapshot.units)
  | _ => .ok (old.decision.profile, old.decision.units)

/-- Who answers for the mutations: the core's own grants, or the provider's fencing. -/
def reconcileAuthority (fence : ℤ) (proof : CapacityTransitionProof) :
    Except CapacityError Unit :=
  if proof.mutationAuthorityKind = "core_mutation_grants" then
    require (!p.mutationBindings.isEmpty && proof.providerFencingToken == 0) (.invalid
      "core mutation authority requires approved bindings and must not invent a provider fencing token")
  else
    require (proof.mutationAuthorityKind == "" && proof.providerFencingToken == fence)
      (.invalid "capacity recovery requires exact mutation authority")

/-- The evidence a recovery needs; a floor repair may be closed without it. -/
def reconcileEvidence : Except CapacityError Unit :=
  if old.decision.reason = .protectedFloorRecovery ∧ capacityIntentReduction old = false then
    checked (validateSnapshot Machine.wrap p proof.assessment env.now)
  else checked (validateAssessment ext Machine.wrap p proof.assessment env.now)

/-- Closes a recovered generation on a proof that nothing is in flight any more. -/
def reconcileIntent (generation fence : ℤ) (owner : String) (outcome : Phase)
    (proof : CapacityTransitionProof) (old : Option CapacityIntent) :
    Except CapacityError CapacityIntent := do
  let old ← checkRecoveryLease ext store policy env.now old generation fence owner
  require (outcome == .reconciled || outcome == .reconciledPartial ||
    outcome == .reconciledFailedFloor || outcome == .aborted) (.invalid
    "capacity recovery requires reconciled, reconciled_partial, reconciled_failed_floor or aborted outcome")
  require (receiptHealthy p env proof && proof.mutationInflight == some 0) (.invalid
    "capacity recovery requires fresh healthy proof, current provider fencing and explicitly zero outstanding mutations")
  reconcileAuthority p fence proof
  reconcileEvidence ext p env old proof
  require (validCapacityBaseline p old &&
    sameCapacityResourceIdentity old.baselineSnapshot proof.assessment.snapshot)
    (.conflict "resource replacement cannot be reconciled implicitly")
  require (!capacityIntentReduction old || proof.inflight == some 0)
    (.invalid "capacity reduction still has inflight business work")
  let wanted ← reconcileTarget p old outcome proof
  require (proof.assessment.snapshot.profile == wanted.1 &&
    proof.assessment.snapshot.units == wanted.2)
    (.invalid "capacity recovery observation does not match its terminal outcome")
  .ok { old with
    phase := outcome
    assessment := proof.assessment
    updatedAt := env.now
    floorDegraded := outcome == .reconciledFailedFloor
    decision := { old.decision with
      executionPermitted := false
      clock := { old.decision.clock.reset with lastActionAt := env.now } }
    leaseOwner := ""
    leaseExecutorID := ""
    leaseExpiresAt := none }

end Operations

/-! ## Transactions -/

/-- The transactions on the intent of a policy. -/
inductive Operation
  | assess (assessment : CapacityAssessment)
  | claim (generation : ℤ) (assessment : CapacityAssessment)
  | renew (generation fence : ℤ) (owner : String)
  | advance (generation fence : ℤ) (owner : String) (phase : Phase)
      (proof : CapacityTransitionProof)
  | recover (generation : ℤ) (assessment : CapacityAssessment)
  | renewRecovery (generation fence : ℤ) (owner : String)
  | reconcile (generation fence : ℤ) (owner : String) (outcome : Phase)
      (proof : CapacityTransitionProof)
  deriving DecidableEq

/-- One call: who makes it, for which stored policy, and what it finds. -/
structure Request where
  store : CapacityStore
  policy : Manifest
  operation : Operation
  env : Env
  deriving DecidableEq

/-- Recovery may still name a policy that is no longer active. -/
def Operation.historical : Operation → Bool
  | recover .. | renewRecovery .. | reconcile .. => true
  | _ => false

/-- The valid specification of a stored policy. -/
def parseCapacityPolicy (ext : External) (policy : Manifest) :
    Except CapacityError CapacityPolicySpec := do
  require (policy.kind == "capacity_policy" && policy.id != nilUUID && policy.checksum != "" &&
    policy.ns != "" && policy.name != "") (.invalid "capacity requires a stored policy identity")
  match policy.spec with
  | none => .error (.invalid "")
  | some p => do
    checked (validatePolicy ext p)
    .ok p

/-- The operation on the record itself. -/
def mutate (ext : External) (r : Request) (p : CapacityPolicySpec)
    (old : Option CapacityIntent) : Except CapacityError CapacityIntent :=
  match r.operation with
  | .assess assessment => assessIntent ext r.store r.policy p r.env assessment old
  | .claim generation assessment =>
    claimIntent ext r.store r.policy p r.env generation assessment old
  | .renew generation fence owner =>
    renewIntent ext r.store r.policy p r.env generation fence owner old
  | .advance generation fence owner phase proof =>
    advanceIntent ext r.store r.policy p r.env generation fence owner phase proof old
  | .recover generation assessment =>
    recoverIntent ext r.store r.policy p r.env generation assessment old
  | .renewRecovery generation fence owner =>
    renewRecoveryIntent ext r.store r.policy p r.env generation fence owner old
  | .reconcile generation fence owner outcome proof =>
    reconcileIntent ext r.store r.policy p r.env generation fence owner outcome proof old

/-- A generation is closed only over a settled ledger. -/
def checkLedger (ledger : Ledger) (next : CapacityIntent) : Except CapacityError Unit :=
  if terminalCapacityPhase next.phase then do
    require (ledger.unresolved == 0) (.conflict "unresolved provider mutation authority")
    require (!(next.phase == .reconciledPartial || next.phase == .reconciledFailedFloor) ||
      (ledger.live == next.assessment.snapshot.units && ledger.fresh == ledger.live &&
        ledger.matchingProfile == ledger.live))
      (.conflict "partial recovery inventory does not match fresh immutable native membership")
    require (next.phase != .reconciledFailedFloor || ledger.ensured == 0)
      (.conflict "failed floor baseline cannot discard a confirmed serving creation")
    require (next.phase != .aborted || ledger.mutations == 0)
      (.conflict "a confirmed provider mutation cannot be certified as no mutation")
  else .ok ()

/-- One transaction: the record it writes when it commits. -/
def perform (ext : External) (r : Request) (old : Option CapacityIntent) :
    Except CapacityError CapacityIntent := do
  let p ← parseCapacityPolicy ext r.policy
  match r.env.stored with
  | none => .error (.invalid "")
  | some (checksum, active) => do
    require ((active || r.operation.historical) && checksum == r.policy.checksum)
      (.conflict "policy is no longer active")
    require (r.store.workflowID == nilUUID || r.env.workflowActive == some true)
      (.conflict "workflow is no longer active")
    require (old.all (·.policyName == r.policy.name))
      (.conflict "another policy owns this dimension")
    requireNone (r.env.refusesBefore.map .conflict)
    let next ← mutate ext r p old
    requireNone (r.env.refusesAfter.map .conflict)
    checkLedger r.env.ledger next
    .ok next

/-- A call commits the record it computes, or leaves the record as it is (`none`). -/
inductive Step (ext : External) :
    Option CapacityIntent → Option Request → Option CapacityIntent → Prop
  | commit {old : Option CapacityIntent} {r : Request} {next : CapacityIntent} :
      perform ext r old = .ok next → Step ext old (some r) (some next)
  | refuse (old : Option CapacityIntent) : Step ext old none old

section Execute

variable (ext : External) (calls : ℕ → Option Request) (start : Option CapacityIntent)

/-- The records that a sequence of calls leaves, each call committing when it can. -/
def execute : ℕ → Option CapacityIntent
  | 0 => start
  | n + 1 =>
    match calls n with
    | none => execute n
    | some r =>
      match perform ext r (execute n) with
      | .ok next => some next
      | .error _ => execute n

/-- The calls of a sequence that commit. -/
def committed (n : ℕ) : Option Request :=
  (calls n).filter fun r => (perform ext r (execute ext calls start n)) matches .ok _

theorem isRun_execute : IsRun (Step ext) (execute ext calls start) (committed ext calls start) := by
  intro n
  rw [committed, execute]
  cases hcall : calls n with
  | none => exact .refuse _
  | some r =>
    cases hperform : perform ext r (execute ext calls start n) with
    | error e => simpa [Option.filter, hperform] using Step.refuse _
    | ok next => simpa [Option.filter, hperform] using Step.commit hperform

end Execute

end Yggdrasil.Capacity
